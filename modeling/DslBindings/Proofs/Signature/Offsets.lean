import DslBindings.Proofs.Signature.Pointing

/-!
# Offsets of malformed signatures

An offset counts bytes. It is that of the first byte that no signature of the kind goes on with, and the
error depends on nothing behind that byte.
-/

namespace DslBindings.Signature

/-! ### Identifiers -/

/-- The bytes in front of the first stop are those of the characters in front of it. -/
theorem takeWhile_bytes {stops : List Char} (hstops : ∀ c ∈ stops, c.utf8Size = 1) (s : List Char) :
    (s.flatMap String.utf8EncodeChar).takeWhile (· ∉ stops.map Char.toUInt8)
      = (s.takeWhile (!stops.contains ·)).flatMap String.utf8EncodeChar := by
  induction s with
  | nil => rfl
  | cons c s ih =>
    rw [List.flatMap_cons, List.takeWhile_cons]
    by_cases hc : c ∈ stops
    · have hbyte : c.toUInt8 ∈ stops.map Char.toUInt8 := List.mem_map_of_mem hc
      rw [String.utf8EncodeChar_eq_singleton (hstops c hc), Char.toUInt8_val, List.singleton_append,
        List.takeWhile_cons_of_neg (by simpa using hbyte)]
      simp [hc]
    · have hall : ∀ b ∈ String.utf8EncodeChar c, decide (b ∉ stops.map Char.toUInt8) = true := by
        intro b hb
        rw [decide_eq_true_iff, List.mem_map]
        rintro ⟨d, hd, rfl⟩
        rw [Text.eq_of_mem_encode (hstops d hd) hb] at hc
        exact hc hd
      rw [List.takeWhile_append_of_pos hall, ih]
      simp [hc]

theorem utf8_identifier {stops s r : List Char} {name : String} (hstops : ∀ c ∈ stops, c.utf8Size = 1)
    (h : (identifier stops s).Gives name r) :
    Text.utf8 name = (s.flatMap String.utf8EncodeChar).takeWhile (· ∉ stops.map Char.toUInt8) := by
  obtain ⟨w, rfl, hw, rfl, hr⟩ := identifier_gives_iff.mp h
  have hall : ∀ c ∈ w, (!stops.contains c) = true := by
    intro c hc
    simpa using hw.notMem_stops c hc
  rw [takeWhile_bytes hstops, (takeWhile_append_of_stop hall (by simpa using hr)).1, Text.utf8,
    String.toList_ofList]

/-- The characters that end some identifier of a signature. -/
def identifierStops : List (List Char) := [classStops, [';'], [':', '>']]

/-! ### Errors -/

/--
An error of a parser points at the first offending byte of a text. What is in front of the offset are
whole characters, and some text that is accepted starts with them, unless a list is empty there. Every
text with the same bytes up to the one at the offset has the same error.
-/
structure PointsAtOffence {α : Type} (parse : String → Except SignatureError α) (text : String)
    (e : SignatureError) : Prop where
  signature : e.signature = text
  isBoundary : String.Pos.Raw.IsValid text ⟨e.offset⟩
  offset_le : e.offset ≤ (Text.utf8 text).length
  goesOn : ¬ e.reason.IsEmptyList →
    ∃ text' value, parse text' = .ok value ∧ (Text.utf8 text).take e.offset <+: Text.utf8 text'
  isOffence : e.offset < (Text.utf8 text).length → ∀ text' : String,
    (Text.utf8 text').take (e.offset + 1) = (Text.utf8 text).take (e.offset + 1) →
      parse text' = .error ⟨text', e.offset, e.reason⟩
  isEmptyList : e.reason.IsEmptyList →
    ∀ text' value, (Text.utf8 text).take e.offset <+: Text.utf8 text' → parse text' ≠ .ok value

theorem parse_eq_error_iff {α : Type} {read : List Char → Except Failure α} {text : String}
    {e : SignatureError} :
    parse read text = .error e ↔
      ∃ f, toEnd (read text.toList) = .error f ∧ e = .ofFailure text f := by
  rw [parse]
  rcases read text.toList with f | x
  · constructor
    · intro h
      cases h
      exact ⟨f, rfl, rfl⟩
    · rintro ⟨_, ⟨⟩, rfl⟩
      rfl
  · simp [toEnd]

theorem ofFailure_append {text : String} {w r : List Char} (h : text.toList = w ++ r) (reason : Reason) :
    SignatureError.ofFailure text ⟨r, reason⟩ = ⟨text, Text.utf8Length w, reason⟩ := by
  rw [SignatureError.ofFailure, h, Text.utf8Length_append, Nat.add_sub_cancel]

/-- Texts whose bytes agree up to the first one behind the same characters go on alike behind these. -/
theorem exists_startsAlike_of_take {w r : List Char} {bytes : List UInt8} {text : String}
    (hbytes : bytes = (w ++ r).flatMap String.utf8EncodeChar)
    (h : (Text.utf8 text).take (Text.utf8Length w + 1) = bytes.take (Text.utf8Length w + 1)) :
    ∃ r', text.toList = w ++ r' ∧ StartsAlike r r' := by
  rw [hbytes, List.flatMap_append, ← Text.length_flatMap_encode] at h
  have hfront : w.flatMap String.utf8EncodeChar <+: Text.utf8 text := by
    have htake := congrArg (List.take (w.flatMap String.utf8EncodeChar).length) h
    rw [List.take_take, List.take_take, Nat.min_eq_left (Nat.le_succ _), List.take_left] at htake
    rw [← htake]
    exact List.take_prefix _ _
  obtain ⟨r', hr'⟩ := Text.exists_append_of_bytes_prefix hfront
  refine ⟨r', hr', ?_⟩
  rw [Text.utf8, hr', List.flatMap_append, List.take_length_add_append, List.take_length_add_append] at h
  have hone := congrArg List.head? (List.append_cancel_left h)
  rw [List.head?_take, List.head?_take, if_neg Nat.one_ne_zero, if_neg Nat.one_ne_zero] at hone
  rw [StartsAlike, firstByte?_eq, firstByte?_eq, hone]

theorem pointsAtOffence {α : Type} {read : List Char → Except Failure α} {kind : List Char → Prop}
    (hread : ∀ s, PointsAt (fun t => toEnd (read t)) kind s)
    (hkind : ∀ w, kind w → ∃ x, read w = .ok x) {text : String} {e : SignatureError}
    (h : parse read text = .error e) : PointsAtOffence (parse read) text e := by
  obtain ⟨⟨rest, reason⟩, hf, rfl⟩ := parse_eq_error_iff.mp h
  obtain ⟨w, htext, hw, herror⟩ := (hread text.toList).error hf
  have hbytes : Text.utf8 text = (w ++ rest).flatMap String.utf8EncodeChar := by rw [Text.utf8, htext]
  have htake : (Text.utf8 text).take (Text.utf8Length w) = w.flatMap String.utf8EncodeChar := by
    rw [hbytes, List.flatMap_append, ← Text.length_flatMap_encode, List.take_left]
  have hagain {text' : String} {r : List Char} (htext' : text'.toList = w ++ r)
      (hr : reason.IsEmptyList ∨ StartsAlike rest r) :
      parse read text' = .error ⟨text', Text.utf8Length w, reason⟩ := by
    have hfailure := herror r hr
    rw [← htext'] at hfailure
    exact parse_eq_error_iff.mpr ⟨_, hfailure, (ofFailure_append htext' reason).symm⟩
  rw [ofFailure_append htext]
  refine ⟨rfl, ?_, ?_, fun hreason => ?_, fun _ text' htext' => ?_, fun hreason text' value h => ?_⟩
  · refine String.Pos.Raw.isValid_iff_exists_append.mpr ⟨String.ofList w, String.ofList rest, ?_, ?_⟩
    · rw [← String.ofList_append, ← htext, String.ofList_toList]
    · exact String.Pos.Raw.ext (Text.utf8ByteSize_ofList w).symm
  · rw [hbytes, List.flatMap_append, List.length_append, Text.length_flatMap_encode]
    exact Nat.le_add_right _ _
  · rw [if_neg hreason] at hw
    obtain ⟨z, hz⟩ := hw
    obtain ⟨x, hx⟩ := hkind _ hz
    refine ⟨String.ofList (w ++ z), x, parse_eq_ok_iff.mpr (by rwa [String.toList_ofList]), ?_⟩
    rw [htake, Text.utf8, String.toList_ofList, List.flatMap_append]
    exact List.prefix_append _ _
  · obtain ⟨r, hr, halike⟩ := exists_startsAlike_of_take hbytes htext'
    exact hagain hr (.inr halike)
  · rw [htake] at h
    obtain ⟨r, hr⟩ := Text.exists_append_of_bytes_prefix h
    rw [hagain hr (.inl hreason)]
    intro heq
    cases heq

/--
Whatever text is no signature, its error points at the first offending byte: as the signature of a field,
of a method and of a class. No identifier is cut inside a character.
-/
theorem errors_point_at_offence :
    (∀ text e, JvmType.parse text = .error e → PointsAtOffence JvmType.parse text e)
    ∧ (∀ text e, MethodSignature.parse text = .error e → PointsAtOffence MethodSignature.parse text e)
    ∧ (∀ text e, ClassSignature.parse text = .error e → PointsAtOffence ClassSignature.parse text e)
    ∧ ∀ stops ∈ identifierStops, ∀ s name r, (identifier stops s).Gives name r →
        Text.utf8 name = (s.flatMap String.utf8EncodeChar).takeWhile (· ∉ stops.map Char.toUInt8) := by
  refine ⟨fun text e => ?_, fun text e => ?_, fun text e => ?_, fun stops hmem s name r => ?_⟩
  · exact pointsAtOffence pointsAt_readField fun _ ⟨x, hx⟩ => ⟨x, readField_decides.mpr hx⟩
  · exact pointsAtOffence pointsAt_readMethod fun _ ⟨x, hx⟩ => ⟨x, readMethod_decides.mpr hx⟩
  · exact pointsAtOffence pointsAt_readClass fun _ ⟨x, hx⟩ => ⟨x, readClass_decides.mpr hx⟩
  · have hstops : identifierStops.Forall (List.Forall fun c => c.utf8Size = 1) := by decide
    exact utf8_identifier
      (List.forall_iff_forall_mem.mp (List.forall_iff_forall_mem.mp hstops stops hmem))

/-- A method whose signature goes on behind its return type. -/
theorem errors_point_at_offence_trailing :
    MethodSignature.parse "()VX" = .error ⟨"()VX", 3, .trailing⟩
      ∧ PointsAtOffence MethodSignature.parse "()VX" ⟨"()VX", 3, .trailing⟩ := by
  have hread : toEnd (readMethod "()VX".toList) = .error ⟨['X'], .trailing⟩ := by cbv
  have herror : MethodSignature.parse "()VX" = .error ⟨"()VX", 3, .trailing⟩ :=
    parse_eq_error_iff.mpr ⟨_, hread, by decide⟩
  exact ⟨herror, errors_point_at_offence.2.1 _ _ herror⟩

end DslBindings.Signature
