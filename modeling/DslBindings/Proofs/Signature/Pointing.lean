import DslBindings.Proofs.Signature.Failures

/-!
# Failures point at the first offending byte

Every reader of signatures points at the first byte that no text of its kind goes on with. The readers of
types go around in a circle, as where they are shown to decide the grammar, and the induction is the same.
-/

namespace DslBindings.Signature

open Grammar

variable {s : List Char} {name : String} {ts : List JvmType}

/-! ### Characters and names -/

theorem pointsAt_expect {c : Char} (hc : c.utf8Size = 1) (s : List Char) :
    PointsAt (fun t => (expect c t).answer) (fun w => ∃ _ : Unit, w = [c]) s := by
  by_cases hs : s.head? = some c
  · obtain ⟨r, rfl⟩ := List.head?_eq_some_iff.mp hs
    exact .of_ok_cons (answer_expect_cons c)
  · refine .of_error (.expected c (firstByte? s)) ?_ ⟨[c], (), rfl⟩ fun t ht => ?_
    · simp [Reason.IsEmptyList]
    · rw [answer_expect_of_head? (ht.head?_ne hc hs), ht]

theorem reads_expect {c : Char} {s r : List Char} {u : Unit} (h : (expect c s).answer = .ok (u, r)) :
    ∃ w, s = w ++ r ∧ w = [c] :=
  ⟨[c], expect_gives_iff.mp (Outcome.answer_eq_ok_iff.mp h), rfl⟩

/-- An identifier and what it is read as. -/
def ReadsName (stops w : List Char) (name : String) : Prop :=
  IsIdentifier stops w ∧ name = String.ofList w

theorem reads_identifier {stops s r : List Char} {name : String}
    (h : (identifier stops s).answer = .ok (name, r)) : ∃ w, s = w ++ r ∧ ReadsName stops w name := by
  obtain ⟨w, hs, hw, hname, -⟩ := identifier_gives_iff.mp (Outcome.answer_eq_ok_iff.mp h)
  exact ⟨w, hs, hw, hname⟩

theorem isIdentifier_a {stops : List Char} (ha : 'a' ∉ stops) : IsIdentifier stops ['a'] :=
  ⟨List.cons_ne_nil _ _, by simpa using ha⟩

/-- An identifier ends at a byte that is no part of another character. -/
theorem pointsAt_identifier {stops : List Char} (hstops : ∀ c ∈ stops, c.utf8Size = 1)
    (ha : 'a' ∉ stops) (s : List Char) :
    PointsAt (fun t => (identifier stops t).answer) (fun w => ∃ name, ReadsName stops w name) s := by
  have hend {r t : List Char} (hr : ∀ c ∈ r.head?, c ∈ stops) (ht : StartsAlike r t) :
      ∀ c ∈ t.head?, c ∈ stops := by
    cases r with
    | nil => simp [ht.eq_nil]
    | cons d r =>
      have hd := hr d rfl
      obtain ⟨t', rfl⟩ := ht.exists_cons (hstops d hd)
      simpa using hd
  by_cases hs : ∀ c ∈ s.head?, c ∈ stops
  · refine .of_error .expectedIdentifier (by simp [Reason.IsEmptyList])
      ⟨['a'], _, isIdentifier_a ha, rfl⟩ fun t ht => ?_
    exact answer_identifier_of_head? (hend hs ht)
  · constructor
    · intro name r h
      obtain ⟨w, rfl, hw, hname, hr⟩ := identifier_gives_iff.mp (Outcome.answer_eq_ok_iff.mp h)
      refine ⟨w, rfl, fun t ht => Outcome.answer_eq_ok_iff.mpr ?_⟩
      exact identifier_gives_iff.mpr ⟨w, rfl, hw, hname, hend hr ht⟩
    · intro e h
      cases s with
      | nil => simp at hs
      | cons c s =>
        have hc : stops.contains c = false := by simpa using hs
        rw [identifier, hc] at h
        cases h

/-! ### Types -/

/-- What is behind an identifier of a class type. -/
def IsSuffix (w : List Char) : Prop :=
  ∃ a ts v parts, w = a ++ (v ++ [';']) ∧ Arguments a ts ∧ Many InnerPart v parts

/-- What is behind an identifier of a class type and its arguments. -/
def IsNext (w : List Char) : Prop := ∃ v parts, w = v ++ [';'] ∧ Many InnerPart v parts

/-- What is behind the start of a list of type arguments, or behind one of them. -/
def IsArgumentsEnd (w : List Char) : Prop := ∃ v ts, w = v ++ ['>'] ∧ Many Argument v ts ∧ ts ≠ []

theorem IsNext.isSuffix {w : List Char} (h : IsNext w) : IsSuffix w := by
  obtain ⟨v, parts, rfl, hv⟩ := h
  exact ⟨[], [], v, parts, rfl, .none, hv⟩

theorem isNext_end : IsNext [';'] := ⟨[], [], rfl, .nil⟩

theorem IsNext.nested {w v : List Char} {part : ClassPart} (hw : Grammar.Part w part) (hv : IsNext v) :
    IsNext ('.' :: (w ++ v)) := by
  obtain ⟨u, parts, rfl, hu⟩ := hv
  exact ⟨'.' :: w ++ u, part :: parts, by simp, .cons (.intro hw) hu⟩

/-- An identifier of a class type and what is behind it. -/
def IsPart (w : List Char) : Prop :=
  ∃ u part v, w = u ++ v ∧ Grammar.Part u part ∧ IsNext v

theorem IsPart.intro {w v : List Char} (hw : IsIdentifier classStops w) (hv : IsSuffix v) :
    IsPart (w ++ v) := by
  obtain ⟨a, ts, u, parts, rfl, ha, hu⟩ := hv
  exact ⟨w ++ a, _, u ++ [';'], by simp, .intro hw ha, u, parts, rfl, hu⟩

theorem IsPart.classType {w : List Char} (h : IsPart w) : ∃ t, ClassType ('L' :: w) t := by
  obtain ⟨u, part, -, rfl, hu, v, parts, rfl, hv⟩ := h
  exact ⟨_, .intro hu hv⟩

theorem IsPart.isNext {w : List Char} (h : IsPart w) : IsNext ('.' :: w) := by
  obtain ⟨u, part, v, rfl, hu, hv⟩ := h
  exact hv.nested hu

theorem IsArgumentsEnd.cons {w v : List Char} {t : JvmType} (hw : Argument w t) (hv : IsArgumentsEnd v) :
    IsArgumentsEnd (w ++ v) := by
  obtain ⟨u, ts, rfl, hu, -⟩ := hv
  exact ⟨w ++ u, t :: ts, (List.append_assoc ..).symm, .cons hw hu, List.cons_ne_nil t ts⟩

theorem isArgumentsEnd_of_argument {w : List Char} {t : JvmType} (hw : Argument w t) :
    IsArgumentsEnd (w ++ ['>']) :=
  ⟨w, [t], rfl, by simpa using Many.cons hw .nil, List.cons_ne_nil t []⟩

theorem isArgumentsEnd_unbounded : IsArgumentsEnd ['*', '>'] := isArgumentsEnd_of_argument .unbounded

theorem reads_reference {s r : List Char} {t : JvmType} (h : (reference s).answer = .ok (t, r)) :
    ∃ w, s = w ++ r ∧ Reference w t :=
  (reference_decides s).mp (Outcome.answer_eq_ok_iff.mp h)

theorem reads_anyType {s r : List Char} {t : JvmType} (h : (anyType s).answer = .ok (t, r)) :
    ∃ w, s = w ++ r ∧ AnyType w t :=
  (anyType_decides s).mp (Outcome.answer_eq_ok_iff.mp h)

theorem exists_classType : ∃ w t, ClassType w t := by
  obtain ⟨t, ht⟩ := (IsPart.intro (isIdentifier_a (by decide)) isNext_end.isSuffix).classType
  exact ⟨_, t, ht⟩

theorem utf8Size_classStops : ∀ c ∈ classStops, c.utf8Size = 1 :=
  List.forall_iff_forall_mem.mp (by decide)

theorem bind_baseType?_eq_some_iff {p : PrimitiveType} :
    s.head?.bind baseType? = some p ↔ p ≠ .void ∧ s.head? = some p.descriptor := by
  simp only [Option.bind_eq_some_iff, baseType?_eq_some_iff]
  constructor
  · rintro ⟨c, hs, hp, rfl⟩
    exact ⟨hp, hs⟩
  · rintro ⟨hp, hs⟩
    exact ⟨_, hs, hp, rfl⟩

theorem StartsAlike.bind_baseType? {t : List Char} (h : StartsAlike s t) :
    t.head?.bind baseType? = s.head?.bind baseType? := by
  ext p
  have hp : p.descriptor.utf8Size = 1 := by cases p <;> decide
  rw [bind_baseType?_eq_some_iff, bind_baseType?_eq_some_iff, h.head?_eq_some_iff hp]

theorem StartsAlike.ne_nil {t : List Char} (h : StartsAlike s t) (hs : s ≠ []) : t ≠ [] := by
  rintro rfl
  exact hs h.symm.eq_nil

/-- A part is pointed into where what is behind its identifier is. -/
theorem pointsAt_part (f : String → String) {s : List Char}
    (hsuffix : ∀ name r, r.length ≤ s.length → PointsAt (fun t => (suffix name t).answer) IsSuffix r) :
    PointsAt (fun t => (identifier classStops t).answer.andThen fun name r => (suffix (f name) r).answer)
      IsPart s := by
  refine (pointsAt_identifier utf8Size_classStops (by decide) s).andThen_of_reads
    (fun _ _ => reads_identifier) ?_ ?_
  · rintro w _ ⟨hw, -⟩
    exact ⟨[';'], .intro hw isNext_end.isSuffix⟩
  · rintro w name r rfl ⟨hw, -⟩
    have hr : r.length ≤ (w ++ r).length := by simp
    exact (hsuffix (f name) r hr).mono fun v hv => ⟨[], by simpa using IsPart.intro hw hv⟩

/-- Where a type argument with a bound is, and then more of them. -/
theorem pointsAt_argument (mark : List Char) {f : JvmType → JvmType} {s : List Char}
    (hargument : ∀ w t, Reference w t → Argument (mark ++ w) (f t))
    (hreference : PointsAt (fun t => (reference t).answer) (fun w => ∃ t, Reference w t) s)
    (hmore : ∀ w t r, s = w ++ r → Reference w t →
      PointsAt (fun t => (arguments t).answer) IsArgumentsEnd r) :
    PointsAt (fun t => (reference t).answer.andThen fun t r =>
      (arguments r).answer.andThen fun ts r' => .ok (f t :: ts, r'))
      (fun w => IsArgumentsEnd (mark ++ w)) s := by
  refine hreference.andThen_of_reads (fun _ _ => reads_reference) ?_ ?_
  · intro w t hw
    exact ⟨['>'], by simpa using isArgumentsEnd_of_argument (hargument w t hw)⟩
  · intro w t r hs hw
    exact ((hmore w t r hs hw).map (f t :: ·)).mono fun v hv =>
      ⟨[], by simpa using hv.cons (hargument w t hw)⟩

theorem Grammar.ClassType.ne_nil {w : List Char} {t : JvmType} (h : ClassType w t) : w ≠ [] := by
  cases h
  exact List.cons_ne_nil _ _

theorem Grammar.Reference.ne_nil {w : List Char} {t : JvmType} (h : Reference w t) : w ≠ [] := by
  cases h with
  | ofClass type => exact type.ne_nil
  | typeVariable isName => exact List.cons_ne_nil _ _
  | array element => exact List.cons_ne_nil _ _

theorem Grammar.Reference.length_lt {w r : List Char} {t : JvmType} (h : Reference w t) :
    r.length < (w ++ r).length := by
  have hpos := List.length_pos_iff.mpr h.ne_nil
  rw [List.length_append]
  omega

mutual

theorem pointsAt_reference (s : List Char) :
    PointsAt (fun t => (reference t).answer) (fun w => ∃ t, Reference w t) s := by
  by_cases hclass : s.head? = some 'L'
  · obtain ⟨r, rfl⟩ := List.head?_eq_some_iff.mp hclass
    have hpart := pointsAt_part (s := r) (Text.replaceChar '/' '.') fun name u hu =>
      pointsAt_suffix name u
    refine .cons (hpart.mono fun w hw => ?_) fun t _ => answer_class t
    obtain ⟨t, ht⟩ := hw.classType
    exact ⟨[], t, by simpa using .ofClass ht⟩
  by_cases hvariable : s.head? = some 'T'
  · obtain ⟨r, rfl⟩ := List.head?_eq_some_iff.mp hvariable
    refine .cons ?_ fun t _ => answer_typeVariable t
    have hstop : ∀ c ∈ [';'], c.utf8Size = 1 := List.forall_iff_forall_mem.mp (by decide)
    refine (pointsAt_identifier hstop (by decide) r).andThen_of_reads
      (fun _ _ => reads_identifier) ?_ ?_
    · rintro w _ ⟨hw, -⟩
      exact ⟨[';'], _, .typeVariable hw⟩
    · rintro w name r' - ⟨hw, -⟩
      refine ((pointsAt_expect (c := ';') (by decide) r').map fun _ => JvmType.typeVariable name).mono ?_
      rintro v ⟨-, rfl⟩
      exact ⟨[], _, by simpa using .typeVariable hw⟩
  by_cases harray : s.head? = some '['
  · obtain ⟨r, rfl⟩ := List.head?_eq_some_iff.mp harray
    refine .cons (((pointsAt_anyType r).map .array).mono ?_) fun t _ => answer_array t
    rintro w ⟨t, hw⟩
    exact ⟨[], _, by simpa using .array hw⟩
  · have hno : ∀ c ∈ referenceStarts, s.head? ≠ some c := by simp [referenceStarts, *]
    obtain ⟨w, t, hw⟩ := exists_classType
    refine .of_error (.unexpected (firstByte? s)) (by simp [Reason.IsEmptyList])
      ⟨w, t, .ofClass hw⟩ fun t ht => ?_
    have hstarts : ∀ c ∈ referenceStarts, c.utf8Size = 1 := List.forall_iff_forall_mem.mp (by decide)
    rw [answer_noReference fun c hc => ht.head?_ne (hstarts c hc) (hno c hc), ht]
termination_by 2 * s.length
decreasing_by all_goals simp_all; omega

theorem pointsAt_anyType (s : List Char) :
    PointsAt (fun t => (anyType t).answer) (fun w => ∃ t, AnyType w t) s := by
  cases hbase : s.head?.bind baseType? with
  | some p =>
    obtain ⟨hp, hs⟩ := bind_baseType?_eq_some_iff.mp hbase
    obtain ⟨r, rfl⟩ := List.head?_eq_some_iff.mp hs
    refine .of_ok_cons (x := .primitive p) fun t => Outcome.answer_eq_ok_iff.mpr ?_
    exact anyType_gives_iff.mpr (.inl ⟨p, hp, rfl, rfl⟩)
  | none =>
    refine ((pointsAt_reference s).mono ?_).congr fun t ht => ?_
    · rintro w ⟨t, hw⟩
      exact ⟨[], t, by simpa using .reference hw⟩
    · exact answer_anyType_reference (ht.bind_baseType?.trans hbase)
termination_by 2 * s.length + 1
decreasing_by all_goals simp_all

theorem pointsAt_suffix (name : String) (s : List Char) :
    PointsAt (fun t => (suffix name t).answer) IsSuffix s := by
  by_cases hs : s.head? = some '<'
  · obtain ⟨r, rfl⟩ := List.head?_eq_some_iff.mp hs
    by_cases hempty : r.head? = some '>'
    · obtain ⟨r', rfl⟩ := List.head?_eq_some_iff.mp hempty
      refine .of_emptyList (.inr rfl) fun t => ?_
      rw [answer_suffix_arguments, arguments]
      rfl
    refine .cons ?_ fun t _ => answer_suffix_arguments t
    refine (pointsAt_arguments r).andThen ?_ ?_
    · rintro w ⟨v, ts, rfl, hv, hne⟩
      exact ⟨[';'], '<' :: (v ++ ['>']), ts, [], [], by simp, .some hv hne, .nil⟩
    · intro ts w r' hr hok
      have hgives := Outcome.answer_eq_ok_iff.mp hok
      obtain ⟨v, hv, hmany⟩ := (arguments_decides r).mp hgives
      have hne : ts ≠ [] := by
        rintro rfl
        cases hmany
        rw [hv] at hempty
        exact hempty rfl
      obtain rfl : w = v ++ ['>'] := List.append_cancel_right (hr.symm.trans (by simp [hv]))
      have hlt := hgives.length_lt
      refine ((pointsAt_next name ts r').mono ?_).congr fun t _ => if_neg hne
      rintro u ⟨x, parts, rfl, hx⟩
      exact ⟨[], '<' :: (v ++ ['>']), ts, x, parts, by simp, .some hmany hne, hx⟩
  · refine ((pointsAt_next name [] s).mono fun w hw => ⟨[], by simpa using hw.isSuffix⟩).congr
      fun t ht => ?_
    exact answer_suffix_noArguments (ht.head?_ne (by decide) hs)
termination_by 2 * s.length + 1
decreasing_by all_goals simp_all; try omega

theorem pointsAt_next (name : String) (ts : List JvmType) (s : List Char) :
    PointsAt (fun t => (next name ts t).answer) IsNext s := by
  by_cases hs : s.head? = some '.'
  · obtain ⟨r, rfl⟩ := List.head?_eq_some_iff.mp hs
    have hpart := pointsAt_part (s := r) (name ++ "$" ++ ·) fun inner u hu => pointsAt_suffix inner u
    exact .cons (hpart.mono fun w hw => ⟨[], by simpa using hw.isNext⟩) fun t _ => answer_next_nested t
  · refine (((pointsAt_expect (c := ';') (by decide) s).map fun _ => classType name ts).mono ?_).congr
      fun t ht => ?_
    · rintro w ⟨-, rfl⟩
      exact ⟨[], isNext_end⟩
    · exact answer_next_end (ht.head?_ne (by decide) hs)
termination_by 2 * s.length
decreasing_by all_goals simp_all; try omega

theorem pointsAt_arguments (s : List Char) :
    PointsAt (fun t => (arguments t).answer) IsArgumentsEnd s := by
  by_cases hnil : s = []
  · refine .of_error .unterminatedArguments (by simp [Reason.IsEmptyList])
      ⟨_, isArgumentsEnd_unbounded⟩ fun t ht => ?_
    rw [hnil] at ht
    rw [ht.eq_nil, arguments]
    rfl
  by_cases hclose : s.head? = some '>'
  · obtain ⟨r, rfl⟩ := List.head?_eq_some_iff.mp hclose
    refine .of_ok_cons (x := []) fun t => ?_
    rw [arguments]
    rfl
  by_cases hunbounded : s.head? = some '*'
  · obtain ⟨r, rfl⟩ := List.head?_eq_some_iff.mp hunbounded
    refine .cons (((pointsAt_arguments r).map (.unbounded :: ·)).mono fun w hw => ?_)
      fun t _ => answer_arguments_unbounded t
    exact ⟨[], by simpa using hw.cons .unbounded⟩
  by_cases hout : s.head? = some '+'
  · obtain ⟨r, rfl⟩ := List.head?_eq_some_iff.mp hout
    refine .cons (pointsAt_argument ['+'] (fun _ _ => .out) (pointsAt_reference r) ?_)
      fun t _ => answer_arguments_out t
    intro w t r' hr hw
    have hlt := hw.length_lt (r := r')
    exact pointsAt_arguments r'
  by_cases hinto : s.head? = some '-'
  · obtain ⟨r, rfl⟩ := List.head?_eq_some_iff.mp hinto
    refine .cons (pointsAt_argument ['-'] (fun _ _ => .into) (pointsAt_reference r) ?_)
      fun t _ => answer_arguments_into t
    intro w t r' hr hw
    have hlt := hw.length_lt (r := r')
    exact pointsAt_arguments r'
  · have hmarks : ∀ c ∈ argumentMarks, s.head? ≠ some c := by simp [argumentMarks, *]
    refine (pointsAt_argument [] (f := id) (fun _ _ => .exactly) (pointsAt_reference s) ?_).congr
      fun t ht => ?_
    · intro w t r' hr hw
      have hlt := hw.length_lt (r := r')
      exact pointsAt_arguments r'
    · have hsize : ∀ c ∈ argumentMarks, c.utf8Size = 1 := List.forall_iff_forall_mem.mp (by decide)
      exact answer_arguments_exactly (ht.ne_nil hnil) fun c hc =>
        ht.head?_ne (hsize c hc) (hmarks c hc)
termination_by 2 * s.length + 1
decreasing_by all_goals simp_all; try omega

end

/-! ### Type parameters -/

theorem pointsAt_interfaceBounds (s : List Char) :
    PointsAt (fun t => boundsAnswer (interfaceBounds t)) (fun w => ∃ ts, Many InterfaceBound w ts) s := by
  refine .loop [':'] List.cons pointsAt_reference (fun _ _ _ => reads_reference)
    (fun _ _ => Reference.ne_nil) ⟨[], [], .nil⟩ ?_ (fun s => ?_) s
  · rintro w t v hw ⟨ts, hv⟩
    have hmany : Many InterfaceBound (':' :: w ++ v) (t :: ts) := .cons (.intro hw) hv
    exact ⟨t :: ts, hmany⟩
  by_cases hs : s.head? = some ':'
  · obtain ⟨r, rfl⟩ := List.head?_eq_some_iff.mp hs
    exact .inr ⟨r, rfl, fun t _ => answer_interfaceBounds_cons t⟩
  · refine .inl (.of_ok (x := []) fun t ht => ?_)
    exact answer_interfaceBounds_end (ht.head?_ne (by decide) hs)

theorem StartsAlike.lacksClassBound_eq {t : List Char} (h : StartsAlike s t) :
    lacksClassBound t = lacksClassBound s := by
  have hcolon : t.head? = some ':' ↔ s.head? = some ':' := h.head?_eq_some_iff (by decide)
  have hclose : t.head? = some '>' ↔ s.head? = some '>' := h.head?_eq_some_iff (by decide)
  rw [Bool.eq_iff_iff, lacksClassBound_iff, lacksClassBound_iff]
  simp only [List.mem_cons, List.not_mem_nil, or_false, hcolon, hclose]

/-- The bounds of a type parameter. -/
def IsBounds (w : List Char) : Prop :=
  (∃ ts, Many InterfaceBound w ts)
    ∨ ∃ u v t ts, w = u ++ v ∧ Reference u t ∧ Many InterfaceBound v ts

theorem pointsAt_bounds (s : List Char) :
    PointsAt (fun t => boundsAnswer (bounds t)) IsBounds s := by
  cases hlacks : lacksClassBound s with
  | true =>
    refine ((pointsAt_interfaceBounds s).mono fun w hw => ⟨[], ?_⟩).congr fun t ht => ?_
    · rw [List.append_nil]
      exact .inl hw
    · exact answer_bounds_noClass (ht.lacksClassBound_eq.trans hlacks)
  | false =>
    refine ((pointsAt_reference s).andThen_of_reads (fun _ _ => reads_reference) ?_ ?_).congr
      fun t ht => answer_bounds_class (ht.lacksClassBound_eq.trans hlacks)
    · intro w t hw
      exact ⟨[], .inr ⟨w, [], t, [], rfl, hw, .nil⟩⟩
    · rintro w t r - hw
      refine ((pointsAt_interfaceBounds r).map (t :: ·)).mono ?_
      rintro v ⟨ts, hv⟩
      exact ⟨[], .inr ⟨w, v, t, ts, by rw [List.append_nil], hw, hv⟩⟩

/-- The declaration of a type parameter that can be the last one. -/
def IsDeclaration (w : List Char) : Prop := ∃ p, Declaration w p ['>']

theorem IsBounds.isDeclaration {name w : List Char} (hname : IsIdentifier [':', '>'] name)
    (h : IsBounds w) : IsDeclaration (name ++ ':' :: w) := by
  obtain ⟨ts, hw⟩ | ⟨u, v, t, ts, rfl, hu, hv⟩ := h
  · refine ⟨_, .noClassBound hname hw ?_⟩
    cases hw with
    | nil => decide
    | cons head tail =>
      cases head
      simp
  · exact ⟨_, .classBound hname hu hv⟩

theorem pointsAt_typeParameter (s : List Char) :
    PointsAt (fun t => (typeParameter t).answer) IsDeclaration s := by
  have hstops : ∀ c ∈ [':', '>'], c.utf8Size = 1 := List.forall_iff_forall_mem.mp (by decide)
  refine ((pointsAt_identifier hstops (by decide) s).andThen_of_reads
    (fun _ _ => reads_identifier) ?_ ?_).congr fun t _ => answer_typeParameter t
  · rintro w name ⟨hw, -⟩
    exact ⟨[':'], IsBounds.isDeclaration hw (.inl ⟨[], .nil⟩)⟩
  · rintro w name r - ⟨hw, -⟩
    refine (pointsAt_expect (c := ':') (by decide) r).andThen_of_reads (fun _ _ => reads_expect) ?_ ?_
    · rintro v - rfl
      exact ⟨[], IsBounds.isDeclaration hw (.inl ⟨[], .nil⟩)⟩
    · rintro v - r' - rfl
      refine ((pointsAt_bounds r').map fun ts => TypeParameter.mk name (firstBound ts)).mono fun u hu => ?_
      exact ⟨[], by simpa using hu.isDeclaration hw⟩

/-- Where a declaration ends in front of something else than a bound or the end of the list, it stands in
front of anything. -/
theorem Grammar.Declaration.of_not_next {w b b' : List Char} {p : TypeParameter} (h : Declaration w p b)
    (hb : b.head? ∉ [some ':', some '>']) : Declaration w p b' := by
  cases h with
  | classBound isName bound bounds => exact .classBound isName bound bounds
  | noClassBound isName bounds isNext =>
    refine .noClassBound isName bounds ?_
    cases bounds with
    | nil => exact absurd isNext hb
    | cons head tail =>
      cases head
      simp

theorem Grammar.Declaration.ne_nil {w b : List Char} {p : TypeParameter} (h : Declaration w p b) :
    w ≠ [] := by
  cases h <;> simp

/-- Declarations, of which there is at least one, up to the end of their list. -/
def IsDeclarationsEnd (w : List Char) : Prop := ∃ ps, Declarations w ps ∧ ps ≠ []

theorem IsDeclaration.isDeclarationsEnd {w : List Char} (h : IsDeclaration w) :
    IsDeclarationsEnd (w ++ ['>']) := by
  obtain ⟨p, hp⟩ := h
  exact ⟨[p], .cons hp .close, List.cons_ne_nil p []⟩

theorem exists_isDeclarationsEnd : ∃ w, IsDeclarationsEnd w :=
  ⟨_, (IsBounds.isDeclaration (isIdentifier_a (by decide)) (.inl ⟨[], .nil⟩)).isDeclarationsEnd⟩

theorem pointsAt_typeParametersToEnd (s : List Char) :
    PointsAt (fun t => (typeParametersToEnd t).answer) IsDeclarationsEnd s := by
  induction hn : s.length using Nat.strong_induction_on generalizing s with
  | _ n ih =>
    by_cases hnil : s = []
    · refine .of_error .unterminatedParameters (by simp [Reason.IsEmptyList])
        exists_isDeclarationsEnd fun t ht => ?_
      rw [hnil] at ht
      rw [ht.eq_nil, typeParametersToEnd]
      rfl
    by_cases hclose : s.head? = some '>'
    · obtain ⟨r, rfl⟩ := List.head?_eq_some_iff.mp hclose
      refine .of_ok_cons (x := []) fun t => ?_
      rw [typeParametersToEnd]
      rfl
    refine .congr ?_ fun t ht => answer_typeParametersToEnd_cons (ht.ne_nil hnil)
      (ht.head?_ne (by decide) hclose)
    refine (pointsAt_typeParameter s).andThen ?_ ?_
    · intro w hw
      exact ⟨['>'], hw.isDeclarationsEnd⟩
    · intro p w r hs hok
      obtain ⟨hr, w', hs', hw⟩ := typeParameter_decides.mp (Outcome.answer_eq_ok_iff.mp hok)
      obtain rfl : w = w' := List.append_cancel_right (hs.symm.trans hs')
      by_cases hend : r.head? = some '>'
      · obtain ⟨r', rfl⟩ := List.head?_eq_some_iff.mp hend
        refine .of_ok_cons (x := [p]) fun t => ?_
        rw [typeParametersToEnd]
        rfl
      · have hnext : r.head? ∉ [some ':', some '>'] := by
          simp only [List.mem_cons, List.not_mem_nil, or_false, hend, List.head?_eq_some_iff, hr,
            exists_false, not_false_iff]
        have hpos := List.length_pos_iff.mpr hw.ne_nil
        have hlt : r.length < n := by
          rw [← hn, hs, List.length_append]
          omega
        refine ((ih r.length hlt r rfl).map (p :: ·)).mono ?_
        rintro v ⟨ps, hv, -⟩
        refine ⟨[], p :: ps, ?_, List.cons_ne_nil p ps⟩
        rw [List.append_nil]
        exact .cons (hw.of_not_next hnext) hv

theorem pointsAt_typeParameters (s : List Char) :
    PointsAt typeParameters (fun w => ∃ ps, TypeParameters w ps) s := by
  by_cases hs : s.head? = some '<'
  · obtain ⟨r, rfl⟩ := List.head?_eq_some_iff.mp hs
    by_cases hempty : r.head? = some '>'
    · obtain ⟨r', rfl⟩ := List.head?_eq_some_iff.mp hempty
      refine .of_emptyList (.inl rfl) fun t => ?_
      rw [typeParameters_cons, typeParametersToEnd]
      rfl
    refine .cons ((pointsAt_typeParametersToEnd r).andThen ?_ ?_) fun t _ => typeParameters_cons t
    · rintro w ⟨ps, hw, hne⟩
      exact ⟨[], ps, by simpa using .some hw hne⟩
    · intro ps w r' hr hok
      have hne : ps ≠ [] := by
        rintro rfl
        obtain ⟨v, hv, hclose⟩ := typeParametersToEnd_decides.mp (Outcome.answer_eq_ok_iff.mp hok)
        cases hclose
        rw [hv] at hempty
        exact hempty rfl
      exact .of_ok fun t _ => if_neg hne
  · exact .of_ok (x := []) fun t ht =>
      typeParameters_of_head? (ht.head?_ne (by decide) hs)

theorem reads_typeParameters {r : List Char} {ps : List TypeParameter}
    (h : typeParameters s = .ok (ps, r)) : ∃ w, s = w ++ r ∧ TypeParameters w ps := by
  obtain ⟨s', rfl, hps, hne⟩ | ⟨-, rfl, rfl⟩ := typeParameters_eq_ok_iff.mp h
  · obtain ⟨w, rfl, hw⟩ := typeParametersToEnd_decides.mp hps
    exact ⟨'<' :: w, rfl, .some hw hne⟩
  · exact ⟨[], rfl, .none⟩

/-! ### Signatures -/

theorem Grammar.AnyType.ne_nil {w : List Char} {t : JvmType} (h : AnyType w t) : w ≠ [] := by
  cases h with
  | base isValue => exact List.cons_ne_nil _ _
  | reference type => exact type.ne_nil

/-- Parameter types up to the end of their list. -/
def ReadsParameters (w : List Char) (ts : List JvmType) : Prop :=
  ∃ v, w = v ++ [')'] ∧ Many AnyType v ts

theorem reads_parametersToEnd {r : List Char} (h : (parametersToEnd s).answer = .ok (ts, r)) :
    ∃ w, s = w ++ r ∧ ReadsParameters w ts := by
  obtain ⟨v, rfl, hv⟩ := parametersToEnd_decides.mp (Outcome.answer_eq_ok_iff.mp h)
  exact ⟨v ++ [')'], by simp, v, rfl, hv⟩

theorem pointsAt_parametersToEnd (s : List Char) :
    PointsAt (fun t => (parametersToEnd t).answer) (fun w => ∃ ts, ReadsParameters w ts) s := by
  refine .loop [] List.cons pointsAt_anyType (fun _ _ _ => reads_anyType)
    (fun _ _ => AnyType.ne_nil) ⟨[')'], [], [], rfl, .nil⟩ ?_ (fun s => ?_) s
  · rintro w t - hw ⟨ts, v, rfl, hv⟩
    exact ⟨t :: ts, w ++ v, by simp, .cons hw hv⟩
  by_cases hs : s.head? = some ')'
  · obtain ⟨r, rfl⟩ := List.head?_eq_some_iff.mp hs
    refine .inl (.of_ok_cons (x := []) fun t => ?_)
    rw [parametersToEnd]
    rfl
  · refine .inr ⟨s, rfl, fun t ht => ?_⟩
    exact answer_parametersToEnd_cons (ht.head?_ne (by decide) hs)

theorem reads_returnType {r : List Char} {t : JvmType} (h : (returnType s).answer = .ok (t, r)) :
    ∃ w, s = w ++ r ∧ Returned w t :=
  returnType_decides.mp (Outcome.answer_eq_ok_iff.mp h)

theorem pointsAt_returnType (s : List Char) :
    PointsAt (fun t => (returnType t).answer) (fun w => ∃ t, Returned w t) s := by
  by_cases hs : s.head? = some 'V'
  · obtain ⟨r, rfl⟩ := List.head?_eq_some_iff.mp hs
    exact .of_ok_cons (x := .primitive .void) fun t => rfl
  · refine ((pointsAt_anyType s).mono ?_).congr fun t ht => ?_
    · rintro w ⟨t, hw⟩
      exact ⟨[], t, by simpa using .value hw⟩
    · exact answer_returnType_value (ht.head?_ne (by decide) hs)

theorem pointsAt_thrownToEnd (s : List Char) :
    PointsAt (fun t => toEnd (thrownToEnd t)) (fun w => ∃ ts, Many Thrown w ts) s := by
  refine .loop ['^'] (fun _ u => u) pointsAt_reference (fun _ _ _ => reads_reference)
    (fun _ _ => Reference.ne_nil) ⟨[], [], .nil⟩ ?_ (fun s => ?_) s
  · rintro w t v hw ⟨ts, hv⟩
    have hmany : Many Thrown ('^' :: w ++ v) (t :: ts) := .cons (.intro hw) hv
    exact ⟨t :: ts, hmany⟩
  by_cases hs : s.head? = some '^'
  · obtain ⟨r, rfl⟩ := List.head?_eq_some_iff.mp hs
    exact .inr ⟨r, rfl, fun t _ => toEnd_thrownToEnd_cons t⟩
  by_cases hnil : s = []
  · refine .inl (.of_ok (x := ()) fun t ht => ?_)
    rw [hnil] at ht
    rw [ht.eq_nil, thrownToEnd]
    rfl
  · refine .inl (.of_error .trailing (by simp [Reason.IsEmptyList]) ⟨[], [], .nil⟩
      fun t ht => ?_)
    exact toEnd_thrownToEnd_of_head? (ht.ne_nil hnil) (ht.head?_ne (by decide) hs)

theorem reads_classReference {r : List Char} {t : JvmType}
    (h : (classReference s).answer = .ok (t, r)) : ∃ w, s = w ++ r ∧ ClassType w t :=
  classReference_decides.mp (Outcome.answer_eq_ok_iff.mp h)

theorem pointsAt_classReference (s : List Char) :
    PointsAt (fun t => (classReference t).answer) (fun w => ∃ t, ClassType w t) s := by
  by_cases hs : s.head? = some 'L'
  · obtain ⟨r, rfl⟩ := List.head?_eq_some_iff.mp hs
    have hpart := pointsAt_part (s := r) (Text.replaceChar '/' '.') fun name u _ =>
      pointsAt_suffix name u
    refine .cons (hpart.mono fun w hw => ?_) fun t _ => answer_class t
    exact ⟨[], by simpa using hw.classType⟩
  · refine .of_error (.expected 'L' (firstByte? s)) (by simp [Reason.IsEmptyList])
      exists_classType fun t ht => ?_
    rw [answer_classReference_of_head? (ht.head?_ne (by decide) hs), ht]

theorem pointsAt_interfacesToEnd (s : List Char) :
    PointsAt (fun t => toEnd (interfacesToEnd t)) (fun w => ∃ ts, Many ClassType w ts) s := by
  refine .loop [] List.cons pointsAt_classReference
    (fun _ _ _ => reads_classReference) (fun _ _ => ClassType.ne_nil) ⟨[], [], .nil⟩ ?_ (fun s => ?_) s
  · rintro w t v hw ⟨ts, hv⟩
    have hmany : Many ClassType (w ++ v) (t :: ts) := .cons hw hv
    exact ⟨t :: ts, hmany⟩
  by_cases hs : s = []
  · refine .inl (.of_ok (x := []) fun t ht => ?_)
    rw [hs] at ht
    rw [ht.eq_nil, interfacesToEnd]
    rfl
  · exact .inr ⟨s, rfl, fun t ht => toEnd_interfacesToEnd_cons (ht.ne_nil hs)⟩

theorem pointsAt_readField (s : List Char) :
    PointsAt (fun t => toEnd (readField t)) (fun w => ∃ t, Field w t) s := by
  refine .congr ?_ fun t _ => toEnd_readField t
  refine (pointsAt_anyType s).andThen_of_reads (fun _ _ => reads_anyType) ?_ ?_
  · intro w t hw
    exact ⟨[], t, by rwa [List.append_nil]⟩
  · intro w t r _ hw
    by_cases hr : r = []
    · refine .of_ok (x := t) fun u hu => ?_
      rw [hr] at hu
      rw [hu.eq_nil, if_pos rfl]
    · refine .of_error .trailing (by simp [Reason.IsEmptyList])
        ⟨[], t, by rwa [List.append_nil]⟩ fun u hu => ?_
      exact if_neg (hu.ne_nil hr)

theorem pointsAt_readClass (s : List Char) :
    PointsAt (fun t => toEnd (readClass t)) (fun w => ∃ signature, Class w signature) s := by
  refine .congr ?_ fun t _ => toEnd_readClass t
  refine (pointsAt_typeParameters s).andThen_of_reads (fun _ _ => reads_typeParameters) ?_ ?_
  · intro a ps ha
    obtain ⟨b, t, hb⟩ := exists_classType
    exact ⟨b ++ [], _, .intro ha hb .nil⟩
  intro a ps r _ ha
  refine (pointsAt_classReference r).andThen_of_reads (fun _ _ => reads_classReference) ?_ ?_
  · intro b t hb
    exact ⟨[], ⟨ps, some t, []⟩, by simpa using Class.intro ha hb .nil⟩
  intro b t r' _ hb
  refine ((pointsAt_interfacesToEnd r').map fun ts => ClassSignature.mk ps (some t) ts).mono ?_
  rintro c ⟨ts, hc⟩
  exact ⟨[], _, by simpa using .intro ha hb hc⟩

theorem pointsAt_readMethod (s : List Char) :
    PointsAt (fun t => toEnd (readMethod t)) (fun w => ∃ signature, Method w signature) s := by
  refine .congr ?_ fun t _ => toEnd_readMethod t
  refine (pointsAt_typeParameters s).andThen_of_reads (fun _ _ => reads_typeParameters) ?_ ?_
  · intro a ps ha
    exact ⟨_, _, .intro ha .nil .void .nil⟩
  intro a ps r _ ha
  refine (pointsAt_expect (c := '(') (by decide) r).andThen_of_reads (fun _ _ => reads_expect) ?_ ?_
  · rintro w - rfl
    exact ⟨[')', 'V'], _, by simpa using .intro ha .nil .void .nil⟩
  rintro w - r₁ - rfl
  refine (pointsAt_parametersToEnd r₁).andThen_of_reads (fun _ _ => reads_parametersToEnd) ?_ ?_
  · rintro w ts ⟨b, rfl, hb⟩
    exact ⟨['V'], _, by simpa using .intro ha hb .void .nil⟩
  rintro w ts r₂ - ⟨b, rfl, hb⟩
  refine (pointsAt_returnType r₂).andThen_of_reads (fun _ _ => reads_returnType) ?_ ?_
  · intro c t hc
    exact ⟨[], ⟨ps, ts, t⟩, by simpa using Method.intro ha hb hc .nil⟩
  intro c t r₃ _ hc
  refine ((pointsAt_thrownToEnd r₃).map fun _ => MethodSignature.mk ps ts t).mono ?_
  rintro d ⟨thrown, hd⟩
  exact ⟨[], _, by simpa using .intro ha hb hc hd⟩

end DslBindings.Signature
