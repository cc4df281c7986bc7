import DslBindings.Proofs.Signature.Decision
import DslBindings.Proofs.Text.Utf8

/-!
# How readers of signatures fail

A reader stops at the first byte that no text of its kind goes on with, and looks at no byte behind
that. Both are kept when readers are put one behind the other, so they are stated once for whatever
reads from the front of a text.
-/

namespace DslBindings.Signature

open Grammar

/-! ### The first byte of a text -/

/-- Texts that are both empty, or start with the same byte. -/
def StartsAlike (s t : List Char) : Prop := firstByte? s = firstByte? t

theorem firstByte?_eq (s : List Char) : firstByte? s = (s.flatMap String.utf8EncodeChar).head? := by
  cases s with
  | nil => rfl
  | cons c s =>
    rw [List.flatMap_cons, List.head?_append_of_ne_nil _ String.utf8EncodeChar_ne_nil]
    rfl

/-- A character of one byte is known by that byte. -/
theorem head?_eq_some_iff_firstByte? {c : Char} (hc : c.utf8Size = 1) {s : List Char} :
    s.head? = some c ↔ firstByte? s = some c.val.toUInt8 := by
  have hbytes := String.utf8EncodeChar_eq_singleton hc
  cases s with
  | nil => simp [firstByte?]
  | cons d s =>
    change some d = some c ↔ (String.utf8EncodeChar d).head? = _
    constructor
    · intro h
      rw [Option.some.inj h, hbytes]
      rfl
    · intro h
      obtain ⟨more, hmore⟩ := List.head?_eq_some_iff.mp h
      have hd : String.utf8EncodeChar d ++ [] = String.utf8EncodeChar c ++ more := by
        rw [hbytes, List.append_nil, hmore]
        rfl
      rw [Text.eq_of_encode_append hd]

namespace StartsAlike

variable {s t : List Char}

theorem refl (s : List Char) : StartsAlike s s := rfl

theorem symm (h : StartsAlike s t) : StartsAlike t s := Eq.symm h

theorem cons (c : Char) (s t : List Char) : StartsAlike (c :: s) (c :: t) := rfl

theorem append (h : StartsAlike s t) (w : List Char) : StartsAlike (w ++ s) (w ++ t) := by
  cases w with
  | nil => exact h
  | cons c w => exact cons c _ _

theorem append_of_ne_nil {w : List Char} (h : w ≠ []) (s t : List Char) :
    StartsAlike (w ++ s) (w ++ t) := by
  obtain ⟨c, w, rfl⟩ := List.exists_cons_of_ne_nil h
  exact cons c _ _

theorem head?_eq_some_iff (h : StartsAlike s t) {c : Char} (hc : c.utf8Size = 1) :
    t.head? = some c ↔ s.head? = some c := by
  rw [head?_eq_some_iff_firstByte? hc, head?_eq_some_iff_firstByte? hc, h]

theorem head?_ne (h : StartsAlike s t) {c : Char} (hc : c.utf8Size = 1) (hs : s.head? ≠ some c) :
    t.head? ≠ some c :=
  mt (h.head?_eq_some_iff hc).mp hs

theorem exists_cons {c : Char} (h : StartsAlike (c :: s) t) (hc : c.utf8Size = 1) :
    ∃ t', t = c :: t' :=
  List.head?_eq_some_iff.mp ((h.head?_eq_some_iff hc).mpr rfl)

theorem eq_nil (h : StartsAlike [] t) : t = [] := by
  cases t with
  | nil => rfl
  | cons c t =>
    have hbytes : (String.utf8EncodeChar c).head? = none := h.symm
    exact absurd (List.head?_eq_none_iff.mp hbytes) String.utf8EncodeChar_ne_nil

end StartsAlike

/-! ### Pointing at the first offending byte -/

/-- A list that must not be empty is. That is known only when its end was read. -/
def Reason.IsEmptyList (reason : Reason) : Prop :=
  reason = .emptyParameters ∨ reason = .emptyArguments

instance (reason : Reason) : Decidable reason.IsEmptyList := instDecidableOr

/-- What is read from the front of a text, with the characters behind it. -/
abbrev Answer (α : Type) := Except Failure (α × List Char)

/-- Reads on behind what was read. -/
def Answer.andThen {α β : Type} (a : Answer α) (next : α → List Char → Answer β) : Answer β :=
  match a with
  | .ok (x, r) => next x r
  | .error e => .error e

/--
What is read from a text, where texts of some kind are wanted, depends only on what is used of it and on
the byte behind that. If reading fails, what is in front of the failure goes on to a text of this kind;
for an empty list it does not, but then the failure does not depend on the byte behind either.
-/
structure PointsAt {α : Type} (read : List Char → Answer α) (kind : List Char → Prop)
    (s : List Char) : Prop where
  ok {x : α} {r : List Char} (h : read s = .ok (x, r)) :
    ∃ w, s = w ++ r ∧ ∀ t, StartsAlike r t → read (w ++ t) = .ok (x, t)
  error {e : Failure} (h : read s = .error e) :
    ∃ w, s = w ++ e.rest ∧ (if e.reason.IsEmptyList then w ≠ [] else ∃ z, kind (w ++ z))
      ∧ ∀ t, e.reason.IsEmptyList ∨ StartsAlike e.rest t → read (w ++ t) = .error ⟨t, e.reason⟩

namespace PointsAt

variable {α β : Type} {read read' : List Char → Answer α} {kind kind' : List Char → Prop}
  {s : List Char}

theorem congr (h : PointsAt read' kind s) (heq : ∀ t, StartsAlike s t → read t = read' t) :
    PointsAt read kind s where
  ok hread := by
    rw [heq s (.refl s)] at hread
    obtain ⟨w, rfl, hok⟩ := h.ok hread
    refine ⟨w, rfl, fun t ht => ?_⟩
    rw [heq _ (ht.append w), hok t ht]
  error {e} hread := by
    rw [heq s (.refl s)] at hread
    obtain ⟨w, hs, hkind, herror⟩ := h.error hread
    refine ⟨w, hs, hkind, fun t ht => ?_⟩
    have halike : StartsAlike s (w ++ t) := by
      rw [hs]
      rcases ht with hempty | ht
      · rw [if_pos hempty] at hkind
        exact .append_of_ne_nil hkind _ _
      · exact ht.append w
    rw [heq _ halike, herror t ht]

theorem mono (h : PointsAt read kind s) (hkind : ∀ w, kind w → ∃ z, kind' (w ++ z)) :
    PointsAt read kind' s where
  ok := h.ok
  error {e} hread := by
    obtain ⟨w, hs, hw, herror⟩ := h.error hread
    refine ⟨w, hs, ?_, herror⟩
    split
    · rwa [if_pos ‹_›] at hw
    · rw [if_neg ‹_›] at hw
      obtain ⟨z, hz⟩ := hw
      obtain ⟨z', hz'⟩ := hkind _ hz
      exact ⟨z ++ z', by rwa [← List.append_assoc]⟩

theorem of_ok {x : α} (h : ∀ t, StartsAlike s t → read t = .ok (x, t)) : PointsAt read kind s where
  ok hread := by
    rw [h s (.refl s)] at hread
    cases hread
    exact ⟨[], rfl, h⟩
  error hread := by
    rw [h s (.refl s)] at hread
    cases hread

theorem of_error (reason : Reason) (hreason : ¬ reason.IsEmptyList) (hkind : ∃ z, kind z)
    (h : ∀ t, StartsAlike s t → read t = .error ⟨t, reason⟩) : PointsAt read kind s where
  ok hread := by
    rw [h s (.refl s)] at hread
    cases hread
  error hread := by
    rw [h s (.refl s)] at hread
    cases hread
    exact ⟨[], rfl, by rwa [if_neg hreason], fun t ht => h t (ht.resolve_left hreason)⟩

/-- What is read behind characters that are passed over. -/
theorem behind (mark : List Char) (h : PointsAt read' (fun w => kind (mark ++ w)) s)
    (heq : ∀ t, StartsAlike s t → read (mark ++ t) = read' t) : PointsAt read kind (mark ++ s) := by
  have h' : PointsAt (fun t => read (mark ++ t)) (fun w => kind (mark ++ w)) s := h.congr heq
  constructor
  · intro x r hread
    obtain ⟨w, rfl, hok⟩ := h'.ok hread
    refine ⟨mark ++ w, (List.append_assoc ..).symm, fun t ht => ?_⟩
    rw [List.append_assoc]
    exact hok t ht
  · intro e hread
    obtain ⟨w, hs, hw, herror⟩ := h'.error hread
    refine ⟨mark ++ w, by rw [hs, List.append_assoc], ?_, fun t ht => ?_⟩
    · split
      · rw [if_pos ‹_›] at hw
        exact List.append_ne_nil_of_right_ne_nil mark hw
      · rw [if_neg ‹_›] at hw
        simpa only [List.append_assoc] using hw
    · rw [List.append_assoc]
      exact herror t ht

theorem cons {c : Char} (h : PointsAt read' (fun w => kind (c :: w)) s)
    (heq : ∀ t, StartsAlike s t → read (c :: t) = read' t) : PointsAt read kind (c :: s) :=
  behind [c] h heq

theorem of_ok_cons {c : Char} {x : α} (h : ∀ t, read (c :: t) = .ok (x, t)) :
    PointsAt read kind (c :: s) :=
  .cons (.of_ok (x := x) fun _ _ => rfl) fun t _ => h t

/-- An empty list, behind its start and its end. -/
theorem of_emptyList {a b : Char} {reason : Reason} (hreason : reason.IsEmptyList)
    (h : ∀ t, read (a :: b :: t) = .error ⟨t, reason⟩) : PointsAt read kind (a :: b :: s) where
  ok hread := by
    rw [h] at hread
    cases hread
  error hread := by
    rw [h] at hread
    cases hread
    exact ⟨[a, b], rfl, by rw [if_pos hreason]; exact List.cons_ne_nil a [b], fun t _ => h t⟩

/-- What is read behind what was read. -/
theorem andThen {next : α → List Char → Answer β} {kind' : List Char → Prop}
    (hread : PointsAt read kind' s) (hkind : ∀ w, kind' w → ∃ z, kind (w ++ z))
    (hnext : ∀ x w r, s = w ++ r → read s = .ok (x, r) → PointsAt (next x) (fun v => kind (w ++ v)) r) :
    PointsAt (fun t => (read t).andThen next) kind s := by
  constructor
  · intro y r' h
    cases hs : read s with
    | error e =>
      rw [hs] at h
      cases h
    | ok p =>
      obtain ⟨x, r⟩ := p
      rw [hs] at h
      obtain ⟨w, hw, hok⟩ := hread.ok hs
      obtain ⟨v, rfl, hok'⟩ := (hnext x w r hw hs).ok h
      refine ⟨w ++ v, by rw [hw, List.append_assoc], fun t ht => ?_⟩
      rw [List.append_assoc, hok _ (ht.append v)]
      exact hok' t ht
  · intro e h
    cases hs : read s with
    | error e' =>
      rw [hs] at h
      cases h
      obtain ⟨w, hw, hkind', herror⟩ := (hread.mono hkind).error hs
      refine ⟨w, hw, hkind', fun t ht => ?_⟩
      rw [herror t ht]
      rfl
    | ok p =>
      obtain ⟨x, r⟩ := p
      rw [hs] at h
      obtain ⟨w, hw, hok⟩ := hread.ok hs
      obtain ⟨v, hv, hkind', herror⟩ := (hnext x w r hw hs).error h
      refine ⟨w ++ v, by rw [hw, hv, List.append_assoc], ?_, fun t ht => ?_⟩
      · split
        · rw [if_pos ‹_›] at hkind'
          exact List.append_ne_nil_of_right_ne_nil w hkind'
        · rw [if_neg ‹_›] at hkind'
          simpa only [List.append_assoc] using hkind'
      · have halike : StartsAlike r (v ++ t) := by
          rw [hv]
          rcases ht with hempty | ht
          · rw [if_pos hempty] at hkind'
            exact .append_of_ne_nil hkind' _ _
          · exact ht.append v
        rw [List.append_assoc, hok _ halike]
        exact herror t ht

/-- What is read behind what was read, where that is known to be of some kind. -/
theorem andThen_of_reads {next : α → List Char → Answer β} {R : List Char → α → Prop}
    (hread : PointsAt read (fun w => ∃ x, R w x) s)
    (hreads : ∀ x r, read s = .ok (x, r) → ∃ w, s = w ++ r ∧ R w x)
    (hkind : ∀ w x, R w x → ∃ z, kind (w ++ z))
    (hnext : ∀ w x r, s = w ++ r → R w x → PointsAt (next x) (fun v => kind (w ++ v)) r) :
    PointsAt (fun t => (read t).andThen next) kind s := by
  refine hread.andThen (fun w ⟨x, hw⟩ => hkind w x hw) fun x w r hs hok => ?_
  obtain ⟨w', hs', hw'⟩ := hreads x r hok
  obtain rfl : w = w' := List.append_cancel_right (hs.symm.trans hs')
  exact hnext w x r hs hw'

theorem map (h : PointsAt read kind s) (f : α → β) :
    PointsAt (fun t => (read t).andThen fun x r => .ok (f x, r)) kind s :=
  h.andThen (fun w hw => ⟨[], by rwa [List.append_nil]⟩) fun _ _ _ _ _ => of_ok fun _ _ => rfl

/-- A loop that goes on with items of a kind, each behind the same mark, unless it stops or fails. -/
theorem loop {item : List Char → Answer α} {loop : List Char → Answer β} {R : List Char → α → Prop}
    (mark : List Char) (f : α → β → β)
    (hitem : ∀ s, PointsAt item (fun w => ∃ x, R w x) s)
    (hreads : ∀ s x r, item s = .ok (x, r) → ∃ w, s = w ++ r ∧ R w x)
    (hne : ∀ w x, R w x → w ≠ []) (hend : ∃ z, kind z)
    (hkind : ∀ w x v, R w x → kind v → kind (mark ++ (w ++ v)))
    (hloop : ∀ s, PointsAt loop kind s ∨ ∃ r, s = mark ++ r ∧ ∀ t, StartsAlike r t →
      loop (mark ++ t) = (item t).andThen fun x u => (loop u).andThen fun y v => .ok (f x y, v))
    (s : List Char) : PointsAt loop kind s := by
  induction hn : s.length using Nat.strong_induction_on generalizing s with
  | _ n ih =>
    rcases hloop s with hstop | ⟨r, rfl, hgo⟩
    · exact hstop
    · refine behind mark ((hitem r).andThen_of_reads (hreads r) ?_ ?_) hgo
      · intro w x hw
        obtain ⟨z, hz⟩ := hend
        exact ⟨z, hkind w x z hw hz⟩
      · rintro w x u rfl hw
        have hpos := List.length_pos_iff.mpr (hne w x hw)
        have hlt : u.length < n := by
          rw [← hn, List.length_append, List.length_append]
          omega
        refine ((ih u.length hlt u rfl).map (f x)).mono fun v hv => ⟨[], ?_⟩
        rw [List.append_nil]
        exact hkind w x v hw hv

end PointsAt

/-! ### What the readers answer -/

section Answers

variable {α : Type} {s : List Char} {name : String} {ts : List JvmType}

def Outcome.answer (o : Outcome α s) : Answer α :=
  match o with
  | .ok x => .ok (x.value, x.rest)
  | .error e => .error e

theorem Outcome.answer_eq_ok_iff {o : Outcome α s} {x : α} {r : List Char} :
    o.answer = .ok (x, r) ↔ o.Gives x r := by
  constructor
  · intro h
    rcases o with e | ⟨y, r', hlt⟩
    · cases h
    · cases h
      exact ⟨hlt, rfl⟩
  · rintro ⟨h, rfl⟩
    rfl

theorem answer_expect_cons (c : Char) (s : List Char) : (expect c (c :: s)).answer = .ok ((), s) := by
  rw [expect, if_pos rfl]
  rfl

theorem answer_expect_of_head? {c : Char} (hs : s.head? ≠ some c) :
    (expect c s).answer = .error ⟨s, .expected c (firstByte? s)⟩ := by
  cases s with
  | nil => rfl
  | cons d s =>
    rw [expect, if_neg fun h => hs (congrArg some h)]
    rfl

theorem answer_identifier_of_head? {stops : List Char} (hs : ∀ c ∈ s.head?, c ∈ stops) :
    (identifier stops s).answer = .error ⟨s, .expectedIdentifier⟩ := by
  cases s with
  | nil => rfl
  | cons c s =>
    rw [identifier, if_pos (List.contains_iff_mem.mpr (hs c rfl))]
    rfl

theorem answer_class (s : List Char) :
    (reference ('L' :: s)).answer = (identifier classStops s).answer.andThen fun name r =>
      (suffix (Text.replaceChar '/' '.' name) r).answer := by
  rw [reference]
  rcases identifier classStops s with e | ⟨name, r, -⟩
  · rfl
  · change _ = (suffix (Text.replaceChar '/' '.' name) r).answer
    simp only
    rcases suffix (Text.replaceChar '/' '.' name) r with e | ⟨t, r', -⟩ <;> rfl

theorem answer_typeVariable (s : List Char) :
    (reference ('T' :: s)).answer = (identifier [';'] s).answer.andThen fun name r =>
      (expect ';' r).answer.andThen fun _ r' => .ok (.typeVariable name, r') := by
  rw [reference]
  rcases identifier [';'] s with e | ⟨name, r, -⟩
  · rfl
  · change _ = (expect ';' r).answer.andThen _
    simp only
    rcases expect ';' r with e | ⟨u, r', -⟩ <;> rfl

theorem answer_array (s : List Char) :
    (reference ('[' :: s)).answer = (anyType s).answer.andThen fun t r => .ok (.array t, r) := by
  cases s with
  | nil =>
    rw [reference, anyType_nil]
    rfl
  | cons c s =>
    rw [reference, anyType_cons]
    cases baseType? c with
    | some p => rfl
    | none =>
      simp only
      rcases reference (c :: s) with e | ⟨t, r, -⟩ <;> rfl

theorem answer_noReference (hs : ∀ c ∈ referenceStarts, s.head? ≠ some c) :
    (reference s).answer = .error ⟨s, .unexpected (firstByte? s)⟩ := by
  rw [reference.eq_def]
  split
  · exact absurd rfl (hs 'L' (by decide))
  · exact absurd rfl (hs 'T' (by decide))
  · exact absurd rfl (hs '[' (by decide))
  · exact absurd rfl (hs '[' (by decide))
  · rfl

theorem answer_suffix_arguments (s : List Char) :
    (suffix name ('<' :: s)).answer = (arguments s).answer.andThen fun ts r =>
      if ts = [] then .error ⟨r, .emptyArguments⟩ else (next name ts r).answer := by
  rw [suffix]
  rcases arguments s with e | ⟨_ | ⟨t, ts⟩, r, -⟩
  · rfl
  · rfl
  · change _ = (next name (t :: ts) r).answer
    simp only
    rcases next name (t :: ts) r with e | ⟨t', r', -⟩ <;> rfl

theorem answer_suffix_noArguments (hs : s.head? ≠ some '<') :
    (suffix name s).answer = (next name [] s).answer := by
  rw [suffix.eq_def]
  split
  · exact absurd rfl hs
  · rfl

theorem answer_next_nested (s : List Char) :
    (next name ts ('.' :: s)).answer = (identifier classStops s).answer.andThen fun inner r =>
      (suffix (name ++ "$" ++ inner) r).answer := by
  rw [next]
  rcases identifier classStops s with e | ⟨inner, r, -⟩
  · rfl
  · change _ = (suffix (name ++ "$" ++ inner) r).answer
    simp only
    rcases suffix (name ++ "$" ++ inner) r with e | ⟨t, r', -⟩ <;> rfl

theorem answer_next_end (hs : s.head? ≠ some '.') :
    (next name ts s).answer = (expect ';' s).answer.andThen fun _ r => .ok (classType name ts, r) := by
  rw [next.eq_def]
  split
  · exact absurd rfl hs
  · rcases expect ';' s with e | ⟨u, r, -⟩ <;> rfl

theorem answer_arguments_unbounded (s : List Char) :
    (arguments ('*' :: s)).answer
      = (arguments s).answer.andThen fun ts r => .ok (.unbounded :: ts, r) := by
  rw [arguments]
  rcases arguments s with e | ⟨ts, r, -⟩ <;> rfl

theorem answer_arguments_out (s : List Char) :
    (arguments ('+' :: s)).answer = (reference s).answer.andThen fun t r =>
      (arguments r).answer.andThen fun ts r' => .ok (.bounded .out t :: ts, r') := by
  rw [arguments]
  rcases reference s with e | ⟨t, r, -⟩
  · rfl
  · change _ = (arguments r).answer.andThen _
    simp only
    rcases arguments r with e | ⟨ts, r', -⟩ <;> rfl

theorem answer_arguments_into (s : List Char) :
    (arguments ('-' :: s)).answer = (reference s).answer.andThen fun t r =>
      (arguments r).answer.andThen fun ts r' => .ok (.bounded .into t :: ts, r') := by
  rw [arguments]
  rcases reference s with e | ⟨t, r, -⟩
  · rfl
  · change _ = (arguments r).answer.andThen _
    simp only
    rcases arguments r with e | ⟨ts, r', -⟩ <;> rfl

/-- The characters at which a list of type arguments does not go on with a reference type. -/
def argumentMarks : List Char := ['>', '*', '+', '-']

theorem answer_arguments_exactly (hne : s ≠ []) (hs : ∀ c ∈ argumentMarks, s.head? ≠ some c) :
    (arguments s).answer = (reference s).answer.andThen fun t r =>
      (arguments r).answer.andThen fun ts r' => .ok (t :: ts, r') := by
  rw [arguments.eq_def]
  split
  · exact absurd rfl hne
  · exact absurd rfl (hs '>' (by decide))
  · exact absurd rfl (hs '*' (by decide))
  · exact absurd rfl (hs '+' (by decide))
  · exact absurd rfl (hs '-' (by decide))
  · rcases reference s with e | ⟨t, r, -⟩
    · rfl
    · change _ = (arguments r).answer.andThen _
      simp only
      rcases arguments r with e | ⟨ts, r', -⟩ <;> rfl

theorem answer_anyType_reference (hs : s.head?.bind baseType? = none) :
    (anyType s).answer = (reference s).answer := by
  rw [anyType, hs]

/-- What bounds are read as. -/
def boundsAnswer (o : Except Failure { p : List JvmType × List Char // p.2.length ≤ s.length }) :
    Answer (List JvmType) :=
  match o with
  | .ok x => .ok x.1
  | .error e => .error e

theorem answer_interfaceBounds_cons (s : List Char) :
    boundsAnswer (interfaceBounds (':' :: s)) = (reference s).answer.andThen fun t r =>
      (boundsAnswer (interfaceBounds r)).andThen fun ts r' => .ok (t :: ts, r') := by
  rw [interfaceBounds]
  rcases reference s with e | ⟨t, r, -⟩
  · rfl
  · change _ = (boundsAnswer (interfaceBounds r)).andThen _
    simp only
    rcases interfaceBounds r with e | ⟨⟨ts, r'⟩, -⟩ <;> rfl

theorem answer_interfaceBounds_end (hs : s.head? ≠ some ':') :
    boundsAnswer (interfaceBounds s) = .ok ([], s) := by
  rw [interfaceBounds.eq_def]
  split
  · exact absurd rfl hs
  · rfl

theorem answer_bounds_class (hs : lacksClassBound s = false) :
    boundsAnswer (bounds s) = (reference s).answer.andThen fun t r =>
      (boundsAnswer (interfaceBounds r)).andThen fun ts r' => .ok (t :: ts, r') := by
  rw [bounds, hs, if_neg Bool.false_ne_true]
  rcases reference s with e | ⟨t, r, -⟩
  · rfl
  · change _ = (boundsAnswer (interfaceBounds r)).andThen _
    simp only
    rcases interfaceBounds r with e | ⟨⟨ts, r'⟩, -⟩ <;> rfl

theorem answer_bounds_noClass (hs : lacksClassBound s = true) :
    boundsAnswer (bounds s) = boundsAnswer (interfaceBounds s) := by
  rw [bounds, hs, if_pos rfl]

theorem answer_typeParameter (s : List Char) :
    (typeParameter s).answer = (identifier [':', '>'] s).answer.andThen fun name r =>
      (expect ':' r).answer.andThen fun _ r' => (boundsAnswer (bounds r')).andThen fun ts r'' =>
        .ok (⟨name, firstBound ts⟩, r'') := by
  rw [typeParameter]
  rcases identifier [':', '>'] s with e | ⟨name, r, -⟩
  · rfl
  change _ = (expect ':' r).answer.andThen _
  simp only
  rcases expect ':' r with e | ⟨u, r', -⟩
  · rfl
  change _ = (boundsAnswer (bounds r')).andThen _
  simp only
  rcases bounds r' with e | ⟨⟨ts, r''⟩, -⟩ <;> rfl

theorem answer_typeParametersToEnd_cons (hne : s ≠ []) (hs : s.head? ≠ some '>') :
    (typeParametersToEnd s).answer = (typeParameter s).answer.andThen fun p r =>
      (typeParametersToEnd r).answer.andThen fun ps r' => .ok (p :: ps, r') := by
  rw [typeParametersToEnd.eq_def]
  split
  · exact absurd rfl hne
  · exact absurd rfl hs
  · rcases typeParameter s with e | ⟨p, r, -⟩
    · rfl
    · change _ = (typeParametersToEnd r).answer.andThen _
      simp only
      rcases typeParametersToEnd r with e | ⟨ps, r', -⟩ <;> rfl

theorem typeParameters_cons (s : List Char) :
    typeParameters ('<' :: s) = (typeParametersToEnd s).answer.andThen fun ps r =>
      if ps = [] then .error ⟨r, .emptyParameters⟩ else .ok (ps, r) := by
  rw [typeParameters]
  rcases typeParametersToEnd s with e | ⟨_ | ⟨p, ps⟩, r, -⟩ <;> rfl

theorem typeParameters_of_head? (hs : s.head? ≠ some '<') : typeParameters s = .ok ([], s) := by
  rw [typeParameters.eq_def]
  split
  · exact absurd rfl hs
  · rfl

theorem answer_parametersToEnd_cons (hs : s.head? ≠ some ')') :
    (parametersToEnd s).answer = (anyType s).answer.andThen fun t r =>
      (parametersToEnd r).answer.andThen fun ts r' => .ok (t :: ts, r') := by
  rw [parametersToEnd.eq_def]
  split
  · exact absurd rfl hs
  · rcases anyType s with e | ⟨t, r, -⟩
    · rfl
    · change _ = (parametersToEnd r).answer.andThen _
      simp only
      rcases parametersToEnd r with e | ⟨ts, r', -⟩ <;> rfl

theorem answer_returnType_value (hs : s.head? ≠ some 'V') :
    (returnType s).answer = (anyType s).answer := by
  rw [returnType.eq_def]
  split
  · exact absurd rfl hs
  · rfl

/-- What is read from all of a text. -/
def toEnd (result : Except Failure α) : Answer α :=
  match result with
  | .ok x => .ok (x, [])
  | .error e => .error e

theorem toEnd_thrownToEnd_cons (s : List Char) :
    toEnd (thrownToEnd ('^' :: s)) = (reference s).answer.andThen fun _ r =>
      (toEnd (thrownToEnd r)).andThen fun u r' => .ok (u, r') := by
  rw [thrownToEnd]
  rcases reference s with e | ⟨t, r, -⟩
  · rfl
  · change toEnd (thrownToEnd r) = (toEnd (thrownToEnd r)).andThen _
    rcases thrownToEnd r with e | u <;> rfl

theorem toEnd_thrownToEnd_of_head? (hne : s ≠ []) (hs : s.head? ≠ some '^') :
    toEnd (thrownToEnd s) = .error ⟨s, .trailing⟩ := by
  rw [thrownToEnd.eq_def]
  split
  · exact absurd rfl hne
  · exact absurd rfl hs
  · rfl

theorem answer_classReference_of_head? (hs : s.head? ≠ some 'L') :
    (classReference s).answer = .error ⟨s, .expected 'L' (firstByte? s)⟩ := by
  rw [classReference.eq_def]
  split
  · exact absurd rfl hs
  · rfl

theorem toEnd_interfacesToEnd_cons (hne : s ≠ []) :
    toEnd (interfacesToEnd s) = (classReference s).answer.andThen fun t r =>
      (toEnd (interfacesToEnd r)).andThen fun ts r' => .ok (t :: ts, r') := by
  rw [interfacesToEnd.eq_def]
  split
  · exact absurd rfl hne
  · rcases classReference s with e | ⟨t, r, -⟩
    · rfl
    · change _ = (toEnd (interfacesToEnd r)).andThen _
      simp only
      rcases interfacesToEnd r with e | ts <;> rfl

theorem toEnd_readClass (s : List Char) :
    toEnd (readClass s) = Answer.andThen (typeParameters s) fun ps r =>
      (classReference r).answer.andThen fun t r' => (toEnd (interfacesToEnd r')).andThen fun ts r'' =>
        .ok (⟨ps, some t, ts⟩, r'') := by
  rw [readClass]
  rcases typeParameters s with e | ⟨ps, r⟩
  · rfl
  change toEnd (classReference r >>= _) = (classReference r).answer.andThen _
  rcases classReference r with e | ⟨t, r', -⟩
  · rfl
  change toEnd (interfacesToEnd r' >>= _) = (toEnd (interfacesToEnd r')).andThen _
  rcases interfacesToEnd r' with e | ts <;> rfl

theorem toEnd_readMethod (s : List Char) :
    toEnd (readMethod s) = Answer.andThen (typeParameters s) fun ps r =>
      (expect '(' r).answer.andThen fun _ r₁ => (parametersToEnd r₁).answer.andThen fun ts r₂ =>
        (returnType r₂).answer.andThen fun t r₃ => (toEnd (thrownToEnd r₃)).andThen fun _ r₄ =>
          .ok (⟨ps, ts, t⟩, r₄) := by
  rw [readMethod]
  rcases typeParameters s with e | ⟨ps, r⟩
  · rfl
  change toEnd (expect '(' r >>= _) = (expect '(' r).answer.andThen _
  rcases expect '(' r with e | ⟨u, r₁, -⟩
  · rfl
  change toEnd (parametersToEnd r₁ >>= _) = (parametersToEnd r₁).answer.andThen _
  rcases parametersToEnd r₁ with e | ⟨ts, r₂, -⟩
  · rfl
  change toEnd (returnType r₂ >>= _) = (returnType r₂).answer.andThen _
  rcases returnType r₂ with e | ⟨t, r₃, -⟩
  · rfl
  change toEnd (thrownToEnd r₃ >>= _) = (toEnd (thrownToEnd r₃)).andThen _
  rcases thrownToEnd r₃ with e | u <;> rfl

theorem toEnd_readField (s : List Char) :
    toEnd (readField s) = (anyType s).answer.andThen fun t r =>
      if r = [] then .ok (t, []) else .error ⟨r, .trailing⟩ := by
  rw [readField]
  rcases anyType s with e | ⟨t, _ | ⟨c, r⟩, -⟩ <;> rfl

end Answers

end DslBindings.Signature
