import Mathlib.Data.List.TakeWhile
import DslBindings.Proofs.Signature.Grammar

/-!
# What a reader of signatures does at each step

When each reader gives a value, in terms of what the readers that it calls give on texts that are
shorter. The readers are not opened anywhere else.
-/

namespace DslBindings.Signature

open Grammar (IsIdentifier)

/-- An answer is this value, with these characters left. -/
def Outcome.Gives {α : Type} {s : List Char} (o : Outcome α s) (v : α) (r : List Char) : Prop :=
  ∃ h, o = .ok ⟨v, r, h⟩

namespace Outcome

variable {α : Type} {s r : List Char} {v : α}

@[grind =] theorem gives_ok {x : Text.Reading α s} :
    Gives (.ok x) v r ↔ x.value = v ∧ x.rest = r := by
  obtain ⟨v', r', h⟩ := x
  constructor
  · rintro ⟨_, h⟩
    cases h
    exact ⟨rfl, rfl⟩
  · rintro ⟨rfl, rfl⟩
    exact ⟨h, rfl⟩

@[grind =] theorem gives_error {e : Failure} : Gives (.error e : Outcome α s) v r ↔ False := by
  rw [iff_false]
  rintro ⟨_, h⟩
  cases h

theorem Gives.length_lt {o : Outcome α s} (h : o.Gives v r) : r.length < s.length := h.1

end Outcome

variable {s r : List Char} {t : JvmType} {ts : List JvmType} {name : String}

/-! ### Characters and names -/

theorem expect_gives_iff {wanted : Char} {u : Unit} :
    (expect wanted s).Gives u r ↔ s = wanted :: r := by
  cases s with
  | nil => simp [expect, Outcome.gives_error]
  | cons c s => grind [expect]

@[grind →] theorem eq_of_expect {wanted : Char} {x : Text.Reading Unit s}
    (h : expect wanted s = .ok x) : s = wanted :: x.rest :=
  expect_gives_iff.mp (Outcome.gives_ok.mpr ⟨rfl, rfl⟩ |> (h ▸ ·))

/-- A text that stops at a character is cut there. -/
theorem takeWhile_append_of_stop {p : Char → Bool} {w : List Char} (hall : ∀ c ∈ w, p c = true)
    (hstop : ∀ c ∈ r.head?, p c = false) :
    (w ++ r).takeWhile p = w ∧ (w ++ r).dropWhile p = r := by
  rw [List.takeWhile_append_of_pos hall, List.dropWhile_append_of_pos hall]
  cases r with
  | nil => simp
  | cons c r => simp [hstop c rfl]

theorem identifier_gives_iff {stops : List Char} :
    (identifier stops s).Gives name r ↔
      ∃ w, s = w ++ r ∧ IsIdentifier stops w ∧ name = String.ofList w ∧ ∀ c ∈ r.head?, c ∈ stops := by
  constructor
  · intro h
    cases s with
    | nil => grind [identifier]
    | cons c s =>
      rw [identifier] at h
      split at h
      · grind
      · rename_i hc
        obtain ⟨rfl, rfl⟩ := Outcome.gives_ok.mp h
        refine ⟨c :: s.takeWhile (!stops.contains ·), by simp, ⟨List.cons_ne_nil _ _, ?_⟩, rfl, ?_⟩
        · intro d hd
          rcases List.mem_cons.mp hd with rfl | hd
          · simpa using hc
          · simpa using List.mem_takeWhile_imp hd
        · intro d hd
          have hstop := List.head?_dropWhile_not (!stops.contains ·) s
          rw [hd] at hstop
          simpa using hstop
  · rintro ⟨w, rfl, hw, rfl, hstop⟩
    obtain ⟨c, w, rfl⟩ := List.exists_cons_of_ne_nil hw.ne_nil
    have hc : stops.contains c = false := by simpa using hw.notMem_stops c List.mem_cons_self
    have hall : ∀ d ∈ w, (!stops.contains d) = true := by
      intro d hd
      simpa using hw.notMem_stops d (List.mem_cons_of_mem c hd)
    obtain ⟨htake, hdrop⟩ := takeWhile_append_of_stop hall (by simpa using hstop)
    rw [List.cons_append, identifier, hc]
    exact Outcome.gives_ok.mpr ⟨by rw [htake], hdrop⟩

theorem identifier_gives {stops w : List Char} {c : Char} (hw : IsIdentifier stops w)
    (hc : c ∈ stops) (hs : s = w ++ c :: r) :
    (identifier stops s).Gives (String.ofList w) (c :: r) :=
  identifier_gives_iff.mpr ⟨w, hs, hw, rfl, by simpa using hc⟩

/-! ### Types -/

theorem anyType_nil : anyType [] = .error ⟨[], .unexpected none⟩ := by
  have hreference := reference.eq_def []
  exact hreference

theorem anyType_cons {c : Char} :
    (anyType (c :: s)) = match baseType? c with
      | some p => .ok ⟨.primitive p, s, Nat.lt_succ_self _⟩
      | none => reference (c :: s) := by
  have hhead : (c :: s).head?.bind baseType? = baseType? c := rfl
  cases hbase : baseType? c with
  | some p => simp only [anyType, hhead, hbase]
  | none => simp only [anyType, hhead, hbase]

theorem reference_gives_iff :
    (reference s).Gives t r ↔
      (∃ s' name r', s = 'L' :: s' ∧ (identifier classStops s').Gives name r'
        ∧ (suffix (Text.replaceChar '/' '.' name) r').Gives t r)
      ∨ (∃ s' name, s = 'T' :: s' ∧ (identifier [';'] s').Gives name (';' :: r)
        ∧ t = .typeVariable name)
      ∨ ∃ s' e, s = '[' :: s' ∧ (anyType s').Gives e r ∧ t = .array e := by
  rw [reference.eq_def]
  split
  · grind
  · grind [expect]
  · grind [anyType_cons]
  · grind [anyType_nil]
  · rename_i hclass hvariable harray hbare
    constructor
    · grind
    · rintro (⟨s', -, -, rfl, -⟩ | ⟨s', -, rfl, -⟩ | ⟨s', -, rfl, -⟩)
      · exact (hclass s' rfl).elim
      · exact (hvariable s' rfl).elim
      · cases s' with
        | nil => exact (hbare rfl).elim
        | cons c s' => exact (harray c s' rfl).elim

/-- The characters that a reference type starts with. -/
def referenceStarts : List Char := ['L', 'T', '[']

theorem head_mem_of_reference_gives {c : Char} (h : (reference (c :: s)).Gives t r) :
    c ∈ referenceStarts := by
  obtain ⟨s', name, r', hs, -⟩ | ⟨s', name, hs, -⟩ | ⟨s', e, hs, -⟩ := reference_gives_iff.mp h
  all_goals
    cases hs
    decide

theorem suffix_gives_iff :
    (suffix name s).Gives t r ↔
      (∃ s' ts r', s = '<' :: s' ∧ (arguments s').Gives ts r' ∧ ts ≠ [] ∧ (next name ts r').Gives t r)
      ∨ (next name [] s).Gives t r := by
  rw [suffix.eq_def]
  split <;> grind [next, expect]

theorem next_gives_iff :
    (next name ts s).Gives t r ↔
      (∃ s' inner r', s = '.' :: s' ∧ (identifier classStops s').Gives inner r'
        ∧ (suffix (name ++ "$" ++ inner) r').Gives t r)
      ∨ s = ';' :: r ∧ t = classType name ts := by
  rw [next.eq_def]
  split <;> grind [expect]

/-- A type argument is read, with these characters left. -/
def ReadsArgument (s : List Char) (t : JvmType) (r : List Char) : Prop :=
  (s = '*' :: r ∧ t = .unbounded)
  ∨ (∃ s' b, s = '+' :: s' ∧ (reference s').Gives b r ∧ t = .bounded .out b)
  ∨ (∃ s' b, s = '-' :: s' ∧ (reference s').Gives b r ∧ t = .bounded .into b)
  ∨ (reference s).Gives t r

theorem ReadsArgument.length_lt (h : ReadsArgument s t r) : r.length < s.length := by
  obtain ⟨rfl, -⟩ | ⟨s', b, rfl, h, -⟩ | ⟨s', b, rfl, h, -⟩ | h := h
  · exact Nat.lt_succ_self _
  · exact Nat.lt_succ_of_lt h.length_lt
  · exact Nat.lt_succ_of_lt h.length_lt
  · exact h.length_lt

theorem arguments_gives_iff :
    (arguments s).Gives ts r ↔
      (s = '>' :: r ∧ ts = [])
      ∨ ∃ t r' ts', ts = t :: ts' ∧ ReadsArgument s t r' ∧ (arguments r').Gives ts' r := by
  unfold ReadsArgument
  rw [arguments.eq_def]
  split <;> grind [reference]

theorem baseType?_eq_some_iff {c : Char} {p : PrimitiveType} :
    baseType? c = some p ↔ p ≠ .void ∧ c = p.descriptor := by
  constructor
  · intro h
    obtain ⟨hfind, hvalue⟩ := Option.filter_eq_some_iff.mp h
    have hc := List.find?_some hfind
    exact ⟨by simpa using hvalue, (of_decide_eq_true hc).symm⟩
  · rintro ⟨hp, rfl⟩
    simp [baseType?, hp]

theorem descriptor_notMem_referenceStarts (p : PrimitiveType) : p.descriptor ∉ referenceStarts := by
  cases p <;> decide

theorem anyType_gives_iff :
    (anyType s).Gives t r ↔
      (∃ p, p ≠ PrimitiveType.void ∧ s = p.descriptor :: r ∧ t = .primitive p)
      ∨ (reference s).Gives t r := by
  constructor
  · intro h
    cases s with
    | nil => grind [anyType_nil]
    | cons c s =>
      rw [anyType_cons] at h
      split at h
      · rename_i p hp
        obtain ⟨hvalue, rfl⟩ := baseType?_eq_some_iff.mp hp
        grind
      · exact .inr h
  · rintro (⟨p, hp, rfl, rfl⟩ | h)
    · rw [anyType_cons, baseType?_eq_some_iff.mpr ⟨hp, rfl⟩]
      exact Outcome.gives_ok.mpr ⟨rfl, rfl⟩
    · cases s with
      | nil => exact absurd h.length_lt (Nat.not_lt_zero _)
      | cons c s =>
        rw [anyType_cons]
        split
        · rename_i p hp
          obtain ⟨-, rfl⟩ := baseType?_eq_some_iff.mp hp
          exact absurd (head_mem_of_reference_gives h) (descriptor_notMem_referenceStarts p)
        · exact h

theorem head_mem_of_anyType_gives {c : Char} (h : (anyType (c :: s)).Gives t r) :
    (∃ p, p ≠ PrimitiveType.void ∧ c = p.descriptor) ∨ c ∈ referenceStarts := by
  rcases anyType_gives_iff.mp h with ⟨p, hp, hs, -⟩ | h
  · exact .inl ⟨p, hp, (List.cons.inj hs).1⟩
  · exact .inr (head_mem_of_reference_gives h)

/-! ### Type parameters -/

/-- An answer with bounds is these ones, with these characters left. -/
def GivesBounds (o : Except Failure { p : List JvmType × List Char // p.2.length ≤ s.length })
    (ts : List JvmType) (r : List Char) : Prop :=
  ∃ h, o = .ok ⟨(ts, r), h⟩

@[grind =] theorem givesBounds_ok {x : { p : List JvmType × List Char // p.2.length ≤ s.length }} :
    GivesBounds (.ok x) ts r ↔ x.1 = (ts, r) := by
  obtain ⟨p, h⟩ := x
  constructor
  · rintro ⟨_, h⟩
    cases h
    rfl
  · rintro rfl
    exact ⟨h, rfl⟩

@[grind =] theorem givesBounds_error {e : Failure} : GivesBounds (s := s) (.error e) ts r ↔ False := by
  rw [iff_false]
  rintro ⟨_, h⟩
  cases h

theorem interfaceBounds_gives_iff :
    GivesBounds (interfaceBounds s) ts r ↔
      (∃ s' t r' ts', s = ':' :: s' ∧ ts = t :: ts' ∧ (reference s').Gives t r'
        ∧ GivesBounds (interfaceBounds r') ts' r)
      ∨ (∀ s', s ≠ ':' :: s') ∧ ts = [] ∧ s = r := by
  constructor
  · intro h
    rw [interfaceBounds.eq_def] at h
    split at h
    · split at h
      · exact (givesBounds_error.mp h).elim
      · rename_i hread
        split at h
        · exact (givesBounds_error.mp h).elim
        · rename_i hmore
          cases givesBounds_ok.mp h
          exact .inl ⟨_, _, _, _, rfl, rfl, ⟨_, hread⟩, ⟨_, hmore⟩⟩
    · rename_i hcolon
      cases givesBounds_ok.mp h
      exact .inr ⟨hcolon, rfl, rfl⟩
  · rintro (⟨s', t, r', ts', rfl, rfl, ⟨_, hread⟩, _, hmore⟩ | ⟨hcolon, rfl, rfl⟩)
    · rw [interfaceBounds, hread]
      simp only [hmore]
      exact ⟨_, rfl⟩
    · rw [interfaceBounds.eq_def]
      split
      · exact absurd rfl (hcolon _)
      · exact ⟨_, rfl⟩

theorem not_reference_gives_of_lacksClassBound (h : lacksClassBound s = true) :
    ¬ (reference s).Gives t r := by
  intro hread
  unfold lacksClassBound at h
  split at h
  · exact absurd (head_mem_of_reference_gives hread) (by decide)
  · exact absurd (head_mem_of_reference_gives hread) (by decide)
  · cases h

/-- Where the class bound is left out there is no class type to read, so both ways exclude each other. -/
theorem bounds_gives_iff :
    GivesBounds (bounds s) ts r ↔
      (lacksClassBound s = true ∧ GivesBounds (interfaceBounds s) ts r)
      ∨ ∃ t r' ts', ts = t :: ts' ∧ (reference s).Gives t r'
        ∧ GivesBounds (interfaceBounds r') ts' r := by
  rw [bounds]
  split
  · rename_i hlacks
    constructor
    · intro h
      exact .inl ⟨hlacks, h⟩
    · rintro (⟨-, h⟩ | ⟨t, r', ts', -, hread, -⟩)
      · exact h
      · exact absurd hread (not_reference_gives_of_lacksClassBound hlacks)
  · constructor
    · intro h
      split at h
      · exact (givesBounds_error.mp h).elim
      · rename_i hread
        split at h
        · exact (givesBounds_error.mp h).elim
        · rename_i hmore
          cases givesBounds_ok.mp h
          exact .inr ⟨_, _, _, rfl, ⟨_, hread⟩, ⟨_, hmore⟩⟩
    · rintro (⟨hlacks, -⟩ | ⟨t, r', ts', rfl, ⟨_, hread⟩, _, hmore⟩)
      · contradiction
      · rw [hread]
        simp only [hmore]
        exact ⟨_, rfl⟩

theorem typeParameter_gives_iff {p : TypeParameter} :
    (typeParameter s).Gives p r ↔
      ∃ name s' ts, (identifier [':', '>'] s).Gives name (':' :: s') ∧ GivesBounds (bounds s') ts r
        ∧ p = ⟨name, firstBound ts⟩ := by
  rw [typeParameter]
  constructor
  · intro h
    grind
  · rintro ⟨name, s', ts, ⟨_, hname⟩, ⟨_, hbounds⟩, rfl⟩
    rw [hname]
    simp only [expect, if_pos, hbounds]
    exact ⟨_, rfl⟩

theorem typeParametersToEnd_gives_iff {ps : List TypeParameter} :
    (typeParametersToEnd s).Gives ps r ↔
      (s = '>' :: r ∧ ps = [])
      ∨ ∃ p r' ps', ps = p :: ps' ∧ (typeParameter s).Gives p r'
        ∧ (typeParametersToEnd r').Gives ps' r := by
  rw [typeParametersToEnd.eq_def]
  split
  · grind [typeParameter, identifier]
  · grind [typeParameter, identifier]
  · rename_i hclose
    rw [or_iff_right fun h => hclose r h.1]
    constructor
    · intro h
      split at h
      · exact (Outcome.gives_error.mp h).elim
      · rename_i hread
        split at h
        · exact (Outcome.gives_error.mp h).elim
        · rename_i hothers
          obtain ⟨rfl, rfl⟩ := Outcome.gives_ok.mp h
          exact ⟨_, _, _, rfl, ⟨_, hread⟩, ⟨_, hothers⟩⟩
    · rintro ⟨x, r', xs, rfl, ⟨_, hread⟩, _, hothers⟩
      rw [hread]
      simp only [hothers]
      exact Outcome.gives_ok.mpr ⟨rfl, rfl⟩

theorem typeParameters_eq_ok_iff {ps : List TypeParameter} :
    typeParameters s = .ok (ps, r) ↔
      (∃ s', s = '<' :: s' ∧ (typeParametersToEnd s').Gives ps r ∧ ps ≠ [])
      ∨ (∀ s', s ≠ '<' :: s') ∧ ps = [] ∧ s = r := by
  rw [typeParameters.eq_def]
  split <;> grind

/-! ### Signatures -/

theorem not_anyType_gives_close : ¬ (anyType (')' :: s)).Gives t r := by
  intro h
  rcases head_mem_of_anyType_gives h with ⟨p, -, hp⟩ | hc
  · cases p <;> exact absurd hp (by decide)
  · exact absurd hc (by decide)

theorem not_anyType_gives_void : ¬ (anyType ('V' :: s)).Gives t r := by
  intro h
  rcases head_mem_of_anyType_gives h with ⟨p, hvoid, hp⟩ | hc
  · cases p <;> first | exact hvoid rfl | exact absurd hp (by decide)
  · exact absurd hc (by decide)

theorem parametersToEnd_gives_iff :
    (parametersToEnd s).Gives ts r ↔
      (s = ')' :: r ∧ ts = [])
      ∨ ∃ t r' ts', ts = t :: ts' ∧ (anyType s).Gives t r' ∧ (parametersToEnd r').Gives ts' r := by
  rw [parametersToEnd.eq_def]
  split
  · rename_i r'
    constructor
    · intro h
      obtain ⟨rfl, rfl⟩ := Outcome.gives_ok.mp h
      exact .inl ⟨rfl, rfl⟩
    · rintro (⟨h, rfl⟩ | ⟨t, r', ts', -, hread, -⟩)
      · exact Outcome.gives_ok.mpr ⟨rfl, (List.cons.inj h).2⟩
      · exact absurd hread not_anyType_gives_close
  · rename_i hclose
    rw [or_iff_right fun h => hclose r h.1]
    constructor
    · intro h
      split at h
      · exact (Outcome.gives_error.mp h).elim
      · rename_i hread
        split at h
        · exact (Outcome.gives_error.mp h).elim
        · rename_i hothers
          obtain ⟨rfl, rfl⟩ := Outcome.gives_ok.mp h
          exact ⟨_, _, _, rfl, ⟨_, hread⟩, ⟨_, hothers⟩⟩
    · rintro ⟨x, r', xs, rfl, ⟨_, hread⟩, _, hothers⟩
      rw [hread]
      simp only [hothers]
      exact Outcome.gives_ok.mpr ⟨rfl, rfl⟩

theorem returnType_gives_iff :
    (returnType s).Gives t r ↔ (s = 'V' :: r ∧ t = .primitive .void) ∨ (anyType s).Gives t r := by
  rw [returnType.eq_def]
  split
  · constructor
    · intro h
      obtain ⟨rfl, rfl⟩ := Outcome.gives_ok.mp h
      exact .inl ⟨rfl, rfl⟩
    · rintro (⟨h, rfl⟩ | hread)
      · exact Outcome.gives_ok.mpr ⟨rfl, (List.cons.inj h).2⟩
      · exact absurd hread not_anyType_gives_void
  · rename_i hvoid
    rw [or_iff_right fun h => hvoid r h.1]

theorem thrownToEnd_eq_ok_iff :
    thrownToEnd s = .ok () ↔
      s = [] ∨ ∃ s' t r', s = '^' :: s' ∧ (reference s').Gives t r' ∧ thrownToEnd r' = .ok () := by
  rw [thrownToEnd.eq_def]
  split
  · simp
  · constructor
    · intro h
      split at h
      · cases h
      · rename_i hread
        exact .inr ⟨_, _, _, rfl, ⟨_, hread⟩, h⟩
    · rintro (h | ⟨s', t, r', h, ⟨_, hread⟩, hrest⟩)
      · cases h
      · cases h
        rw [hread]
        exact hrest
  · grind

theorem classReference_gives_iff :
    (classReference s).Gives t r ↔ ∃ s', s = 'L' :: s' ∧ (reference s).Gives t r := by
  rw [classReference.eq_def]
  split <;> grind

theorem interfacesToEnd_eq_ok_iff :
    interfacesToEnd s = .ok ts ↔
      (s = [] ∧ ts = [])
      ∨ ∃ t r ts', ts = t :: ts' ∧ (classReference s).Gives t r ∧ interfacesToEnd r = .ok ts' := by
  rw [interfacesToEnd.eq_def]
  split
  · grind [classReference]
  · rename_i hend
    constructor
    · intro h
      split at h
      · cases h
      · rename_i hread
        split at h
        · cases h
        · rename_i hrest
          cases h
          exact .inr ⟨_, _, _, rfl, ⟨_, hread⟩, hrest⟩
    · rintro (⟨rfl, -⟩ | ⟨t, r, ts', rfl, ⟨_, hread⟩, hrest⟩)
      · exact (hend rfl).elim
      · rw [hread]
        simp only [hrest]

theorem bind_eq_ok_iff {ε α β : Type} {x : Except ε α} {f : α → Except ε β} {b : β} :
    x >>= f = .ok b ↔ ∃ a, x = .ok a ∧ f a = .ok b := by
  cases x with
  | error e => simp [bind, Except.bind]
  | ok a => simp [bind, Except.bind]

theorem readClass_eq_ok_iff {signature : ClassSignature} :
    readClass s = .ok signature ↔
      ∃ ps r t r' ts, typeParameters s = .ok (ps, r) ∧ (classReference r).Gives t r'
        ∧ interfacesToEnd r' = .ok ts ∧ signature = ⟨ps, some t, ts⟩ := by
  simp only [readClass, bind_eq_ok_iff]
  constructor
  · rintro ⟨⟨ps, r⟩, hps, ⟨t, r', hlt⟩, ht, ts, hts, h⟩
    cases h
    exact ⟨ps, r, t, r', ts, hps, ⟨hlt, ht⟩, hts, rfl⟩
  · rintro ⟨ps, r, t, r', ts, hps, ⟨_, ht⟩, hts, rfl⟩
    exact ⟨_, hps, _, ht, _, hts, rfl⟩

theorem readMethod_eq_ok_iff {signature : MethodSignature} :
    readMethod s = .ok signature ↔
      ∃ ps s' ts r t r', typeParameters s = .ok (ps, '(' :: s') ∧ (parametersToEnd s').Gives ts r
        ∧ (returnType r).Gives t r' ∧ thrownToEnd r' = .ok () ∧ signature = ⟨ps, ts, t⟩ := by
  simp only [readMethod, bind_eq_ok_iff]
  constructor
  · rintro ⟨⟨ps, r⟩, hps, x, hopen, ⟨ts, r', hts⟩, hparameters, ⟨t, r'', ht⟩, hreturn, u, hthrown, h⟩
    cases h
    have hr : r = '(' :: x.rest := eq_of_expect hopen
    rw [hr] at hps
    exact ⟨ps, _, ts, r', t, r'', hps, ⟨hts, hparameters⟩, ⟨ht, hreturn⟩, hthrown, rfl⟩
  · rintro ⟨ps, s', ts, r, t, r', hps, ⟨_, hts⟩, ⟨_, ht⟩, hthrown, rfl⟩
    have hopen : expect '(' ('(' :: s') = .ok ⟨(), s', Nat.lt_succ_self _⟩ := by simp [expect]
    exact ⟨_, hps, _, hopen, _, hts, _, ht, _, hthrown, rfl⟩

theorem readField_eq_ok_iff : readField s = .ok t ↔ (anyType s).Gives t [] := by
  simp only [readField, bind_eq_ok_iff]
  constructor
  · rintro ⟨⟨t', r, hlt⟩, ht, h⟩
    cases r with
    | nil =>
      cases h
      exact ⟨hlt, ht⟩
    | cons c r => cases h
  · rintro ⟨_, ht⟩
    exact ⟨_, ht, rfl⟩

end DslBindings.Signature
