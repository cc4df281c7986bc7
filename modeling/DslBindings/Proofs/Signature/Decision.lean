import DslBindings.Proofs.Signature.Steps

/-!
# The readers of signatures decide the grammar

A signature is read as some value exactly if the grammar derives it with that meaning. The readers
of types go around in a circle, so they are treated together, by induction on the length of the text.
-/

namespace DslBindings.Signature

open Grammar

/--
A loop that reads items until it stops accepts any number of them and then a text where it stops. The
items have to be known only on texts of some length, as the loop is part of a larger recursion.
-/
theorem loop_iff {α : Type} {n : Nat} {item : List Char → α → List Char → Prop}
    {loop : List Char → List α → Prop} {R : List Char → α → Prop} (stop : List Char → Prop)
    (hitem : ∀ s x r, s.length ≤ n → (item s x r ↔ ∃ w, s = w ++ r ∧ R w x))
    (hlt : ∀ s x r, item s x r → r.length < s.length)
    (hloop : ∀ s xs, loop s xs ↔
      (stop s ∧ xs = []) ∨ ∃ x r xs', xs = x :: xs' ∧ item s x r ∧ loop r xs')
    {s : List Char} {xs : List α} (hs : s.length ≤ n) :
    loop s xs ↔ ∃ w r, stop r ∧ s = w ++ r ∧ Many R w xs := by
  induction xs generalizing s with
  | nil =>
    rw [hloop]
    constructor
    · intro h
      obtain ⟨hstop, -⟩ | ⟨x, r, xs', hnil, -⟩ := h
      · exact ⟨[], s, hstop, rfl, .nil⟩
      · cases hnil
    · intro h
      obtain ⟨w, r, hstop, rfl, hmany⟩ := h
      cases hmany
      exact .inl ⟨hstop, rfl⟩
  | cons x xs ih =>
    rw [hloop]
    constructor
    · intro h
      obtain ⟨-, hnil⟩ | ⟨y, r, ys, hcons, hread, hrest⟩ := h
      · cases hnil
      · cases hcons
        have hr : r.length ≤ n := (hlt s x r hread).le.trans hs
        obtain ⟨w, hw, hx⟩ := (hitem s x r hs).mp hread
        obtain ⟨w', r', hstop, hw', hmany⟩ := (ih hr).mp hrest
        exact ⟨w ++ w', r', hstop, by rw [hw, hw', List.append_assoc], .cons hx hmany⟩
    · intro h
      obtain ⟨w, r, hstop, rfl, hmany⟩ := h
      cases hmany with
      | @cons first rest _ _ hx hmany =>
        rw [List.append_assoc] at hs ⊢
        have hread := (hitem _ x (rest ++ r) hs).mpr ⟨first, rfl, hx⟩
        have hr : (rest ++ r).length ≤ n := (hlt _ x _ hread).le.trans hs
        exact .inr ⟨x, rest ++ r, xs, rfl, hread, (ih hr).mpr ⟨rest, r, hstop, rfl, hmany⟩⟩

/-! ### Types -/

/-- A nested part adds its name to the outer one, and its arguments replace the outer ones. -/
theorem classOf_cons (outer part : ClassPart) (inner : List ClassPart) :
    classOf outer (part :: inner) = classOf ⟨outer.name ++ "$" ++ part.name, part.arguments⟩ inner := by
  cases inner <;> rfl

/-- The identifier of a class type ends where its arguments, a nested part or the end begins. -/
theorem head_mem_classStops {a w r : List Char} {ts : List JvmType} {parts : List ClassPart}
    (ha : Arguments a ts) (hw : Many InnerPart w parts) :
    ∀ c ∈ (a ++ (w ++ ';' :: r)).head?, c ∈ classStops := by
  cases ha with
  | some => simp [classStops]
  | none =>
    cases hw with
    | nil => simp [classStops]
    | cons head =>
      cases head
      simp [classStops]

/-- Type arguments are decided where the reference types at their ends are. -/
theorem readsArgument_iff {s r : List Char} {t : JvmType}
    (hreference : ∀ u : List Char, u.length ≤ s.length → ∀ b,
      (reference u).Gives b r ↔ ∃ w, u = w ++ r ∧ Reference w b) :
    ReadsArgument s t r ↔ ∃ w, s = w ++ r ∧ Argument w t := by
  constructor
  · intro h
    obtain ⟨rfl, rfl⟩ | ⟨u, b, rfl, hb, rfl⟩ | ⟨u, b, rfl, hb, rfl⟩ | h := h
    · exact ⟨['*'], rfl, .unbounded⟩
    · obtain ⟨w, rfl, hw⟩ := (hreference u (Nat.le_succ _) b).mp hb
      exact ⟨'+' :: w, rfl, .out hw⟩
    · obtain ⟨w, rfl, hw⟩ := (hreference u (Nat.le_succ _) b).mp hb
      exact ⟨'-' :: w, rfl, .into hw⟩
    · obtain ⟨w, hs, hw⟩ := (hreference s le_rfl t).mp h
      exact ⟨w, hs, .exactly hw⟩
  · intro h
    obtain ⟨w, rfl, hw⟩ := h
    cases hw with
    | unbounded => exact .inl ⟨rfl, rfl⟩
    | @out v b bound =>
      exact .inr (.inl ⟨v ++ r, b, rfl, (hreference _ (Nat.le_succ _) b).mpr ⟨v, rfl, bound⟩, rfl⟩)
    | @into v b bound =>
      exact .inr (.inr (.inl ⟨v ++ r, b, rfl, (hreference _ (Nat.le_succ _) b).mpr ⟨v, rfl, bound⟩, rfl⟩))
    | exactly type => exact .inr (.inr (.inr ((hreference _ le_rfl t).mpr ⟨w, rfl, type⟩)))

-- Each call is on a shorter text, except that `anyType`, `suffix` and `arguments` pass theirs on
-- once; twice the length, and one more for these three, goes down with every call.
mutual

theorem reference_decides (s : List Char) {t : JvmType} {r : List Char} :
    (reference s).Gives t r ↔ ∃ w, s = w ++ r ∧ Reference w t := by
  rw [reference_gives_iff]
  constructor
  · intro h
    obtain ⟨s', name, r', hs, hname, hsuffix⟩ | ⟨s', name, hs, hname, ht⟩ | ⟨s', e, hs, he, ht⟩ := h
    · have hlt : s'.length < s.length := by simp [hs]
      have hpart := (part_decides (Text.replaceChar '/' '.') s').mp ⟨name, r', hname, hsuffix⟩
      obtain ⟨w, part, v, inner, hs', hw, hv, ht⟩ := hpart
      refine ⟨'L' :: (w ++ (v ++ [';'])), by simp [hs, hs'], ?_⟩
      rw [ht]
      exact .ofClass (.intro hw hv)
    · obtain ⟨w, hs', hw, hname, -⟩ := identifier_gives_iff.mp hname
      refine ⟨'T' :: (w ++ [';']), by simp [hs, hs'], ?_⟩
      rw [ht, hname]
      exact .typeVariable hw
    · have hlt : s'.length < s.length := by simp [hs]
      obtain ⟨w, hs', hw⟩ := (anyType_decides s').mp he
      refine ⟨'[' :: w, by simp [hs, hs'], ?_⟩
      rw [ht]
      exact .array hw
  · intro h
    obtain ⟨w, hs, hw⟩ := h
    cases hw with
    | ofClass type =>
      obtain @⟨a, v, outer, inner, first, others⟩ := type
      have hlt : (a ++ (v ++ ';' :: r)).length < s.length := by simp [hs]
      have hpart := (part_decides (Text.replaceChar '/' '.') (a ++ (v ++ ';' :: r))).mpr
        ⟨a, outer, v, inner, rfl, first, others, rfl⟩
      obtain ⟨name, r', hname, hsuffix⟩ := hpart
      exact .inl ⟨_, name, r', by simp [hs], hname, hsuffix⟩
    | @typeVariable name isName =>
      have hname := identifier_gives (r := r) isName (by decide : ';' ∈ [';']) rfl
      exact .inr (.inl ⟨name ++ ';' :: r, String.ofList name, by simp [hs], hname, rfl⟩)
    | @array v e element =>
      have hlt : (v ++ r).length < s.length := by simp [hs]
      have he := (anyType_decides (v ++ r)).mpr ⟨v, rfl, element⟩
      exact .inr (.inr ⟨v ++ r, e, hs, he, rfl⟩)
termination_by 2 * s.length
decreasing_by all_goals omega

theorem anyType_decides (s : List Char) {t : JvmType} {r : List Char} :
    (anyType s).Gives t r ↔ ∃ w, s = w ++ r ∧ AnyType w t := by
  rw [anyType_gives_iff, reference_decides s]
  constructor
  · intro h
    obtain ⟨p, hp, hs, ht⟩ | ⟨w, hs, hw⟩ := h
    · rw [ht]
      exact ⟨[p.descriptor], hs, .base hp⟩
    · exact ⟨w, hs, .reference hw⟩
  · intro h
    obtain ⟨w, hs, hw⟩ := h
    cases hw with
    | base isValue => exact .inl ⟨_, isValue, hs, rfl⟩
    | reference type => exact .inr ⟨w, hs, type⟩
termination_by 2 * s.length + 1

theorem part_decides (f : String → String) (s : List Char) {t : JvmType} {r : List Char} :
    (∃ name r', (identifier classStops s).Gives name r' ∧ (suffix (f name) r').Gives t r) ↔
      ∃ w part v inner, s = w ++ (v ++ ';' :: r) ∧ Grammar.Part w part ∧ Many InnerPart v inner
        ∧ t = classOf ⟨f part.name, part.arguments⟩ inner := by
  constructor
  · intro h
    obtain ⟨name, r', hname, hsuffix⟩ := h
    have hlt := hname.length_lt
    obtain ⟨w, hs, hw, hname, -⟩ := identifier_gives_iff.mp hname
    obtain ⟨a, ts, v, inner, hr', ha, hv, ht⟩ := (suffix_decides r').mp hsuffix
    refine ⟨w ++ a, ⟨name, ts⟩, v, inner, by simp [hs, hr'], ?_, hv, ht⟩
    rw [hname]
    exact .intro hw ha
  · intro h
    obtain ⟨w, part, v, inner, hs, hw, hv, ht⟩ := h
    obtain @⟨name, a, ts, isName, ha⟩ := hw
    rw [List.append_assoc] at hs
    have hname := identifier_gives_iff.mpr
      ⟨name, hs, isName, rfl, head_mem_classStops ha hv⟩
    have hlt := hname.length_lt
    have hsuffix := (suffix_decides (a ++ (v ++ ';' :: r))).mpr ⟨a, ts, v, inner, rfl, ha, hv, ht⟩
    exact ⟨_, _, hname, hsuffix⟩
termination_by 2 * s.length
decreasing_by all_goals omega

theorem suffix_decides (s : List Char) {name : String} {t : JvmType} {r : List Char} :
    (suffix name s).Gives t r ↔
      ∃ a ts w parts, s = a ++ (w ++ ';' :: r) ∧ Arguments a ts ∧ Many InnerPart w parts
        ∧ t = classOf ⟨name, ts⟩ parts := by
  rw [suffix_gives_iff]
  constructor
  · intro h
    obtain ⟨s', ts, r', hs, harguments, hne, hnext⟩ | hnext := h
    · have hlt : s'.length < s.length := by simp [hs]
      have hlt' := harguments.length_lt
      obtain ⟨a, hs', ha⟩ := (arguments_decides s').mp harguments
      obtain ⟨w, parts, hr', hw, ht⟩ := (next_decides r').mp hnext
      exact ⟨'<' :: (a ++ ['>']), ts, w, parts, by simp [hs, hs', hr'], .some ha hne, hw, ht⟩
    · obtain ⟨w, parts, hs, hw, ht⟩ := (next_decides s).mp hnext
      exact ⟨[], [], w, parts, hs, .none, hw, ht⟩
  · intro h
    obtain ⟨a, ts, w, parts, hs, ha, hw, ht⟩ := h
    cases ha with
    | none => exact .inr ((next_decides s).mpr ⟨w, parts, hs, hw, ht⟩)
    | @some v _ hv hne =>
      have hlt : (v ++ '>' :: (w ++ ';' :: r)).length < s.length := by simp [hs]
      have hlt' : (w ++ ';' :: r).length < s.length := by simp [hs]; omega
      have harguments := (arguments_decides (v ++ '>' :: (w ++ ';' :: r))).mpr ⟨v, rfl, hv⟩
      have hnext := (next_decides (w ++ ';' :: r)).mpr ⟨w, parts, rfl, hw, ht⟩
      exact .inl ⟨_, ts, _, by simp [hs], harguments, hne, hnext⟩
termination_by 2 * s.length + 1
decreasing_by all_goals omega

theorem next_decides (s : List Char) {name : String} {ts : List JvmType} {t : JvmType} {r : List Char} :
    (next name ts s).Gives t r ↔
      ∃ w parts, s = w ++ ';' :: r ∧ Many InnerPart w parts ∧ t = classOf ⟨name, ts⟩ parts := by
  rw [next_gives_iff]
  constructor
  · intro h
    obtain ⟨s', inner, r', hs, hinner, hsuffix⟩ | ⟨hs, ht⟩ := h
    · have hlt : s'.length < s.length := by simp [hs]
      have hpart := (part_decides (name ++ "$" ++ ·) s').mp ⟨inner, r', hinner, hsuffix⟩
      obtain ⟨w, part, v, parts, hs', hw, hv, ht⟩ := hpart
      exact ⟨('.' :: w) ++ v, part :: parts, by simp [hs, hs'], .cons (.intro hw) hv,
        ht.trans (classOf_cons ⟨name, ts⟩ part parts).symm⟩
    · exact ⟨[], [], hs, .nil, ht⟩
  · intro h
    obtain ⟨w, parts, hs, hw, ht⟩ := h
    cases hw with
    | nil => exact .inr ⟨hs, ht⟩
    | @cons first v part parts head tail =>
      obtain @⟨u, part, hu⟩ := head
      have hlt : (u ++ (v ++ ';' :: r)).length < s.length := by simp [hs]
      have hpart := (part_decides (name ++ "$" ++ ·) (u ++ (v ++ ';' :: r))).mpr
        ⟨u, part, v, parts, rfl, hu, tail, ht.trans (classOf_cons ⟨name, ts⟩ part parts)⟩
      obtain ⟨inner, r', hinner, hsuffix⟩ := hpart
      exact .inl ⟨_, inner, r', by simp [hs], hinner, hsuffix⟩
termination_by 2 * s.length
decreasing_by all_goals omega

theorem arguments_decides (s : List Char) {ts : List JvmType} {r : List Char} :
    (arguments s).Gives ts r ↔ ∃ w, s = w ++ '>' :: r ∧ Many Argument w ts := by
  have hargument : ∀ u t r', u.length ≤ s.length →
      (ReadsArgument u t r' ↔ ∃ w, u = w ++ r' ∧ Argument w t) := by
    intro u t r' hu
    exact readsArgument_iff fun v hv b => reference_decides v
  refine (loop_iff (· = '>' :: r) hargument (fun _ _ _ => ReadsArgument.length_lt)
    (fun _ _ => arguments_gives_iff) le_rfl).trans ?_
  simp only [exists_eq_left]
termination_by 2 * s.length + 1

end

/-! ### Type parameters -/

theorem interfaceBounds_decides {s r : List Char} {ts : List JvmType} :
    GivesBounds (interfaceBounds s) ts r ↔
      (∀ s', r ≠ ':' :: s') ∧ ∃ w, s = w ++ r ∧ Many InterfaceBound w ts := by
  have hitem : ∀ u t r', u.length ≤ s.length →
      ((∃ u', u = ':' :: u' ∧ (reference u').Gives t r') ↔ ∃ w, u = w ++ r' ∧ InterfaceBound w t) := by
    intro u t r' _
    constructor
    · intro h
      obtain ⟨u', rfl, ht⟩ := h
      obtain ⟨w, rfl, hw⟩ := (reference_decides u').mp ht
      exact ⟨':' :: w, rfl, .intro hw⟩
    · intro h
      obtain ⟨w, rfl, hw⟩ := h
      obtain @⟨v, _, hv⟩ := hw
      exact ⟨v ++ r', rfl, (reference_decides (v ++ r')).mpr ⟨v, rfl, hv⟩⟩
  have hlt : ∀ u t r', (∃ u', u = ':' :: u' ∧ (reference u').Gives t r') → r'.length < u.length := by
    intro u t r' h
    obtain ⟨u', rfl, ht⟩ := h
    exact Nat.lt_succ_of_lt ht.length_lt
  have hloop : ∀ u us, GivesBounds (interfaceBounds u) us r ↔
      (((∀ u', u ≠ ':' :: u') ∧ u = r) ∧ us = [])
      ∨ ∃ t r' us', us = t :: us' ∧ (∃ u', u = ':' :: u' ∧ (reference u').Gives t r')
        ∧ GivesBounds (interfaceBounds r') us' r := by
    intro u us
    rw [interfaceBounds_gives_iff]
    grind
  rw [loop_iff _ hitem hlt hloop le_rfl]
  grind

theorem firstBound_eq_headD (ts : List JvmType) : firstBound ts = ts.headD .object := by
  cases ts <;> rfl

theorem lacksClassBound_iff {s : List Char} :
    lacksClassBound s = true ↔ s.head? ∈ [some ':', some '>'] := by
  cases s with
  | nil => simp [lacksClassBound]
  | cons c s =>
    unfold lacksClassBound
    split <;> simp_all

theorem typeParameter_decides {s r : List Char} {p : TypeParameter} :
    (typeParameter s).Gives p r ↔
      (∀ s', r ≠ ':' :: s') ∧ ∃ w, s = w ++ r ∧ Declaration w p r := by
  rw [typeParameter_gives_iff]
  constructor
  · intro h
    obtain ⟨name, s', ts, hname, hbounds, rfl⟩ := h
    obtain ⟨v, rfl, hv, rfl, -⟩ := identifier_gives_iff.mp hname
    rw [firstBound_eq_headD]
    obtain ⟨hlacks, hbounds⟩ | ⟨t, r', ts, rfl, ht, hbounds⟩ := bounds_gives_iff.mp hbounds
    · obtain ⟨hr, w, rfl, hw⟩ := interfaceBounds_decides.mp hbounds
      exact ⟨hr, v ++ ':' :: w, by simp, .noClassBound hv hw (lacksClassBound_iff.mp hlacks)⟩
    · obtain ⟨hr, w, rfl, hw⟩ := interfaceBounds_decides.mp hbounds
      obtain ⟨u, rfl, hu⟩ := (reference_decides s').mp ht
      exact ⟨hr, v ++ ':' :: (u ++ w), by simp, .classBound hv hu hw⟩
  · intro h
    obtain ⟨hr, w, rfl, hw⟩ := h
    cases hw with
    | @classBound name u v _ t ts isName bound bounds =>
      have hname := identifier_gives (r := u ++ (v ++ r)) isName (by decide : ':' ∈ [':', '>'])
        (by simp : name ++ ':' :: (u ++ v) ++ r = _)
      have ht := (reference_decides (u ++ (v ++ r))).mpr ⟨u, rfl, bound⟩
      have hts := interfaceBounds_decides.mpr ⟨hr, v, rfl, bounds⟩
      have hbounds := bounds_gives_iff.mpr (.inr ⟨t, v ++ r, ts, rfl, ht, hts⟩)
      exact ⟨_, _, _, hname, hbounds, rfl⟩
    | @noClassBound name v _ ts isName bounds isNext =>
      have hname := identifier_gives (r := v ++ r) isName (by decide : ':' ∈ [':', '>'])
        (by simp : name ++ ':' :: v ++ r = _)
      have hts := interfaceBounds_decides.mpr ⟨hr, v, rfl, bounds⟩
      have hbounds := bounds_gives_iff.mpr (.inl ⟨lacksClassBound_iff.mpr isNext, hts⟩)
      exact ⟨_, _, _, hname, hbounds, by rw [firstBound_eq_headD]⟩

/-- Of what stands behind a declaration, only the first character matters. -/
theorem declaration_of_head? {w b b' : List Char} {p : TypeParameter} (h : Declaration w p b)
    (hb : b.head? = b'.head?) : Declaration w p b' := by
  cases h with
  | classBound isName bound bounds => exact .classBound isName bound bounds
  | noClassBound isName bounds isNext =>
    refine .noClassBound isName bounds ?_
    rwa [List.head?_append, ← hb, ← List.head?_append]

theorem Grammar.IsIdentifier.exists_cons {w : List Char} (h : IsIdentifier [':', '>'] w) :
    ∃ c w', w = c :: w' ∧ c ≠ ':' := by
  obtain ⟨c, w', rfl⟩ := List.exists_cons_of_ne_nil h.ne_nil
  refine ⟨c, w', rfl, ?_⟩
  rintro rfl
  exact h.notMem_stops ':' List.mem_cons_self List.mem_cons_self

/-- Declarations start with a name or with the end of their list. -/
theorem exists_cons_of_declarations {w : List Char} {ps : List TypeParameter}
    (h : Declarations w ps) : ∃ c w', w = c :: w' ∧ c ≠ ':' := by
  cases h with
  | close => exact ⟨'>', [], rfl, by decide⟩
  | cons head tail =>
    cases head with
    | classBound isName bound bounds =>
      obtain ⟨c, name, rfl, hc⟩ := isName.exists_cons
      exact ⟨c, _, rfl, hc⟩
    | noClassBound isName bounds isNext =>
      obtain ⟨c, name, rfl, hc⟩ := isName.exists_cons
      exact ⟨c, _, rfl, hc⟩

theorem typeParametersToEnd_decides {s r : List Char} {ps : List TypeParameter} :
    (typeParametersToEnd s).Gives ps r ↔ ∃ w, s = w ++ r ∧ Declarations w ps := by
  induction ps generalizing s with
  | nil =>
    rw [typeParametersToEnd_gives_iff]
    constructor
    · intro h
      obtain ⟨rfl, -⟩ | ⟨p, r', ps', hnil, -⟩ := h
      · exact ⟨['>'], rfl, .close⟩
      · cases hnil
    · intro h
      obtain ⟨w, rfl, hw⟩ := h
      cases hw
      exact .inl ⟨rfl, rfl⟩
  | cons p ps ih =>
    rw [typeParametersToEnd_gives_iff]
    constructor
    · intro h
      obtain ⟨-, hnil⟩ | ⟨p', r', ps', hcons, hp, hps⟩ := h
      · cases hnil
      · cases hcons
        obtain ⟨-, v, rfl, hv⟩ := typeParameter_decides.mp hp
        obtain ⟨w, rfl, hw⟩ := ih.mp hps
        -- The declaration was read in front of `r`, but only the first character there matters.
        obtain ⟨c, w', rfl, -⟩ := exists_cons_of_declarations hw
        exact ⟨v ++ c :: w', (List.append_assoc ..).symm, .cons (declaration_of_head? hv rfl) hw⟩
    · intro h
      obtain ⟨w, rfl, hw⟩ := h
      cases hw with
      | @cons v b _ _ head tail =>
        obtain ⟨c, b', rfl, hc⟩ := exists_cons_of_declarations tail
        have hp : (typeParameter (v ++ c :: b' ++ r)).Gives p (c :: b' ++ r) := by
          refine typeParameter_decides.mpr ⟨?_, v, List.append_assoc .., declaration_of_head? head rfl⟩
          intro s' hs
          exact hc (List.cons.inj hs).1
        exact .inr ⟨p, c :: b' ++ r, ps, rfl, hp, ih.mpr ⟨c :: b', rfl, tail⟩⟩

theorem typeParameters_decides {s r : List Char} {ps : List TypeParameter} (hr : ∀ s', r ≠ '<' :: s') :
    typeParameters s = .ok (ps, r) ↔ ∃ w, s = w ++ r ∧ TypeParameters w ps := by
  rw [typeParameters_eq_ok_iff]
  constructor
  · intro h
    obtain ⟨s', rfl, hps, hne⟩ | ⟨-, rfl, rfl⟩ := h
    · obtain ⟨w, rfl, hw⟩ := typeParametersToEnd_decides.mp hps
      exact ⟨'<' :: w, rfl, .some hw hne⟩
    · exact ⟨[], rfl, .none⟩
  · intro h
    obtain ⟨w, rfl, hw⟩ := h
    cases hw with
    | none => exact .inr ⟨hr, rfl, rfl⟩
    | @some v _ declarations ne_nil =>
      exact .inl ⟨v ++ r, rfl, typeParametersToEnd_decides.mpr ⟨v, rfl, declarations⟩, ne_nil⟩

/-! ### Signatures -/

theorem returnType_decides {s r : List Char} {t : JvmType} :
    (returnType s).Gives t r ↔ ∃ w, s = w ++ r ∧ Returned w t := by
  rw [returnType_gives_iff, anyType_decides s]
  constructor
  · intro h
    obtain ⟨rfl, rfl⟩ | ⟨w, rfl, hw⟩ := h
    · exact ⟨['V'], rfl, .void⟩
    · exact ⟨w, rfl, .value hw⟩
  · intro h
    obtain ⟨w, rfl, hw⟩ := h
    cases hw with
    | void => exact .inl ⟨rfl, rfl⟩
    | value type => exact .inr ⟨w, rfl, type⟩

theorem parametersToEnd_decides {s r : List Char} {ts : List JvmType} :
    (parametersToEnd s).Gives ts r ↔ ∃ w, s = w ++ ')' :: r ∧ Many AnyType w ts := by
  have hitem : ∀ u t r', u.length ≤ s.length →
      ((anyType u).Gives t r' ↔ ∃ w, u = w ++ r' ∧ AnyType w t) := by
    intro u _ _ _
    exact anyType_decides u
  refine (loop_iff (· = ')' :: r) hitem (fun _ _ _ h => h.length_lt)
    (fun _ _ => parametersToEnd_gives_iff) le_rfl).trans ?_
  simp only [exists_eq_left]

theorem thrownToEnd_decides {s : List Char} :
    thrownToEnd s = .ok () ↔ ∃ ts, Many Thrown s ts := by
  constructor
  · intro h
    induction hn : s.length using Nat.strong_induction_on generalizing s with
    | _ n ih =>
      obtain rfl | ⟨s', t, r, rfl, ht, hrest⟩ := thrownToEnd_eq_ok_iff.mp h
      · exact ⟨[], .nil⟩
      · have hlt : r.length < n := by
          rw [← hn]
          exact Nat.lt_succ_of_lt ht.length_lt
        obtain ⟨w, rfl, hw⟩ := (reference_decides s').mp ht
        obtain ⟨ts, hts⟩ := ih r.length hlt hrest rfl
        exact ⟨t :: ts, .cons (.intro hw) hts⟩
  · intro h
    obtain ⟨ts, h⟩ := h
    induction h with
    | nil => exact thrownToEnd_eq_ok_iff.mpr (.inl rfl)
    | @cons first rest t ts head tail ih =>
      obtain @⟨w, _, hw⟩ := head
      have ht := (reference_decides (w ++ rest)).mpr ⟨w, rfl, hw⟩
      exact thrownToEnd_eq_ok_iff.mpr (.inr ⟨w ++ rest, t, rest, rfl, ht, ih⟩)

theorem classReference_decides {s r : List Char} {t : JvmType} :
    (classReference s).Gives t r ↔ ∃ w, s = w ++ r ∧ ClassType w t := by
  rw [classReference_gives_iff]
  constructor
  · intro h
    obtain ⟨s', hs, ht⟩ := h
    obtain ⟨w, hw, ht⟩ := (reference_decides s).mp ht
    cases ht with
    | ofClass type => exact ⟨w, hw, type⟩
    | typeVariable => simp [hs] at hw
    | array => simp [hs] at hw
  · intro h
    obtain ⟨w, rfl, hw⟩ := h
    have ht := (reference_decides (w ++ r)).mpr ⟨w, rfl, .ofClass hw⟩
    cases hw
    exact ⟨_, rfl, ht⟩

theorem classType_append_ne {w r : List Char} {t : JvmType} (h : ClassType w t) :
    ∀ s', w ++ r ≠ '<' :: s' := by
  cases h
  simp

theorem interfacesToEnd_decides {s : List Char} {ts : List JvmType} :
    interfacesToEnd s = .ok ts ↔ Many ClassType s ts := by
  have hitem : ∀ u t r, u.length ≤ s.length →
      ((classReference u).Gives t r ↔ ∃ w, u = w ++ r ∧ ClassType w t) := by
    intro u _ _ _
    exact classReference_decides
  have hloop : ∀ u us, interfacesToEnd u = .ok us ↔ (u = [] ∧ us = []) ∨
      ∃ t r us', us = t :: us' ∧ (classReference u).Gives t r ∧ interfacesToEnd r = .ok us' := by
    intro u us
    exact interfacesToEnd_eq_ok_iff
  rw [loop_iff (· = []) hitem (fun _ _ _ h => h.length_lt) hloop le_rfl]
  simp only [exists_eq_left, List.append_nil, exists_eq_left']

theorem readField_decides {s : List Char} {t : JvmType} : readField s = .ok t ↔ Field s t := by
  rw [readField_eq_ok_iff, anyType_decides s]
  simp only [List.append_nil, exists_eq_left']

theorem readMethod_decides {s : List Char} {signature : MethodSignature} :
    readMethod s = .ok signature ↔ Method s signature := by
  rw [readMethod_eq_ok_iff]
  constructor
  · intro h
    obtain ⟨ps, s', ts, r, t, r', hps, hts, ht, hthrown, rfl⟩ := h
    obtain ⟨a, rfl, ha⟩ := (typeParameters_decides (by simp)).mp hps
    obtain ⟨b, rfl, hb⟩ := parametersToEnd_decides.mp hts
    obtain ⟨c, rfl, hc⟩ := returnType_decides.mp ht
    obtain ⟨thrown, hd⟩ := thrownToEnd_decides.mp hthrown
    exact .intro ha hb hc hd
  · intro h
    cases h with
    | @intro a b c d ps ts thrown t typeParameters parameters returned throws =>
      have hps := (typeParameters_decides (r := '(' :: (b ++ ')' :: (c ++ d))) (by simp)).mpr
        ⟨a, rfl, typeParameters⟩
      exact ⟨ps, _, ts, _, t, d, hps, parametersToEnd_decides.mpr ⟨b, rfl, parameters⟩,
        returnType_decides.mpr ⟨c, rfl, returned⟩, thrownToEnd_decides.mpr ⟨thrown, throws⟩, rfl⟩

theorem readClass_decides {s : List Char} {signature : ClassSignature} :
    readClass s = .ok signature ↔ Class s signature := by
  rw [readClass_eq_ok_iff]
  constructor
  · intro h
    obtain ⟨ps, r, t, r', ts, hps, ht, hts, rfl⟩ := h
    obtain ⟨b, rfl, hb⟩ := classReference_decides.mp ht
    obtain ⟨a, rfl, ha⟩ := (typeParameters_decides (classType_append_ne hb)).mp hps
    exact .intro ha hb (interfacesToEnd_decides.mp hts)
  · intro h
    cases h with
    | @intro a b c ps t ts typeParameters superClass interfaces =>
      have hps := (typeParameters_decides (classType_append_ne (r := c) superClass)).mpr
        ⟨a, rfl, typeParameters⟩
      exact ⟨ps, b ++ c, t, c, ts, hps, classReference_decides.mpr ⟨b, rfl, superClass⟩,
        interfacesToEnd_decides.mpr interfaces, rfl⟩

theorem parse_eq_ok_iff {α : Type} {read : List Char → Except Failure α} {text : String} {value : α} :
    parse read text = .ok value ↔ read text.toList = .ok value := by
  unfold parse
  split <;> simp_all

/--
The texts that are read as signatures of fields, methods and classes are those that the grammar
derives, and each is read as what it means.
-/
theorem parsers_decide_grammar (text : String) :
    (∀ t, JvmType.parse text = .ok t ↔ Field text.toList t)
    ∧ (∀ signature, MethodSignature.parse text = .ok signature ↔ Method text.toList signature)
    ∧ ∀ signature, ClassSignature.parse text = .ok signature ↔ Class text.toList signature :=
  ⟨fun _ => parse_eq_ok_iff.trans readField_decides, fun _ => parse_eq_ok_iff.trans readMethod_decides,
    fun _ => parse_eq_ok_iff.trans readClass_decides⟩

end DslBindings.Signature
