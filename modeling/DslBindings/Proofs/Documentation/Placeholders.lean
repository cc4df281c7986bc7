import Mathlib.Data.List.Basic
import Mathlib.Data.List.Infix
import DslBindings.Documentation

/-!
# Placeholders

A placeholder has one brace at its start and one at its end. So two of them never overlap, and a scan
that is at the start of one knows which it is. `substitute` replaces all placeholders of a text in one
pass.

A link stands in square brackets, which no placeholder has. So nothing that is put into a link makes a
placeholder together with what stands around it, and a pass that follows another one can be moved into
the links of the first: `substitute_substitute`.
-/

namespace DslBindings.Documentation

/-! ### Placeholders -/

/-- Characters that no placeholder has behind its first one. -/
def edges : List Char := ['\x7b', '[', ']']

theorem placeholder_eq (i : Nat) : placeholder i = '\x7b' :: (Nat.toDigits 10 i ++ ['\x7d']) := by
  rw [placeholder, Nat.toString_eq_repr, Nat.toList_repr]

/-- What stands behind the opening brace of a placeholder. -/
theorem mem_tail_placeholder {i : Nat} {c : Char} (h : c ∈ (placeholder i).tail) :
    c.isDigit = true ∨ c = '\x7d' := by
  rw [placeholder_eq, List.tail_cons, List.mem_append, List.mem_singleton] at h
  exact h.imp_left (Nat.isDigit_of_mem_toDigits (by decide) (by decide))

theorem not_mem_tail_placeholder {c : Char} (hc : c ∈ edges) (i : Nat) :
    c ∉ (placeholder i).tail := by
  intro h
  simp only [edges, List.mem_cons, List.not_mem_nil, or_false] at hc
  obtain rfl | rfl | rfl := hc <;> exact absurd (mem_tail_placeholder h) (by decide)

theorem not_mem_placeholder {c : Char} (hc : c ∈ ['[', ']']) (i : Nat) : c ∉ placeholder i := by
  have htail := not_mem_tail_placeholder (List.mem_cons_of_mem _ hc) i
  rw [placeholder_eq, List.tail_cons] at htail
  rw [placeholder_eq, List.mem_cons]
  rintro (rfl | h)
  · exact absurd hc (by decide)
  · exact htail h

/-- A placeholder ends at its closing brace, so two that start at one place are the same. -/
theorem eq_of_prefix_placeholder {i j : Nat} {rest : List Char}
    (h : placeholder i <+: placeholder j ++ rest) : i = j := by
  have hdigits : ∀ k more, (Nat.toDigits 10 k ++ '\x7d' :: more).takeWhile Char.isDigit
      = Nat.toDigits 10 k := by
    intro k more
    rw [List.takeWhile_append_of_pos fun c => Nat.isDigit_of_mem_toDigits (by decide) (by decide)]
    exact List.append_nil _
  obtain ⟨more, hmore⟩ := h
  simp only [placeholder_eq, List.cons_append, List.append_assoc, List.nil_append,
    List.cons.injEq, true_and] at hmore
  have hsame := congrArg (List.takeWhile Char.isDigit) hmore
  rw [hdigits, hdigits] at hsame
  calc i = Nat.ofDigitChars 10 (Nat.toDigits 10 i) 0 := Nat.ofDigitChars_ten_toDigits.symm
    _ = Nat.ofDigitChars 10 (Nat.toDigits 10 j) 0 := by rw [hsame]
    _ = j := Nat.ofDigitChars_ten_toDigits

/-! ### One pass -/

/-- Scans a text with `skip` characters of a placeholder still to be passed over. -/
def substituteFrom (links : List (Nat × List Char)) : (skip : Nat) → (text : List Char) → List Char
  | _, [] => []
  | skip + 1, _ :: cs => substituteFrom links skip cs
  | 0, c :: cs =>
    match links.find? fun (i, _) => (placeholder i).isPrefixOf (c :: cs) with
    | some (i, written) => written ++ substituteFrom links ((placeholder i).length - 1) cs
    | none => c :: substituteFrom links 0 cs

/-- The text in which, in one pass from left to right, what goes with an index is written for its
placeholder. All else is copied, and what is written is not searched. -/
def substitute (links : List (Nat × List Char)) (text : List Char) : List Char :=
  substituteFrom links 0 text

/-- The text with links to these parameters, all put in by one pass. -/
def expandAtOnce (d : Documentation) (parameters : List String) : String :=
  String.ofList (substitute (parameters.mapIdx fun i name => (i, link name)) d.text.toList)

variable {links : List (Nat × List Char)}

theorem substituteFrom_length (links : List (Nat × List Char)) (front rest : List Char) :
    substituteFrom links front.length (front ++ rest) = substitute links rest := by
  induction front with
  | nil => rfl
  | cons c front ih => exact ih

/-- The first of the links whose placeholder a text starts with. -/
theorem find?_placeholder {i : Nat} {written : List Char} (h : links.lookup i = some written)
    (rest : List Char) :
    links.find? (fun (j, _) => (placeholder j).isPrefixOf (placeholder i ++ rest))
      = some (i, written) := by
  obtain ⟨front, back, rfl, hfront⟩ := List.lookup_eq_some_iff.mp h
  rw [List.find?_eq_some_iff_append]
  refine ⟨List.isPrefixOf_iff_prefix.mpr (List.prefix_append _ _), front, back, rfl, ?_⟩
  intro l hl
  rw [Bool.not_eq_true', Bool.eq_false_iff, ne_eq, List.isPrefixOf_iff_prefix]
  intro hprefix
  exact (bne_iff_ne.mp (hfront l hl)) (eq_of_prefix_placeholder hprefix).symm

theorem substitute_placeholder {i : Nat} {written : List Char} (h : links.lookup i = some written)
    (rest : List Char) :
    substitute links (placeholder i ++ rest) = written ++ substitute links rest := by
  have hfind := find?_placeholder h rest
  rw [placeholder_eq, List.cons_append] at hfind ⊢
  rw [substitute, substituteFrom, hfind]
  simp only [placeholder_eq, List.length_cons, Nat.add_sub_cancel]
  rw [substituteFrom_length]

theorem substitute_cons {c : Char} {cs : List Char}
    (h : ∀ i written, links.lookup i = some written → ¬ placeholder i <+: c :: cs) :
    substitute links (c :: cs) = c :: substitute links cs := by
  have hfind : links.find? (fun (i, _) => (placeholder i).isPrefixOf (c :: cs)) = none := by
    rw [List.find?_eq_none]
    intro l hl
    rw [List.isPrefixOf_iff_prefix]
    obtain ⟨written, hwritten⟩ := Option.isSome_iff_exists.mp
      (List.lookup_isSome_iff.mpr ⟨l, hl, beq_self_eq_true l.1⟩)
    exact h l.1 written hwritten
  rw [substitute, substituteFrom, hfind]
  rfl

/-- How a pass goes over a text. -/
theorem substitute_induction {motive : List Char → Prop} (links : List (Nat × List Char))
    (nil : motive [])
    (link : ∀ i written rest, links.lookup i = some written → motive rest →
      motive (placeholder i ++ rest))
    (copy : ∀ c cs, (∀ i written, links.lookup i = some written → ¬ placeholder i <+: c :: cs) →
      motive cs → motive (c :: cs))
    (text : List Char) : motive text := by
  match text with
  | [] => exact nil
  | c :: cs =>
    by_cases hstart : ∃ i written, links.lookup i = some written ∧ placeholder i <+: c :: cs
    · obtain ⟨i, written, hwritten, rest, hrest⟩ := hstart
      have hlength : rest.length < (c :: cs).length := by
        rw [← hrest, placeholder_eq, List.length_append, List.length_cons]
        omega
      rw [← hrest]
      exact link i written rest hwritten (substitute_induction links nil link copy rest)
    · have hnone : ∀ i written, links.lookup i = some written → ¬ placeholder i <+: c :: cs :=
        fun i written hwritten hprefix => hstart ⟨i, written, hwritten, hprefix⟩
      exact copy c cs hnone (substitute_induction links nil link copy cs)
termination_by text.length
decreasing_by
  · exact hlength
  · exact Nat.lt_succ_self _

theorem prefix_of_append_cons {w text rest : List Char} {c : Char} (hc : c ∉ w)
    (h : w <+: text ++ c :: rest) : w <+: text := by
  induction w generalizing text with
  | nil => exact List.nil_prefix
  | cons d w ih =>
    cases text with
    | nil => exact absurd (List.cons_prefix_cons.mp h).1.symm (List.ne_of_not_mem_cons hc)
    | cons e text =>
      obtain ⟨rfl, htail⟩ := List.cons_prefix_cons.mp h
      exact List.cons_prefix_cons.mpr ⟨rfl, ih (List.not_mem_of_not_mem_cons hc) htail⟩

/-- A placeholder that starts in a text does not reach over a brace that opens, or over a bracket. -/
theorem placeholder_prefix_cons {i : Nat} {c d : Char} {cs rest : List Char}
    (hd : d ∈ edges) (h : placeholder i <+: c :: cs ++ d :: rest) :
    placeholder i <+: c :: cs := by
  have htail := not_mem_tail_placeholder hd i
  rw [placeholder_eq, List.tail_cons] at htail
  rw [placeholder_eq, List.cons_append, List.cons_prefix_cons] at h
  rw [placeholder_eq, List.cons_prefix_cons]
  exact ⟨h.1, prefix_of_append_cons htail h.2⟩

theorem substitute_append {c : Char} (hc : c ∈ edges) (text rest : List Char) :
    substitute links (text ++ c :: rest) = substitute links text ++ substitute links (c :: rest) := by
  induction text using substitute_induction links with
  | nil => rfl
  | link i written text h ih =>
    rw [List.append_assoc, substitute_placeholder h, substitute_placeholder h, ih, List.append_assoc]
  | copy d ds h ih =>
    have hlong : ∀ i written, links.lookup i = some written →
        ¬ placeholder i <+: d :: (ds ++ c :: rest) :=
      fun i written hi hprefix => h i written hi (placeholder_prefix_cons hc hprefix)
    rw [List.cons_append, substitute_cons hlong, substitute_cons h, ih, List.cons_append]

theorem substitute_cons_of_ne {c : Char} (hc : c ≠ '\x7b') (cs : List Char) :
    substitute links (c :: cs) = c :: substitute links cs := by
  refine substitute_cons fun i written _ hprefix => ?_
  rw [placeholder_eq, List.cons_prefix_cons] at hprefix
  exact hc hprefix.1.symm

/-- What stands behind a link is not in reach of what is put into the link. -/
theorem substitute_link_append (name : String) (rest : List Char) :
    substitute links (link name ++ rest)
      = substitute links (link name) ++ substitute links rest := by
  have hlink : link name = '[' :: name.toList ++ [']'] := rfl
  rw [hlink, List.append_assoc, List.singleton_append, substitute_append (by decide),
    substitute_append (by decide), substitute_cons_of_ne (by decide) rest,
    substitute_cons_of_ne (by decide) [], List.append_assoc]
  rfl

/-- Another placeholder is copied. -/
theorem substitute_other {i : Nat} (h : links.lookup i = none) (rest : List Char) :
    substitute links (placeholder i ++ rest) = placeholder i ++ substitute links rest := by
  have hcopied : ∀ w : List Char, '\x7b' ∉ w →
      substitute links (w ++ rest) = w ++ substitute links rest := by
    intro w hw
    induction w with
    | nil => rfl
    | cons c w ih =>
      rw [List.cons_append, substitute_cons_of_ne (List.ne_of_not_mem_cons hw).symm,
        ih (List.not_mem_of_not_mem_cons hw), List.cons_append]
  have hnone : ∀ j written, links.lookup j = some written →
      ¬ placeholder j <+: placeholder i ++ rest := by
    intro j written hj hprefix
    rw [eq_of_prefix_placeholder hprefix, h] at hj
    cases hj
  have htail := not_mem_tail_placeholder (c := '\x7b') (by decide) i
  rw [placeholder_eq, List.cons_append] at hnone ⊢
  rw [placeholder_eq, List.tail_cons] at htail
  rw [substitute_cons hnone, hcopied _ htail, List.cons_append]

/-! ### One pass after another -/

theorem replaceAll_eq_substitute (i : Nat) (written text : List Char) :
    Text.replaceAll (placeholder i) written text = substitute [(i, written)] text := by
  have hscan : ∀ skip, Text.replaceFrom (placeholder i) written skip text
      = substituteFrom [(i, written)] skip text := by
    induction text with
    | nil =>
      intro skip
      cases skip <;> rfl
    | cons c cs ih =>
      intro skip
      cases skip with
      | succ skip => exact ih skip
      | zero =>
        rw [Text.replaceFrom, substituteFrom, ih, ih]
        cases hstart : (placeholder i).isPrefixOf (c :: cs) <;> simp [hstart]
  exact hscan 0

theorem lookup_cons_of_ne {i j : Nat} (h : j ≠ i) (written : List Char) :
    ((i, written) :: links).lookup j = links.lookup j := by
  rw [List.lookup_cons, beq_false_of_ne h]

theorem lookup_singleton_eq_some {i j : Nat} {written s : List Char}
    (h : [(i, written)].lookup j = some s) : j = i ∧ s = written := by
  rw [List.lookup_cons] at h
  split at h
  · next hj => exact ⟨beq_iff_eq.mp hj, (Option.some.inj h).symm⟩
  · cases h

/-- A pass writes no placeholder across the edge of a link. -/
theorem prefix_of_prefix_substitute {i : Nat} {name : String} {w text : List Char} (hw : '[' ∉ w)
    (h : w <+: substitute [(i, link name)] text) : w <+: text := by
  induction text using substitute_induction [(i, link name)] generalizing w with
  | nil => exact h
  | link j written rest hj ih =>
    obtain ⟨rfl, rfl⟩ := lookup_singleton_eq_some hj
    rw [substitute_placeholder hj] at h
    cases w with
    | nil => exact List.nil_prefix
    | cons c w =>
      have hc : c = '[' := (List.cons_prefix_cons.mp h).1
      exact absurd (hc ▸ List.mem_cons_self) hw
  | copy c cs hnone ih =>
    rw [substitute_cons hnone] at h
    cases w with
    | nil => exact List.nil_prefix
    | cons d w =>
      obtain ⟨rfl, htail⟩ := List.cons_prefix_cons.mp h
      exact List.cons_prefix_cons.mpr ⟨rfl, ih (List.not_mem_of_not_mem_cons hw) htail⟩

/-- A pass behind another one is one pass that writes the links of the first as the second leaves
them. -/
theorem substitute_substitute (links : List (Nat × List Char)) (i : Nat) (name : String)
    (text : List Char) :
    substitute links (substitute [(i, link name)] text)
      = substitute ((i, substitute links (link name)) :: links) text := by
  induction text using substitute_induction ((i, substitute links (link name)) :: links) with
  | nil => rfl
  | link j written rest hj ih =>
    rw [substitute_placeholder hj, ← ih]
    by_cases hji : j = i
    · subst j
      rw [List.lookup_cons_self] at hj
      cases hj
      rw [substitute_placeholder List.lookup_cons_self, substitute_link_append]
    · have hother : [(i, link name)].lookup j = none := lookup_cons_of_ne hji _
      rw [lookup_cons_of_ne hji] at hj
      rw [substitute_other hother, substitute_placeholder hj]
  | copy c cs hnone ih =>
    have hfirst : ∀ j written, [(i, link name)].lookup j = some written →
        ¬ placeholder j <+: c :: cs := by
      intro j written hj
      obtain ⟨rfl, -⟩ := lookup_singleton_eq_some hj
      exact hnone j _ List.lookup_cons_self
    -- Nothing starts here for the second pass either: it would start in the text already.
    have hsecond : ∀ j written, links.lookup j = some written →
        ¬ placeholder j <+: c :: substitute [(i, link name)] cs := by
      intro j written hj hprefix
      have hfirst' : placeholder j <+: c :: cs := by
        rw [← substitute_cons hfirst] at hprefix
        exact prefix_of_prefix_substitute (not_mem_placeholder (by decide) j) hprefix
      by_cases hji : j = i
      · subst j
        exact hnone i _ List.lookup_cons_self hfirst'
      · refine hnone j written ?_ hfirst'
        rwa [lookup_cons_of_ne hji]
    rw [substitute_cons hfirst, substitute_cons hsecond, substitute_cons hnone, ih]

end DslBindings.Documentation
