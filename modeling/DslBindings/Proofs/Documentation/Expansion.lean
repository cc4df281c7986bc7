import DslBindings.Naming
import DslBindings.Proofs.Documentation.Placeholders

/-!
# Links to parameters

The links are put into a documentation in rounds, one for each parameter, and each round goes over all
that the rounds before it have written. A round therefore also replaces a placeholder that stands in a
name. Whether the outcome is still that of one pass can be told by counting opening brackets: each link
brings one, and a placeholder that is replaced takes none away.
-/

namespace DslBindings.Documentation

variable {links links' : List (Nat × List Char)}

/-! ### What a pass leaves alone -/

theorem substitute_eq_self {text : List Char}
    (h : ∀ i written, links.lookup i = some written → ¬ placeholder i <:+: text) :
    substitute links text = text := by
  induction text using substitute_induction links with
  | nil => rfl
  | link i written rest hi ih => exact absurd (List.prefix_append _ _).isInfix (h i written hi)
  | copy c cs hnone ih =>
    rw [substitute_cons hnone, ih]
    exact fun i written hi hoccurs => h i written hi (List.infix_cons hoccurs)

theorem substitute_split {i : Nat} {written : List Char} (h : links.lookup i = some written)
    (front rest : List Char) :
    substitute links (front ++ placeholder i ++ rest)
      = substitute links front ++ written ++ substitute links rest := by
  rw [List.append_assoc, List.append_assoc, ← substitute_placeholder h, placeholder_eq,
    List.cons_append, substitute_append (by decide)]

theorem count_placeholder (i : Nat) : (placeholder i).count '[' = 0 :=
  List.count_eq_zero_of_not_mem (not_mem_placeholder (by decide) i)

theorem count_le_count_substitute (links : List (Nat × List Char)) (text : List Char) :
    text.count '[' ≤ (substitute links text).count '[' := by
  induction text using substitute_induction links with
  | nil => exact le_rfl
  | link i written rest hi ih =>
    rw [substitute_placeholder hi, List.count_append, List.count_append, count_placeholder]
    omega
  | copy c cs hnone ih =>
    rw [substitute_cons hnone, List.count_cons, List.count_cons]
    omega

theorem count_lt_count_substitute {i : Nat} {written text : List Char}
    (h : links.lookup i = some written) (hwritten : '[' ∈ written)
    (hoccurs : placeholder i <:+: text) : text.count '[' < (substitute links text).count '[' := by
  obtain ⟨front, rest, rfl⟩ := hoccurs
  have hpos := List.count_pos_iff.mpr hwritten
  have hfront := count_le_count_substitute links front
  have hrest := count_le_count_substitute links rest
  rw [substitute_split h]
  simp only [List.count_append, count_placeholder]
  omega

/-- Two passes over one text, the second of which may write more brackets. -/
structure WritesMore (links links' : List (Nat × List Char)) : Prop where
  none_iff : ∀ i, links.lookup i = none ↔ links'.lookup i = none
  eq_or_lt : ∀ {i written written'}, links.lookup i = some written →
    links'.lookup i = some written' → written = written' ∨ written.count '[' < written'.count '['

theorem WritesMore.exists_lookup (h : WritesMore links links') {i : Nat} {written : List Char}
    (hi : links.lookup i = some written) : ∃ written', links'.lookup i = some written' := by
  rw [← Option.ne_none_iff_exists', ne_eq, ← h.none_iff, hi]
  exact Option.some_ne_none written

theorem WritesMore.starts_none (h : WritesMore links links') {text : List Char}
    (hnone : ∀ i written, links.lookup i = some written → ¬ placeholder i <+: text) (i : Nat)
    (written : List Char) (hi : links'.lookup i = some written) : ¬ placeholder i <+: text := by
  have hsome : links.lookup i ≠ none := by
    rw [ne_eq, h.none_iff, hi]
    exact Option.some_ne_none written
  obtain ⟨first, hfirst⟩ := Option.ne_none_iff_exists'.mp hsome
  exact hnone i first hfirst

theorem WritesMore.count_le (h : WritesMore links links') (text : List Char) :
    (substitute links text).count '[' ≤ (substitute links' text).count '[' := by
  induction text using substitute_induction links with
  | nil => exact le_rfl
  | link i written rest hi ih =>
    obtain ⟨written', hi'⟩ := h.exists_lookup hi
    have hle : written.count '[' ≤ written'.count '[' := by
      obtain rfl | hlt := h.eq_or_lt hi hi'
      · exact le_rfl
      · exact hlt.le
    rw [substitute_placeholder hi, substitute_placeholder hi', List.count_append, List.count_append]
    omega
  | copy c cs hnone ih =>
    rw [substitute_cons hnone, substitute_cons (h.starts_none hnone), List.count_cons,
      List.count_cons]
    omega

/-- Two such passes come to the same just if they write the same wherever they write. -/
theorem WritesMore.substitute_eq_iff (h : WritesMore links links') (text : List Char) :
    substitute links text = substitute links' text ↔
      ∀ i written written', links.lookup i = some written → links'.lookup i = some written' →
        placeholder i <:+: text → written = written' := by
  constructor
  · intro heq i written written' hi hi' hoccurs
    obtain ⟨front, rest, rfl⟩ := hoccurs
    rw [substitute_split hi, substitute_split hi'] at heq
    obtain hsame | hlt := h.eq_or_lt hi hi'
    · exact hsame
    -- The link of the second pass brings more brackets, and what stands around it brings no fewer.
    · have hcount := congrArg (List.count '[') heq
      have hfront := h.count_le front
      have hrest := h.count_le rest
      simp only [List.count_append] at hcount
      omega
  · intro hsame
    induction text using substitute_induction links with
    | nil => rfl
    | link i written rest hi ih =>
      obtain ⟨written', hi'⟩ := h.exists_lookup hi
      rw [substitute_placeholder hi, substitute_placeholder hi', ih,
        hsame i written written' hi hi' (List.prefix_append _ _).isInfix]
      intro j w w' hj hj' hoccurs
      exact hsame j w w' hj hj' (hoccurs.trans (List.suffix_append _ _).isInfix)
    | copy c cs hnone ih =>
      rw [substitute_cons hnone, substitute_cons (h.starts_none hnone), ih]
      intro j w w' hj hj' hoccurs
      exact hsame j w w' hj hj' (List.infix_cons hoccurs)

/-! ### Rounds -/

/-- What goes with the indexes of parameters, which for each may depend on the later ones. -/
def linksFrom (write : (index : Nat) → (name : String) → (later : List String) → List Char)
    (index : Nat) : (parameters : List String) → List (Nat × List Char)
  | [] => []
  | p :: ps => (index, write index p ps) :: linksFrom write (index + 1) ps

/-- A link as the rounds of the later parameters leave it. -/
def expandedLink (index : Nat) (name : String) (later : List String) : List Char :=
  expandFrom (index + 1) (link name) later

/-- The rounds make of a text what one pass makes of it that writes each link expanded. -/
theorem expandFrom_eq_substitute (index : Nat) (text : List Char) (parameters : List String) :
    expandFrom index text parameters = substitute (linksFrom expandedLink index parameters) text := by
  induction parameters generalizing index text with
  | nil => exact (substitute_eq_self (by simp [linksFrom])).symm
  | cons p ps ih =>
    rw [expandFrom, ih, replaceAll_eq_substitute, substitute_substitute, ← ih]
    rfl

theorem lookup_linksFrom {write : Nat → String → List String → List Char} {index : Nat}
    {parameters : List String} {k : Nat} {written : List Char} :
    (linksFrom write index parameters).lookup k = some written ↔
      ∃ i name, parameters[i]? = some name ∧ k = index + i
        ∧ written = write k name (parameters.drop (i + 1)) := by
  induction parameters generalizing index with
  | nil => simp [linksFrom]
  | cons p ps ih =>
    by_cases hk : k = index
    · subst k
      rw [linksFrom, List.lookup_cons_self]
      constructor
      · intro h
        exact ⟨0, p, rfl, rfl, (Option.some.inj h).symm⟩
      · rintro ⟨i, name, hname, hi, rfl⟩
        obtain rfl : i = 0 := by omega
        cases hname
        rfl
    · rw [linksFrom, lookup_cons_of_ne hk]
      refine ih.trans ⟨?_, ?_⟩
      · rintro ⟨i, name, hname, rfl, rfl⟩
        exact ⟨i + 1, name, hname, by omega, rfl⟩
      · rintro ⟨i, name, hname, rfl, rfl⟩
        obtain ⟨i, rfl⟩ : ∃ n, i = n + 1 := Nat.exists_eq_add_one_of_ne_zero (by omega)
        exact ⟨i, name, hname, by omega, rfl⟩

theorem mapIdx_eq_linksFrom (index : Nat) (parameters : List String) :
    parameters.mapIdx (fun i name => (index + i, link name))
      = linksFrom (fun _ name _ => link name) index parameters := by
  induction parameters generalizing index with
  | nil => rfl
  | cons p ps ih =>
    rw [List.mapIdx_cons, linksFrom, ← ih]
    simp only [Nat.add_zero, Nat.add_assoc, Nat.add_comm 1]

theorem infix_link_iff (i : Nat) (name : String) :
    placeholder i <:+: link name ↔ placeholder i <:+: name.toList := by
  have hclose : ']' ∉ placeholder i := not_mem_placeholder (by decide) i
  have hlink : link name = '[' :: (name.toList ++ [']']) := rfl
  constructor
  · intro h
    rw [hlink, List.infix_cons_iff, List.infix_concat_iff] at h
    obtain hprefix | hsuffix | hname := h
    · rw [placeholder_eq, List.cons_prefix_cons] at hprefix
      exact absurd hprefix.1 (by decide)
    · obtain hnil | ⟨front, hfront, -⟩ := List.suffix_concat_iff.mp hsuffix
      · rw [placeholder_eq] at hnil
        cases hnil
      · exact absurd (hfront ▸ List.mem_concat_self) hclose
    · exact hname
  · intro h
    exact h.trans ⟨['['], [']'], rfl⟩

theorem mem_expandedLink (index : Nat) (name : String) (later : List String) :
    '[' ∈ expandedLink index name later := by
  have hlink : '[' ∈ link name := List.mem_cons_self
  rw [← List.count_pos_iff] at hlink ⊢
  rw [expandedLink, expandFrom_eq_substitute]
  exact hlink.trans_le (count_le_count_substitute _ _)

theorem lookup_linksFrom_zero (write : Nat → String → List String → List Char)
    (parameters : List String) (k : Nat) :
    (linksFrom write 0 parameters).lookup k
      = parameters[k]?.map fun name => write k name (parameters.drop (k + 1)) := by
  apply Option.ext
  intro written
  rw [lookup_linksFrom, Option.map_eq_some_iff]
  constructor
  · rintro ⟨i, name, hname, hk, rfl⟩
    obtain rfl : k = i := hk.trans (Nat.zero_add i)
    exact ⟨name, hname, rfl⟩
  · rintro ⟨name, hname, rfl⟩
    exact ⟨k, name, hname, (Nat.zero_add k).symm, rfl⟩

theorem lookup_linksFrom_of_getElem? (write : Nat → String → List String → List Char)
    {parameters : List String} {k : Nat} {name : String} (h : parameters[k]? = some name) :
    (linksFrom write 0 parameters).lookup k = some (write k name (parameters.drop (k + 1))) := by
  rw [lookup_linksFrom_zero, h, Option.map_some]

/-- What two passes write for an index is for the same parameter. -/
theorem exists_name_of_lookups {write write' : Nat → String → List String → List Char}
    {parameters : List String} {k : Nat} {written written' : List Char}
    (h : (linksFrom write 0 parameters).lookup k = some written)
    (h' : (linksFrom write' 0 parameters).lookup k = some written') :
    ∃ name, parameters[k]? = some name ∧ written = write k name (parameters.drop (k + 1))
      ∧ written' = write' k name (parameters.drop (k + 1)) := by
  rw [lookup_linksFrom_zero, Option.map_eq_some_iff] at h
  obtain ⟨name, hname, rfl⟩ := h
  rw [lookup_linksFrom_of_getElem? write' hname] at h'
  exact ⟨name, hname, rfl, (Option.some.inj h').symm⟩

/-- A link is changed just if there is the placeholder of a later parameter in its name. -/
theorem link_eq_or_count_lt (index : Nat) (name : String) (later : List String) :
    ((∀ j < later.length, ¬ placeholder (index + 1 + j) <:+: name.toList)
        ∧ link name = expandedLink index name later)
      ∨ ((∃ j < later.length, placeholder (index + 1 + j) <:+: name.toList)
        ∧ (link name).count '[' < (expandedLink index name later).count '[') := by
  rw [expandedLink, expandFrom_eq_substitute]
  by_cases h : ∃ j < later.length, placeholder (index + 1 + j) <:+: name.toList
  · refine .inr ⟨h, ?_⟩
    obtain ⟨j, hj, hoccurs⟩ := h
    have hlookup : (linksFrom expandedLink (index + 1) later).lookup (index + 1 + j)
        = some (expandedLink (index + 1 + j) later[j] (later.drop (j + 1))) :=
      lookup_linksFrom.mpr ⟨j, later[j], List.getElem?_eq_getElem hj, rfl, rfl⟩
    exact count_lt_count_substitute hlookup (mem_expandedLink _ _ _) ((infix_link_iff _ _).mpr hoccurs)
  · refine .inl ⟨fun j hj hoccurs => h ⟨j, hj, hoccurs⟩, (substitute_eq_self ?_).symm⟩
    intro i written hi hoccurs
    obtain ⟨j, later', hj, rfl, -⟩ := lookup_linksFrom.mp hi
    exact h ⟨j, (List.getElem?_eq_some_iff.mp hj).1, (infix_link_iff _ _).mp hoccurs⟩

theorem link_eq_expandedLink_iff (index : Nat) (name : String) (later : List String) :
    link name = expandedLink index name later ↔
      ∀ j < later.length, ¬ placeholder (index + 1 + j) <:+: name.toList := by
  obtain ⟨hnone, heq⟩ | ⟨⟨j, hj, hoccurs⟩, hlt⟩ := link_eq_or_count_lt index name later
  · exact iff_of_true heq hnone
  · exact iff_of_false (fun heq => hlt.ne (congrArg (List.count '[') heq))
      fun hnone => hnone j hj hoccurs

theorem writesMore_linksFrom (parameters : List String) :
    WritesMore (linksFrom (fun _ name _ => link name) 0 parameters)
      (linksFrom expandedLink 0 parameters) where
  none_iff i := by
    rw [lookup_linksFrom_zero, lookup_linksFrom_zero, Option.map_eq_none_iff, Option.map_eq_none_iff]
  eq_or_lt {i written written'} hi hi' := by
    obtain ⟨name, -, rfl, rfl⟩ := exists_name_of_lookups hi hi'
    exact (link_eq_or_count_lt i name (parameters.drop (i + 1))).imp And.right And.right

/--
The links that are put in are expanded by the later parameters, whose placeholders may stand in a name.
So the outcome is that of one pass just if no link in the text is of a name that has the placeholder
of a later parameter.
-/
theorem expand_eq_expandAtOnce_iff (d : Documentation) (parameters : List String) :
    d.expand parameters
        = String.ofList (substitute (linksFrom expandedLink 0 parameters) d.text.toList)
      ∧ (d.expand parameters = d.expandAtOnce parameters ↔
        ∀ i j name, parameters[i]? = some name → i < j → j < parameters.length →
          placeholder i <:+: d.text.toList → ¬ placeholder j <:+: name.toList) := by
  have hexpand : d.expand parameters
      = String.ofList (substitute (linksFrom expandedLink 0 parameters) d.text.toList) := by
    rw [expand, expandFrom_eq_substitute]
  have honce : d.expandAtOnce parameters
      = String.ofList (substitute (linksFrom (fun _ name _ => link name) 0 parameters)
        d.text.toList) := by
    rw [expandAtOnce, ← mapIdx_eq_linksFrom]
    simp only [Nat.zero_add]
  refine ⟨hexpand, ?_⟩
  rw [hexpand, honce, String.ofList_inj, eq_comm, (writesMore_linksFrom parameters).substitute_eq_iff]
  constructor
  · intro h i j name hname hij hj htext
    have hlink := h i _ _ (lookup_linksFrom_of_getElem? _ hname)
      (lookup_linksFrom_of_getElem? _ hname) htext
    have hnone := (link_eq_expandedLink_iff i name _).mp hlink (j - (i + 1)) (by
      rw [List.length_drop]
      omega)
    rwa [Nat.add_sub_cancel' hij] at hnone
  · intro h i written written' hi hi' htext
    obtain ⟨name, hname, rfl, rfl⟩ := exists_name_of_lookups hi hi'
    refine (link_eq_expandedLink_iff i name _).mpr fun j hj => ?_
    rw [List.length_drop] at hj
    exact h i (i + 1 + j) name hname (by omega) (by omega) htext

/-- A legal name can be the placeholder of the lambda, and the link to it is lost then. -/
theorem expanded_link_name :
    let d : Documentation := ⟨"Sets \x7b0\x7d.", ["\x7b1\x7d", "action"]⟩
    Naming.isLegal "\x7b1\x7d" = true
      ∧ d.expand ["\x7b1\x7d", "configuration"] = "Sets [[configuration]]."
      ∧ d.expandAtOnce ["\x7b1\x7d", "configuration"] = "Sets [\x7b1\x7d]." := by
  decide +kernel

end DslBindings.Documentation
