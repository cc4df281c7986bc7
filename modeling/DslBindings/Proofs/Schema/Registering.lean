import Mathlib.Data.String.Basic
import Mathlib.Order.Bounds.Basic
import DslBindings.Build.Resolver

/-!
# Registering entries

Entries are registered one after the other, and of two types for one name the greater is kept. So what
is kept for a name is the greatest of all that are listed for it, whatever order they came in.
-/

namespace DslBindings.ProjectSchema

/-- The types that are listed for a name. -/
def typesOf (entries : List (String × String)) (name : String) : Set String :=
  {type | (name, type) ∈ entries}

/-! ### One entry -/

variable {registry : Std.ExtTreeMap String String} {entry : String × String} {name type : String}

/-- An entry is passed over if its type is not greater than one that is there, and else registered. -/
theorem register_cases (registry : Std.ExtTreeMap String String) (entry : String × String) :
    (∃ t, registry[entry.1]? = some t ∧ entry.2 ≤ t ∧ register registry entry = registry)
      ∨ ((∀ t, registry[entry.1]? = some t → t ≤ entry.2)
        ∧ register registry entry = registry.insert entry.1 entry.2) := by
  rw [register]
  cases hold : registry[entry.1]? with
  | none =>
    refine .inr ⟨?_, rfl⟩
    intro t ht
    cases ht
  | some t =>
    by_cases hle : entry.2 ≤ t
    · exact .inl ⟨t, rfl, hle, if_pos hle⟩
    · refine .inr ⟨fun t' ht' => ?_, if_neg hle⟩
      rw [← Option.some.inj ht']
      exact (not_le.mp hle).le

theorem getElem?_insert (registry : Std.ExtTreeMap String String) (entry : String × String)
    (name : String) :
    (registry.insert entry.1 entry.2)[name]?
      = if entry.1 = name then some entry.2 else registry[name]? := by
  simp only [Std.ExtTreeMap.getElem?_insert, Std.LawfulEqCmp.compare_eq_iff_eq]

/-- What is registered then was so before, or it is the entry. -/
theorem mem_of_register (h : (register registry entry)[name]? = some type) :
    registry[name]? = some type ∨ (name, type) = entry := by
  obtain ⟨t, -, -, heq⟩ | ⟨-, heq⟩ := register_cases registry entry
  · rw [heq] at h
    exact .inl h
  · rw [heq, getElem?_insert] at h
    split at h
    · next hname => exact .inr (Prod.ext hname.symm (Option.some.inj h).symm)
    · exact .inl h

/-- What was registered before is not greater than what is then, and the entry is not either. -/
theorem exists_le_register (h : registry[name]? = some type ∨ (name, type) = entry) :
    ∃ t, (register registry entry)[name]? = some t ∧ type ≤ t := by
  obtain ⟨t, hold, hle, heq⟩ | ⟨hle, heq⟩ := register_cases registry entry
  · rw [heq]
    obtain hsame | rfl := h
    · exact ⟨type, hsame, le_rfl⟩
    · exact ⟨t, hold, hle⟩
  · rw [heq, getElem?_insert]
    split
    · next hname =>
      refine ⟨entry.2, rfl, ?_⟩
      obtain hold | rfl := h
      · exact hle type (hname ▸ hold)
      · exact le_rfl
    · next hname =>
      obtain hsame | rfl := h
      · exact ⟨type, hsame, le_rfl⟩
      · exact absurd rfl hname

/-! ### All entries -/

theorem mem_of_foldl_register {entries : List (String × String)}
    (h : (entries.foldl register registry)[name]? = some type) :
    registry[name]? = some type ∨ (name, type) ∈ entries := by
  induction entries generalizing registry with
  | nil => exact .inl h
  | cons entry entries ih =>
    obtain hstep | htail := ih h
    · obtain hold | rfl := mem_of_register hstep
      · exact .inl hold
      · exact .inr List.mem_cons_self
    · exact .inr (List.mem_cons_of_mem entry htail)

theorem exists_le_foldl_register {entries : List (String × String)}
    (h : registry[name]? = some type ∨ (name, type) ∈ entries) :
    ∃ t, (entries.foldl register registry)[name]? = some t ∧ type ≤ t := by
  induction entries generalizing registry type with
  | nil =>
    obtain hold | hnone := h
    · exact ⟨type, hold, le_rfl⟩
    · cases hnone
  | cons entry entries ih =>
    rw [List.mem_cons, ← or_assoc] at h
    obtain hstep | htail := h
    · obtain ⟨t, ht, hle⟩ := exists_le_register hstep
      obtain ⟨t', ht', hle'⟩ := ih (.inl ht)
      exact ⟨t', ht', hle.trans hle'⟩
    · exact ih (.inr htail)

/-- A registry has the names that are listed, and for each of them the greatest type that is. -/
structure IsRegistryOf (entries : List (String × String)) (registry : Std.ExtTreeMap String String) :
    Prop where
  mem_iff : ∀ name, name ∈ registry ↔ ∃ type, (name, type) ∈ entries
  getElem?_iff : ∀ name type, registry[name]? = some type ↔ IsGreatest (typesOf entries name) type

theorem isRegistryOf_foldl (entries : List (String × String)) :
    IsRegistryOf entries (entries.foldl register ∅) := by
  have hlisted : ∀ {name type}, (entries.foldl register ∅)[name]? = some type →
      (name, type) ∈ entries := by
    intro name type h
    obtain hold | hmem := mem_of_foldl_register h
    · rw [Std.ExtTreeMap.getElem?_empty] at hold
      cases hold
    · exact hmem
  constructor
  · intro name
    rw [Std.ExtTreeMap.mem_iff_isSome_getElem?, Option.isSome_iff_exists]
    constructor
    · rintro ⟨type, htype⟩
      exact ⟨type, hlisted htype⟩
    · rintro ⟨type, htype⟩
      obtain ⟨t, ht, -⟩ := exists_le_foldl_register (.inr htype)
      exact ⟨t, ht⟩
  · intro name type
    constructor
    · intro h
      refine ⟨hlisted h, fun t ht => ?_⟩
      obtain ⟨t', ht', hle⟩ := exists_le_foldl_register (.inr ht)
      exact hle.trans (Option.some.inj (ht'.symm.trans h)).le
    · rintro ⟨hmem, hupper⟩
      obtain ⟨t, ht, hle⟩ := exists_le_foldl_register (.inr hmem)
      rwa [le_antisymm hle (hupper (hlisted ht))]

theorem IsRegistryOf.unique {entries entries' : List (String × String)}
    {registry registry' : Std.ExtTreeMap String String} (h : IsRegistryOf entries registry)
    (h' : IsRegistryOf entries' registry')
    (hgreatest : ∀ name type, IsGreatest (typesOf entries name) type ↔
      IsGreatest (typesOf entries' name) type) : registry = registry' := by
  apply Std.ExtTreeMap.ext_getElem?
  intro name
  apply Option.ext
  intro type
  rw [h.getElem?_iff, hgreatest, h'.getElem?_iff]

theorem foldl_register_of_perm {entries entries' : List (String × String)}
    (h : entries.Perm entries') : entries.foldl register ∅ = entries'.foldl register ∅ := by
  apply (isRegistryOf_foldl entries).unique (isRegistryOf_foldl entries')
  intro name type
  have hsame : typesOf entries name = typesOf entries' name := by
    apply Set.ext
    intro t
    exact h.mem_iff
  rw [hsame]

theorem isGreatest_typesOf_cons {entries : List (String × String)} {t : String}
    (hmem : (name, type) ∈ entries) (hle : t ≤ type) (other x : String) :
    IsGreatest (typesOf ((name, t) :: entries) other) x ↔ IsGreatest (typesOf entries other) x := by
  constructor
  · rintro ⟨hx, hupper⟩
    have htail : x ∈ typesOf entries other := by
      obtain heq | htail := List.mem_cons.mp hx
      · obtain ⟨rfl, rfl⟩ := Prod.mk.inj heq
        have hsame : x = type := le_antisymm hle (hupper (List.mem_cons_of_mem _ hmem))
        rwa [hsame]
      · exact htail
    exact ⟨htail, fun b hb => hupper (List.mem_cons_of_mem _ hb)⟩
  · rintro ⟨hx, hupper⟩
    refine ⟨List.mem_cons_of_mem _ hx, fun b hb => ?_⟩
    obtain heq | htail := List.mem_cons.mp hb
    · obtain ⟨rfl, rfl⟩ := Prod.mk.inj heq
      exact hle.trans (hupper hmem)
    · exact hupper htail

/-- One more entry, wherever it is put, makes no difference if a type that is not smaller is listed for
its name. -/
theorem foldl_register_of_perm_cons {entries entries' : List (String × String)} {t : String}
    (hmem : (name, type) ∈ entries) (hle : t ≤ type) (h : entries'.Perm ((name, t) :: entries)) :
    entries'.foldl register ∅ = entries.foldl register ∅ := by
  rw [foldl_register_of_perm h]
  exact (isRegistryOf_foldl _).unique (isRegistryOf_foldl entries) (isGreatest_typesOf_cons hmem hle)

/--
Entries in another order give the same schema. It has, for each name that is listed, the greatest type
that is, and an entry of a type that is not greater than one listed for its name adds nothing. So the
keys, the names of the cache directories and the source files are the same, too.
-/
theorem ofEntries_order_free {extensions extensions' conventions conventions' : List (String × String)}
    (hextensions : extensions.Perm extensions') (hconventions : conventions.Perm conventions') :
    ofEntries extensions conventions = ofEntries extensions' conventions'
      ∧ IsRegistryOf extensions (ofEntries extensions conventions).extensions
      ∧ IsRegistryOf conventions (ofEntries extensions conventions).conventions
      -- One more entry.
      ∧ (∀ name type t more, (name, type) ∈ extensions → t ≤ type →
        more.Perm ((name, t) :: extensions) →
          ofEntries more conventions = ofEntries extensions conventions)
      ∧ (∀ name type t more, (name, type) ∈ conventions → t ≤ type →
        more.Perm ((name, t) :: conventions) →
          ofEntries extensions more = ofEntries extensions conventions)
      -- What is made from the schema.
      ∧ (ofEntries extensions conventions).cacheKey = (ofEntries extensions' conventions').cacheKey
      ∧ (∀ classPath,
        (Accessors.cacheKey (ofEntries extensions conventions) classPath).directoryName
          = (Accessors.cacheKey (ofEntries extensions' conventions') classPath).directoryName)
      ∧ ∀ sink, Accessors.writeTo sink (ofEntries extensions conventions)
          = Accessors.writeTo sink (ofEntries extensions' conventions') := by
  have hsame : ofEntries extensions conventions = ofEntries extensions' conventions' := by
    rw [ofEntries, ofEntries, foldl_register_of_perm hextensions, foldl_register_of_perm hconventions]
  refine ⟨hsame, isRegistryOf_foldl extensions, isRegistryOf_foldl conventions, ?_, ?_, ?_, ?_, ?_⟩
  · intro name type t more hmem hle hmore
    rw [ofEntries, ofEntries, foldl_register_of_perm_cons hmem hle hmore]
  · intro name type t more hmem hle hmore
    rw [ofEntries, ofEntries, foldl_register_of_perm_cons hmem hle hmore]
  · rw [hsame]
  · intro classPath
    rw [hsame]
  · intro sink
    rw [hsame]

/-- Three types for one name, in two orders. -/
theorem ofEntries_order_free_three :
    let entries := [("a", "T"), ("b", "S"), ("a", "U"), ("a", "S")]
    let others := [("a", "U"), ("a", "S"), ("a", "T"), ("b", "S")]
    entries.Perm others ∧ ofEntries entries [] = ofEntries others []
      ∧ (ofEntries entries []).extensions["a"]? = some "U" := by
  intro entries others
  have hperm : entries.Perm others := by decide
  obtain ⟨hsame, -⟩ := ofEntries_order_free hperm (List.Perm.refl [])
  exact ⟨hperm, hsame, by decide +kernel⟩

end DslBindings.ProjectSchema
