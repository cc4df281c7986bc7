import Mathlib.Data.List.Infix
import DslBindings.Files.FileSystem

/-!
# What is where after a change

What is at each location after an entry is put, a tree is removed or a tree is moved. The rest of the
theory of file systems reaches their entries through `at?` alone: it does not see the entry at the
root, which no operation can make anything but a directory.
-/

namespace DslBindings.FileSystem

variable {fs : FileSystem}

@[simp] theorem at?_nil : fs.at? [] = some .directory := rfl

theorem at?_eq_getElem? {location : Location} (h : location ≠ []) :
    fs.at? location = fs.entries[location]? := by
  cases location with
  | nil => exact absurd rfl h
  | cons name names => rfl

theorem at?_empty {location : Location} (h : location ≠ []) : empty.at? location = none := by
  rw [at?_eq_getElem? h]
  exact Std.ExtTreeMap.getElem?_empty

@[simp] theorem workingDirectory_put (location : Location) (entry : FileEntry) :
    (fs.put location entry).workingDirectory = fs.workingDirectory := rfl

@[simp] theorem workingDirectory_moveTree (source target : Location) :
    (fs.moveTree source target).workingDirectory = fs.workingDirectory := rfl

theorem at?_put {location : Location} (h : location ≠ []) (entry : FileEntry) (l : Location) :
    (fs.put location entry).at? l = if l = location then some entry else fs.at? l := by
  by_cases hl : l = []
  · subst hl
    rw [if_neg (Ne.symm h), at?_nil, at?_nil]
  · rw [at?_eq_getElem? hl, at?_eq_getElem? hl, put, Std.ExtTreeMap.getElem?_insert]
    by_cases hll : l = location
    · simp [hll]
    · rw [if_neg hll, if_neg]
      rw [Std.compare_eq_iff_eq]
      exact Ne.symm hll

theorem at?_removeTree {location : Location} (h : location ≠ []) (l : Location) :
    (fs.removeTree location).at? l = if location <+: l then none else fs.at? l := by
  by_cases hl : l = []
  · subst hl
    rw [if_neg (by simpa using h), at?_nil, at?_nil]
  · rw [at?_eq_getElem? hl, at?_eq_getElem? hl, removeTree, Std.ExtTreeMap.getElem?_filter']
    by_cases hp : location <+: l
    · simp [hp]
    · have hb : location.isPrefixOf l = false :=
        Bool.eq_false_iff.mpr fun h => hp (List.isPrefixOf_iff_prefix.mp h)
      cases fs.entries[l]? <;> simp [hp, hb]

/-! ### Below a location -/

/-- A location is below another one. -/
def IsBelow (here l : Location) : Prop := ∃ name rest, l = here ++ name :: rest

theorem IsBelow.of_prefix {here l m : Location} (h : IsBelow here l) (hm : l <+: m) :
    IsBelow here m := by
  obtain ⟨name, rest, rfl⟩ := h
  obtain ⟨more, rfl⟩ := hm
  exact ⟨name, rest ++ more, by rw [List.append_assoc, List.cons_append]⟩

/-! ### Moving a tree -/

theorem mem_movedEntries {source target l : Location} {entry : FileEntry} :
    (l, entry) ∈ fs.movedEntries source target ↔
      ∃ rest, fs.entries[source ++ rest]? = some entry ∧ target ++ rest = l := by
  simp only [movedEntries, List.mem_filterMap, Prod.exists,
    Std.ExtTreeMap.mem_toList_iff_getElem?_eq_some, List.isPrefixOf_iff_prefix]
  constructor
  · rintro ⟨from', there, hthere, hmoved⟩
    split at hmoved
    · next hp =>
      obtain ⟨rest, rfl⟩ := hp
      simp only [List.drop_left, Option.some.injEq, Prod.mk.injEq] at hmoved
      obtain ⟨rfl, rfl⟩ := hmoved
      exact ⟨rest, hthere, rfl⟩
    · cases hmoved
  · rintro ⟨rest, hthere, rfl⟩
    exact ⟨source ++ rest, entry, hthere, by simp⟩

/-- No two entries are moved to one location. -/
theorem pairwise_movedEntries (source target : Location) :
    (fs.movedEntries source target).Pairwise fun a b => ¬ compare a.1 b.1 = .eq := by
  rw [movedEntries, List.pairwise_filterMap]
  refine Std.ExtTreeMap.distinct_keys_toList.imp ?_
  rintro a b hne ⟨l, entry⟩ ha ⟨l', entry'⟩ hb
  simp only [Std.compare_eq_iff_eq] at hne ⊢
  simp only [Option.ite_none_right_eq_some, List.isPrefixOf_iff_prefix, Option.some.injEq,
    Prod.mk.injEq] at ha hb
  obtain ⟨⟨rest, hrest⟩, rfl, -⟩ := ha
  obtain ⟨⟨rest', hrest'⟩, rfl, -⟩ := hb
  rw [← hrest, ← hrest', List.drop_left, List.drop_left]
  intro heq
  rw [List.append_cancel_left heq, hrest'] at hrest
  exact hne hrest.symm

/-- What is at a location after a move is what was moved there, and else what is left of what was there. -/
theorem at?_moveTree_eq_or {source target : Location} (hsource : source ≠ []) (htarget : target ≠ [])
    (l : Location) :
    (fs.moveTree source target).at? l =
      if target <+: l then
        (fs.at? (source ++ l.drop target.length)).or ((fs.removeTree source).at? l)
      else (fs.removeTree source).at? l := by
  by_cases hl : l = []
  · subst hl
    rw [if_neg (by simpa using htarget), at?_nil, at?_nil]
  · rw [at?_eq_getElem? hl, moveTree]
    have hother (hnone : ∀ entry, (l, entry) ∉ fs.movedEntries source target) :
        ((fs.removeTree source).entries.insertMany (fs.movedEntries source target))[l]?
          = (fs.removeTree source).at? l := by
      rw [Std.ExtTreeMap.getElem?_insertMany_list_of_contains_eq_false (by simpa using hnone),
        ← at?_eq_getElem? hl]
    by_cases hp : target <+: l
    · obtain ⟨rest, rfl⟩ := hp
      rw [if_pos (List.prefix_append _ _), List.drop_left,
        at?_eq_getElem? (List.append_ne_nil_of_left_ne_nil hsource rest)]
      cases hthere : fs.entries[source ++ rest]? with
      | some entry =>
        rw [Option.some_or]
        exact Std.ExtTreeMap.getElem?_insertMany_list_of_mem Std.compare_self
          (pairwise_movedEntries source target) (mem_movedEntries.mpr ⟨rest, hthere, rfl⟩)
      | none =>
        rw [Option.none_or, hother]
        intro entry hmem
        obtain ⟨rest', hthere', hrest⟩ := mem_movedEntries.mp hmem
        rw [List.append_cancel_left hrest, hthere] at hthere'
        cases hthere'
    · rw [if_neg hp, hother]
      intro entry hmem
      obtain ⟨rest, -, rfl⟩ := mem_movedEntries.mp hmem
      exact hp (List.prefix_append _ _)

/-- Where nothing was at a location or below, all of another tree is after a move, and nothing of it is
where it was. -/
theorem at?_moveTree {source target : Location} (hsource : source ≠ []) (htarget : target ≠ [])
    (hfree : ∀ l, target <+: l → fs.at? l = none) (l : Location) :
    (fs.moveTree source target).at? l =
      if target <+: l then fs.at? (source ++ l.drop target.length)
      else if source <+: l then none else fs.at? l := by
  rw [at?_moveTree_eq_or hsource htarget, at?_removeTree hsource]
  split
  · next hp => rw [hfree l hp, ite_self, Option.or_none]
  · rfl

end DslBindings.FileSystem
