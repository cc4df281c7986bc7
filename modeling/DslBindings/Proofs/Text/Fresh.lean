import DslBindings.Text.Fresh

/-!
# The search for a fresh name

The search leaves out of `used` what it has tried. It finds what a search in all of `used` finds, since a
name is not tried twice, and it ends after as many rounds as there are names in `used`, or fewer.
-/

namespace DslBindings.Text

/-- A name with `k` underscores behind it. -/
def lengthened (name : String) (k : Nat) : String := name ++ String.ofList (List.replicate k '_')

theorem toList_lengthened (name : String) (k : Nat) :
    (lengthened name k).toList = name.toList ++ List.replicate k '_' := by
  rw [lengthened, String.toList_append, String.toList_ofList]

theorem lengthened_zero (name : String) : lengthened name 0 = name :=
  String.toList_injective (by rw [toList_lengthened, List.replicate_zero, List.append_nil])

theorem lengthened_succ (name : String) (k : Nat) :
    lengthened (name ++ "_") k = lengthened name (k + 1) := by
  apply String.toList_injective
  rw [toList_lengthened, toList_lengthened, String.toList_append, List.append_assoc,
    List.replicate_succ]
  rfl

theorem lengthened_succ_ne (name : String) (k : Nat) : lengthened name (k + 1) ≠ name := by
  intro heq
  have hlength := congrArg (List.length ∘ String.toList) heq
  simp [toList_lengthened] at hlength

theorem lengthened_mem_of_lt_succ {used : List String} {name : String} {k : Nat} (hname : name ∈ used)
    (h : ∀ {j}, j < k → lengthened (name ++ "_") j ∈ used) {j : Nat} (hj : j < k + 1) :
    lengthened name j ∈ used := by
  cases j with
  | zero => rwa [lengthened_zero]
  | succ j =>
    rw [← lengthened_succ]
    exact h (Nat.lt_of_succ_lt_succ hj)

/-- With `k` underscores behind it the name is free, and with fewer it is not. -/
structure IsFirstFree (used : List String) (name : String) (k : Nat) : Prop where
  le_length : k ≤ used.length
  not_mem : lengthened name k ∉ used
  mem {j : Nat} (h : j < k) : lengthened name j ∈ used

namespace IsFirstFree

variable {used : List String} {name : String} {k : Nat}

theorem zero (h : name ∉ used) : IsFirstFree used name 0 where
  le_length := Nat.zero_le _
  not_mem := by rwa [lengthened_zero]
  mem h := absurd h (Nat.not_lt_zero _)

theorem of_perm {used' : List String} (h : IsFirstFree used name k) (hperm : used.Perm used') :
    IsFirstFree used' name k where
  le_length := hperm.length_eq ▸ h.le_length
  not_mem := fun hmem => h.not_mem (hperm.mem_iff.mpr hmem)
  mem hj := hperm.mem_iff.mp (h.mem hj)

/-- A round of the search. -/
theorem succ (hname : name ∈ used) (h : IsFirstFree (used.erase name) (name ++ "_") k) :
    IsFirstFree used name (k + 1) := by
  obtain ⟨hle, hnot, hmem⟩ := h
  refine ⟨?_, ?_, ?_⟩
  · have hpos := List.length_pos_of_mem hname
    rw [List.length_erase_of_mem hname] at hle
    omega
  · rwa [lengthened_succ, List.mem_erase_of_ne (lengthened_succ_ne name k)] at hnot
  · exact lengthened_mem_of_lt_succ hname fun hj => List.mem_of_mem_erase (hmem hj)

end IsFirstFree

/-- The search ends at the first free name. -/
theorem exists_freshName_eq (used : List String) (name : String) :
    ∃ k, IsFirstFree used name k ∧ freshName used name = lengthened name k := by
  induction used, name using freshName.induct with
  | case1 used name hmem ih =>
    obtain ⟨k, hfree, heq⟩ := ih
    refine ⟨k + 1, .succ hmem hfree, ?_⟩
    rw [freshName, dif_pos hmem, heq, lengthened_succ]
  | case2 used name hnot =>
    refine ⟨0, .zero hnot, ?_⟩
    rw [freshName, dif_neg hnot, lengthened_zero]

theorem toList_freshName (used : List String) (name : String) :
    ∃ k, (freshName used name).toList = name.toList ++ List.replicate k '_' := by
  obtain ⟨k, -, heq⟩ := exists_freshName_eq used name
  exact ⟨k, by rw [heq, toList_lengthened]⟩

theorem freshName_of_not_mem {used : List String} {name : String} (h : name ∉ used) :
    freshName used name = name := by
  rw [freshName, dif_neg h]

/-- A round of the search goes on as a search in all of `used` does. -/
theorem freshName_of_mem {used : List String} {name : String} (h : name ∈ used) :
    freshName used name = freshName used (name ++ "_") := by
  obtain ⟨k, hfree, heq⟩ := exists_freshName_eq used name
  obtain ⟨k', hfree', heq'⟩ := exists_freshName_eq used (name ++ "_")
  -- The searches leave out different names, so they are compared by what they end at.
  have hnot : lengthened name (k' + 1) ∉ used := lengthened_succ name k' ▸ hfree'.not_mem
  have hk : k = k' + 1 := by
    apply Nat.le_antisymm
    · exact Nat.le_of_not_lt fun hlt => hnot (hfree.mem hlt)
    · exact Nat.le_of_not_lt fun hlt => hfree.not_mem (lengthened_mem_of_lt_succ h hfree'.mem hlt)
  rw [heq, heq', lengthened_succ, hk]

end DslBindings.Text
