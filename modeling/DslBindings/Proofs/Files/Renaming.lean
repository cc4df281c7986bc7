import DslBindings.Proofs.Files.Writing

/-!
# Replacing a file

A file that is written beside another one and then renamed to it takes its place. Both paths end with a
name in the same directory, and neither of the two places is a directory when the rename happens, so no
path to them goes through them: what was a way to the files still is one afterwards.
-/

namespace DslBindings.FileSystem

open DslBindings.Path

variable {fs fs' fs'' : FileSystem} {here l s t : Location} {content : List UInt8}
  {front ss : List String} {a b : String}

/-- A way to somewhere else does not lead through a place that is no directory, nor below it. -/
theorem not_prefix_lead_of_follow (hfollow : fs.follow here ss = .ok l)
    (ht : fs.at? t ≠ some .directory) (hl : ¬ t <+: l) : ∀ f, f <+: ss → ¬ t <+: lead here f := by
  induction ss generalizing here with
  | nil =>
    intro f hf
    rw [List.prefix_nil.mp hf, lead_nil, Except.ok.inj hfollow]
    exact hl
  | cons s ss ih =>
    obtain ⟨hhere, -, htail⟩ := follow_cons_eq_ok.mp hfollow
    have hbehind := ih htail
    intro f hf
    rcases List.prefix_cons_iff.mp hf with rfl | ⟨f, rfl, hf'⟩
    · -- A step from below the place stays below it or ends there.
      intro hprefix
      apply hbehind [] List.nil_prefix
      rw [lead_nil, step]
      split
      · exact hprefix
      · split
        · obtain ⟨rest, rfl⟩ := hprefix
          cases rest using List.reverseRecOn with
          | nil =>
            rw [List.append_nil] at hhere
            exact absurd hhere ht
          | append_singleton rest name =>
            rw [← List.append_assoc, List.dropLast_concat]
            exact List.prefix_append _ _
        · exact hprefix.trans (List.prefix_append _ _)
    · exact hbehind f hf'

/-! ### Names in one directory -/

theorem start_concat (hfront : front ≠ []) (wd : Location) (a b : String) :
    start wd ⟨front ++ [a]⟩ = start wd ⟨front ++ [b]⟩ := by
  obtain ⟨first, more, rfl⟩ := List.exists_cons_of_ne_nil hfront
  cases more <;> simp [start]

theorem locate_concat_eq_ok (ha : IsProperName a) (h : fs.locate ⟨front ++ [a]⟩ = .ok l) :
    l = lead (start fs.workingDirectory ⟨front ++ [a]⟩) front ++ [a]
      ∧ fs.follow (start fs.workingDirectory ⟨front ++ [a]⟩) front
        = .ok (lead (start fs.workingDirectory ⟨front ++ [a]⟩) front) := by
  have hfollow := (locate_eq_ok.mp h).2.2.2
  refine ⟨?_, (follow_append_eq_ok.mp hfollow).1⟩
  rw [eq_lead_of_follow hfollow, lead_append, lead_cons, step_of_isProperName ha, lead_nil]

theorem not_prefix_concat_concat (hne : a ≠ b) : ¬ here ++ [a] <+: here ++ [b] := by
  intro h
  have heq := h.eq_of_length (by rw [List.length_append, List.length_append]; rfl)
  exact hne (List.append_singleton_inj.mp heq).2

theorem not_prefix_of_concat (name : String) : ¬ here ++ [name] <+: here := by
  intro h
  have hlength := h.length_le
  rw [List.length_append, List.length_singleton] at hlength
  omega

/-- A path into a directory leads where it did if all is as it was but for two names there. -/
theorem locate_concat_of_at? (ha : IsProperName a) (hlocate : fs.locate ⟨front ++ [a]⟩ = .ok (here ++ [a]))
    (hs : fs.at? s ≠ some .directory) (ht : fs.at? t ≠ some .directory) (hsHere : ¬ s <+: here)
    (htHere : ¬ t <+: here) (hwd : fs'.workingDirectory = fs.workingDirectory)
    (hat : ∀ m, ¬ s <+: m → ¬ t <+: m → fs'.at? m = fs.at? m)
    (hplace : fs.at? (here ++ [a]) ≠ some .directory) :
    fs'.locate ⟨front ++ [a]⟩ = .ok (here ++ [a]) := by
  obtain ⟨hhere, hfollow⟩ := locate_concat_eq_ok ha hlocate
  rw [← (List.append_singleton_inj.mp hhere).1] at hfollow
  refine locate_mono hwd (fun m hm hdir => ?_) hlocate
  obtain ⟨f, hf, rfl⟩ := hm
  rcases List.prefix_concat_iff.mp hf with rfl | hf
  · rw [lead_append, lead_cons, step_of_isProperName ha, lead_nil, ← eq_lead_of_follow hfollow] at hdir
    exact absurd hdir hplace
  · rw [hat _ (not_prefix_lead_of_follow hfollow hs hsHere f hf)
      (not_prefix_lead_of_follow hfollow ht htHere f hf), hdir]

/-! ### Renaming -/

theorem exists_of_rename_file {source target : Path} (hs : fs.locate source = .ok s)
    (hat : fs.at? s = some (.file content)) (h : fs.rename source target = .ok fs') :
    ∃ t, fs.locate target = .ok t
      ∧ (s ≠ t → fs.at? t ≠ some .directory ∧ fs' = fs.moveTree s t) := by
  rw [rename, hs] at h
  cases ht : fs.locate target with
  | error e =>
    rw [ht] at h
    cases h
  | ok t =>
    refine ⟨t, rfl, fun hne => ?_⟩
    rw [ht] at h
    simp only [bind, Except.bind, hat, if_neg hne] at h
    split at h
    · cases h
    · cases hthere : fs.at? t with
      | none =>
        rw [hthere] at h
        exact ⟨nofun, (Except.ok.inj h).symm⟩
      | some entry =>
        rw [hthere] at h
        cases entry with
        | directory => cases h
        | file old => exact ⟨nofun, (Except.ok.inj h).symm⟩

/-- A file that is renamed to another name in its directory takes the place of what is there. -/
theorem exists_of_rename_concat (ha : IsProperName a) (hb : IsProperName b) (hne : a ≠ b)
    (hfront : front ≠ []) (hlocate : fs.locate ⟨front ++ [a]⟩ = .ok (here ++ [a]))
    (hfile : fs.at? (here ++ [a]) = some (.file content))
    (hrename : fs.rename ⟨front ++ [a]⟩ ⟨front ++ [b]⟩ = .ok fs') :
    fs'.workingDirectory = fs.workingDirectory
      ∧ fs'.locate ⟨front ++ [a]⟩ = .ok (here ++ [a]) ∧ fs'.at? (here ++ [a]) = none
      ∧ fs'.locate ⟨front ++ [b]⟩ = .ok (here ++ [b]) ∧ fs'.at? (here ++ [b]) = some (.file content)
      ∧ ∀ l, ¬ here ++ [a] <+: l → ¬ here ++ [b] <+: l → fs'.at? l = fs.at? l := by
  obtain ⟨target, htarget, hmoved⟩ := exists_of_rename_file hlocate hfile hrename
  have hhere := (locate_concat_eq_ok ha hlocate).1
  obtain rfl : target = here ++ [b] := by
    rw [(locate_concat_eq_ok hb htarget).1, start_concat hfront _ b a,
      ← (List.append_singleton_inj.mp hhere).1]
  have hab : ¬ here ++ [a] <+: here ++ [b] := not_prefix_concat_concat hne
  have hba : ¬ here ++ [b] <+: here ++ [a] := not_prefix_concat_concat hne.symm
  obtain ⟨hnoDirectory, rfl⟩ := hmoved fun heq => hab (heq ▸ List.prefix_refl _)
  have hat := @at?_moveTree_eq_or fs _ _ (List.concat_ne_nil a here) (List.concat_ne_nil b here)
  simp only [at?_removeTree (List.concat_ne_nil a here)] at hat
  have hothers : ∀ l, ¬ here ++ [a] <+: l → ¬ here ++ [b] <+: l →
      (fs.moveTree (here ++ [a]) (here ++ [b])).at? l = fs.at? l := by
    intro l hla hlb
    rw [hat, if_neg hlb, if_neg hla]
  have hsource : fs.at? (here ++ [a]) ≠ some .directory := by
    rw [hfile]
    nofun
  have hstays : ∀ c, IsProperName c → fs.locate ⟨front ++ [c]⟩ = .ok (here ++ [c]) →
      fs.at? (here ++ [c]) ≠ some .directory →
      (fs.moveTree (here ++ [a]) (here ++ [b])).locate ⟨front ++ [c]⟩ = .ok (here ++ [c]) := by
    intro c hc hlocate hplace
    exact locate_concat_of_at? hc hlocate hsource hnoDirectory (not_prefix_of_concat a)
      (not_prefix_of_concat b) (workingDirectory_moveTree _ _) hothers hplace
  refine ⟨rfl, hstays a ha hlocate hsource, ?_, hstays b hb htarget hnoDirectory, ?_, hothers⟩
  · rw [hat, if_neg hba, if_pos (List.prefix_refl _)]
  · rw [hat, if_pos (List.prefix_refl _), List.drop_length, List.append_nil, hfile, Option.some_or]

/-- A file that is written under one name and renamed to another one in the same directory is all that
is left at either, and nothing else changes. -/
theorem exists_of_write_of_rename (ha : IsProperName a) (hb : IsProperName b) (hne : a ≠ b)
    (hfront : front ≠ []) (hwrite : fs.write ⟨front ++ [a]⟩ content = .ok fs')
    (hrename : fs'.rename ⟨front ++ [a]⟩ ⟨front ++ [b]⟩ = .ok fs'') :
    ∃ here, fs''.workingDirectory = fs.workingDirectory
      ∧ fs''.locate ⟨front ++ [a]⟩ = .ok (here ++ [a]) ∧ fs''.at? (here ++ [a]) = none
      ∧ fs''.locate ⟨front ++ [b]⟩ = .ok (here ++ [b]) ∧ fs''.at? (here ++ [b]) = some (.file content)
      ∧ ∀ l, ¬ here ++ [a] <+: l → ¬ here ++ [b] <+: l → fs''.at? l = fs.at? l := by
  obtain ⟨source, hlocate, -, hfree, rfl⟩ := write_eq_ok.mp hwrite
  obtain ⟨here, rfl⟩ : ∃ here, source = here ++ [a] := ⟨_, (locate_concat_eq_ok ha hlocate).1⟩
  have hwritten := @at?_put fs _ (List.concat_ne_nil a here) (.file content)
  obtain ⟨hwd, hsource, hgone, htarget, hfile, hothers⟩ := exists_of_rename_concat ha hb hne hfront
    (locate_put_of_locate hfree hlocate) (by rw [hwritten, if_pos rfl]) hrename
  refine ⟨here, hwd, hsource, hgone, htarget, hfile, fun l hla hlb => ?_⟩
  rw [hothers l hla hlb, hwritten, if_neg]
  rintro rfl
  exact hla (List.prefix_refl _)

end DslBindings.FileSystem
