import DslBindings.Proofs.DirectoryCache.Staging

/-!
# One call of a cache

What one call does to the files, seen from where the root of the cache leads. A directory is staged when
it can be populated, and it stays so while work that is confined to it goes on (`IsStaged`); from there a
call can only end in two ways, by giving the directory the name of its key or by removing it.
-/

namespace DslBindings

/-- All that is at a location and below, as seen from it. -/
abbrev Tree := Location → Option FileEntry

def FileSystem.treeAt (fs : FileSystem) (here : Location) : Tree := fun l => fs.at? (here ++ l)

/-- Work on a directory that changes nothing but what is below. -/
def IsConfined {ε : Type} (populate : Path → Work ε Unit) : Prop :=
  ∀ (p : Path) (w : Workspace) (here : Location),
    w.files.locate p = .ok here → w.files.at? here = some .directory →
      ((populate p).runAt w).2.files.workingDirectory = w.files.workingDirectory
        ∧ ∀ l, ¬ FileSystem.IsBelow here l →
          ((populate p).runAt w).2.files.at? l = w.files.at? l

namespace DirectoryCache

open FileSystem

variable {ε : Type} {cache : DirectoryCache} {key : CacheKey} {populate : Path → Work ε Unit}
  {fs fs' base : FileSystem}

/-- What a call that populates the directory of a key has put there once that is done. -/
def population (cache : DirectoryCache) (key : CacheKey) (populate : Path → Work ε Unit) :
    Work (CacheError ε) Tree := do
  let staging ← cache.prepare key
  (populate staging).failingWith .population
  let fs ← Work.files
  match fs.locate staging with
  | .ok here => return fs.treeAt here
  | .error e => throw (.io e)

/-- What a cache takes for granted of the names that it is given. -/
structure TakesNames (cache : DirectoryCache) (key : CacheKey) (wd : Location) : Prop where
  isProperName : ∀ name ∈ wd, IsProperName name
  slash_not_mem_label : '/' ∉ key.label.toList
  slash_not_mem_stagingLabel : '/' ∉ cache.stagingLabel.toList
  isReachedFromOutside : IsReachedFromOutside wd cache.root

/-- The directory of a key is staged: between the files before the call, `fs`, and those that are there
now, `fs'`, only the staged directory matters. Its name was chosen with the files `base`. -/
structure IsStaged (cache : DirectoryCache) (key : CacheKey) (base fs fs' : FileSystem) : Prop where
  workingDirectory_base : base.workingDirectory = fs.workingDirectory
  workingDirectory : fs'.workingDirectory = fs.workingDirectory
  locate : fs'.locate (cache.staging base key)
    = .ok (cache.place fs.workingDirectory ++ [cache.stagingName base key])
  isDirectory : fs'.at? (cache.place fs.workingDirectory ++ [cache.stagingName base key])
    = some .directory
  free : fs.at? (cache.place fs.workingDirectory ++ [cache.stagingName base key]) = none
  beside (name : String) (rest : Location) (h : name ≠ cache.stagingName base key) :
    fs'.at? (cache.place fs.workingDirectory ++ name :: rest)
      = fs.at? (cache.place fs.workingDirectory ++ name :: rest)
  outside (l : Location) (h : ¬ IsBelow (cache.place fs.workingDirectory) l)
    (hdir : fs.at? l = some .directory) : fs'.at? l = some .directory

/-! ### Staging -/

theorem prepare_cases (cache : DirectoryCache) (key : CacheKey) (w : Workspace) :
    (∃ e w', (cache.prepare key : Work (CacheError ε) Path).runAt w = (.error (.io e), w')
      ∧ Grows (Passes w.files.workingDirectory cache.root) w.files w'.files)
    ∨ ∃ base w', (cache.prepare key : Work (CacheError ε) Path).runAt w
        = (.ok (cache.staging base key), w')
      ∧ Grows (Passes w.files.workingDirectory cache.root) w.files base
      ∧ base.createDirectory (cache.staging base key) = .ok w'.files := by
  obtain ⟨hgrows, -⟩ := Work.onlyGrows_createDirectories cache.root w
  rcases hroot : (Work.createDirectories cache.root).runAt w with ⟨e | _, w₁⟩
  · left
    have hfail : ((Work.createDirectories cache.root).failingWith
        (CacheError.io : IoError → CacheError ε)).runAt w = (.error (.io e), w₁) := by
      rw [Work.runAt_failingWith, hroot]
      rfl
    rw [hroot] at hgrows
    exact ⟨e, w₁, by rw [prepare, Work.runAt_bind_error hfail], hgrows⟩
  · have hmade : ((Work.createDirectories cache.root).failingWith
        (CacheError.io : IoError → CacheError ε)).runAt w = (.ok (), w₁) := by
      rw [Work.runAt_failingWith, hroot]
      rfl
    rw [hroot] at hgrows
    rw [prepare, Work.runAt_bind_ok hmade, Work.runAt_files_bind]
    cases hstaging : w₁.files.createDirectory (cache.staging w₁.files key) with
    | error e =>
      left
      refine ⟨e, w₁, ?_, hgrows⟩
      rw [Work.runAt_bind, Work.runAt_change, hstaging]
      rfl
    | ok fs =>
      right
      refine ⟨w₁.files, { w₁ with files := fs }, ?_, hgrows, hstaging⟩
      rw [Work.runAt_bind, Work.runAt_change, hstaging]
      rfl

theorem withoutTrailingSlashes_staging {wd : Location} (h : TakesNames cache key wd)
    (fs : FileSystem) :
    (cache.staging fs key).withoutTrailingSlashes = cache.staging fs key := by
  rw [staging_eq h.slash_not_mem_label h.slash_not_mem_stagingLabel]
  exact Path.withoutTrailingSlashes_concat (isProperName_stagingName cache fs key).ne_empty _

/-- Where growing does not reach, everything is as it was. -/
theorem at?_of_grows (h : TakesNames cache key fs.workingDirectory)
    (hgrows : Grows (Passes fs.workingDirectory cache.root) fs fs') {l : Location}
    (hl : IsBelow (cache.place fs.workingDirectory) l) : fs'.at? l = fs.at? l := by
  rcases hgrows.at? l with hsame | ⟨hpasses, -⟩
  · exact hsame
  · exact absurd hl (h.isReachedFromOutside l hpasses)

theorem isStaged_of_createDirectory
    (h : TakesNames cache key fs.workingDirectory)
    (hgrows : Grows (Passes fs.workingDirectory cache.root) fs base)
    (hmade : base.createDirectory (cache.staging base key) = .ok fs') :
    IsStaged cache key base fs fs' := by
  have hwd := hgrows.workingDirectory
  obtain ⟨l, hlocate, hnone, rfl⟩ := createDirectory_eq_ok.mp hmade
  rw [withoutTrailingSlashes_staging h] at hlocate
  obtain rfl := eq_of_locate_staging (hwd ▸ h.isProperName) h.slash_not_mem_label
    h.slash_not_mem_stagingLabel rfl hlocate
  rw [hwd] at hlocate hnone ⊢
  set s := cache.place fs.workingDirectory ++ [cache.stagingName base key] with hs
  have hne : s ≠ [] := by simp [hs]
  have hbelow : IsBelow (cache.place fs.workingDirectory) s := ⟨_, [], rfl⟩
  refine ⟨hwd, hwd, ?_, ?_, ?_, ?_, ?_⟩
  · refine locate_mono (workingDirectory_put s .directory) (fun m _ hm => ?_) hlocate
    rw [at?_put hne]
    split
    · rfl
    · exact hm
  · rw [at?_put hne, if_pos rfl]
  · rw [← at?_of_grows h hgrows hbelow]
    exact hnone
  · intro name rest hname
    have hl : cache.place fs.workingDirectory ++ name :: rest ≠ s := by
      intro heq
      exact hname (List.cons.inj (List.append_cancel_left heq)).1
    rw [at?_put hne, if_neg hl]
    exact at?_of_grows h hgrows ⟨name, rest, rfl⟩
  · intro l hl hdir
    have hls : l ≠ s := by
      rintro rfl
      exact hl hbelow
    rw [at?_put hne, if_neg hls]
    rcases hgrows.at? l with hsame | ⟨-, -, hdir'⟩
    · rw [hsame, hdir]
    · exact hdir'

/-! ### Populating -/

/-- A directory that is staged stays so if nothing changes but what is below. -/
theorem IsStaged.of_unchanged (h : TakesNames cache key fs.workingDirectory)
    (hstaged : IsStaged cache key base fs fs') {fs'' : FileSystem}
    (hwd : fs''.workingDirectory = fs'.workingDirectory)
    (hsame : ∀ l, ¬ IsBelow (cache.place fs.workingDirectory ++ [cache.stagingName base key]) l →
      fs''.at? l = fs'.at? l) : IsStaged cache key base fs fs'' := by
  have hbase := hstaged.workingDirectory_base
  set s := cache.place fs.workingDirectory ++ [cache.stagingName base key] with hs
  have hself : ¬ IsBelow s s := by
    rintro ⟨name, rest, heq⟩
    simp at heq
  have houtside (l : Location) (hl : ¬ IsBelow (cache.place fs.workingDirectory) l) :
      ¬ IsBelow s l := by
    rintro ⟨name, rest, rfl⟩
    exact hl ⟨_, name :: rest, by rw [hs, List.append_assoc]; rfl⟩
  refine ⟨hbase, hwd.trans hstaged.workingDirectory, ?_, ?_, hstaged.free, ?_, ?_⟩
  · refine locate_mono hwd (fun m hm hdir => ?_) hstaged.locate
    rw [hstaged.workingDirectory, ← hbase] at hm
    have hnotBelow : ¬ IsBelow s m := by
      rcases passes_staging (hbase ▸ h.isProperName) h.slash_not_mem_label
        h.slash_not_mem_stagingLabel (hbase ▸ h.isReachedFromOutside) hm with rfl | hm
      · rw [hbase]
        exact hself
      · rw [hbase] at hm
        exact houtside m hm
    rw [hsame m hnotBelow, hdir]
  · rw [hsame s hself, hstaged.isDirectory]
  · intro name rest hname
    have hnotBelow : ¬ IsBelow s (cache.place fs.workingDirectory ++ name :: rest) := by
      rintro ⟨n, r, heq⟩
      rw [hs, List.append_assoc] at heq
      exact hname (List.cons.inj (List.append_cancel_left heq)).1
    rw [hsame _ hnotBelow, hstaged.beside name rest hname]
  · intro l hl hdir
    rw [hsame l (houtside l hl), hstaged.outside l hl hdir]

/-- A directory that is staged stays so while work that is confined to it goes on. -/
theorem IsStaged.of_populate (h : TakesNames cache key fs.workingDirectory)
    (hconfined : IsConfined populate) {w : Workspace} (hstaged : IsStaged cache key base fs w.files) :
    IsStaged cache key base fs
      ((populate (cache.staging base key)).runAt w).2.files := by
  obtain ⟨hwd, hsame⟩ := hconfined _ w _ hstaged.locate hstaged.isDirectory
  exact hstaged.of_unchanged h hwd hsame

theorem IsStaged.locate_directory (h : TakesNames cache key fs.workingDirectory)
    (hstaged : IsStaged cache key base fs fs') :
    fs'.locate (cache.directory key)
      = .ok (cache.place fs.workingDirectory ++ [key.directoryName]) := by
  have hbase := hstaged.workingDirectory_base
  rw [← hbase]
  exact locate_directory_of_locate_staging (hbase ▸ h.isProperName) h.slash_not_mem_label
    h.slash_not_mem_stagingLabel (hstaged.workingDirectory.trans hbase.symm) hstaged.locate

/-! ### The two ends -/

/-- What holds of the files after a call, whatever is below where the root leads. -/
structure Leaves (cache : DirectoryCache) (fs fs' : FileSystem) : Prop where
  workingDirectory : fs'.workingDirectory = fs.workingDirectory
  outside (l : Location) (h : ¬ IsBelow (cache.place fs.workingDirectory) l)
    (hdir : fs.at? l = some .directory) : fs'.at? l = some .directory

/-- Nothing is below what is not there. -/
def IsClosedBelow (fs : FileSystem) (here : Location) : Prop :=
  ∀ name rest, fs.at? (here ++ [name]) = none → fs.at? (here ++ name :: rest) = none

theorem prefix_append_cons_iff {here : Location} {name name' : String} {rest : Location} :
    here ++ [name] <+: here ++ name' :: rest ↔ name = name' := by
  rw [List.prefix_append_right_inj, List.singleton_prefix_cons_iff]

theorem not_prefix_of_not_isBelow {here l : Location} (h : ¬ IsBelow here l) (name : String) :
    ¬ here ++ [name] <+: l := by
  rintro ⟨rest, rfl⟩
  exact h ⟨name, rest, by rw [List.append_assoc]; rfl⟩

/-- A directory that is removed leaves what was there before it was staged. -/
theorem runAt_discardStaging (hclosed : IsClosedBelow fs (cache.place fs.workingDirectory))
    {w : Workspace} (hstaged : IsStaged cache key base fs w.files) :
    ∃ w', (discardStaging (cache.staging base key) : Work ε Unit).runAt w = (.ok (), w')
      ∧ Leaves cache fs w'.files
      ∧ ∀ name rest, w'.files.at? (cache.place fs.workingDirectory ++ name :: rest)
          = fs.at? (cache.place fs.workingDirectory ++ name :: rest) := by
  set s := cache.place fs.workingDirectory ++ [cache.stagingName base key] with hs
  have hne : s ≠ [] := by simp [hs]
  have hremove : w.files.remove (cache.staging base key) = .ok (w.files.removeTree s) := by
    rw [remove, hstaged.locate]
    simp [bind, Except.bind, hs, hstaged.isDirectory, pure, Except.pure]
  refine ⟨{ w with files := w.files.removeTree s }, ?_, ⟨hstaged.workingDirectory, ?_⟩, ?_⟩
  · rw [discardStaging, Work.runAt_files_bind, hremove]
    rfl
  · intro l hl hdir
    rw [at?_removeTree hne, if_neg (not_prefix_of_not_isBelow hl _)]
    exact hstaged.outside l hl hdir
  · intro name rest
    rw [at?_removeTree hne]
    by_cases hname : name = cache.stagingName base key
    · subst hname
      rw [if_pos (prefix_append_cons_iff.mpr rfl)]
      exact (hclosed _ rest hstaged.free).symm
    · rw [if_neg fun hp => hname (prefix_append_cons_iff.mp hp).symm]
      exact hstaged.beside name rest hname

theorem rename_eq_moveTree {source target : Path} {s t : Location} (hs : fs.locate source = .ok s)
    (ht : fs.locate target = .ok t) (hsource : fs.at? s = some .directory)
    (htarget : fs.at? t = none) (hapart : ¬ s <+: t) :
    fs.rename source target = .ok (fs.moveTree s t) := by
  have hne : s ≠ t := by
    rintro rfl
    exact hapart (List.prefix_refl _)
  have hfalse : s.isPrefixOf t = false :=
    Bool.eq_false_iff.mpr fun h => hapart (List.isPrefixOf_iff_prefix.mp h)
  rw [rename, hs, ht]
  simp [bind, Except.bind, hsource, htarget, hne, hfalse, pure, Except.pure]

/-- A directory that is published has the name of its key, with all that was put into it. -/
theorem runAt_publish (h : TakesNames cache key fs.workingDirectory)
    (hclosed : IsClosedBelow fs (cache.place fs.workingDirectory))
    (hfree : ∀ rest, fs.at? (cache.place fs.workingDirectory ++ key.directoryName :: rest) = none)
    {w : Workspace} (hstaged : IsStaged cache key base fs w.files) :
    ∃ w', (publish (cache.staging base key) (cache.directory key) : Work (CacheError ε) Path).runAt w
        = (.ok (cache.directory key), w')
      ∧ Leaves cache fs w'.files
      ∧ w'.files.locate (cache.directory key)
        = .ok (cache.place fs.workingDirectory ++ [key.directoryName])
      ∧ (∀ l, ¬ IsBelow (cache.place fs.workingDirectory) l → w'.files.at? l = w.files.at? l)
      ∧ ∀ name rest, w'.files.at? (cache.place fs.workingDirectory ++ name :: rest)
          = if name = key.directoryName then
              w.files.at? (cache.place fs.workingDirectory ++ cache.stagingName base key :: rest)
            else fs.at? (cache.place fs.workingDirectory ++ name :: rest) := by
  set here := cache.place fs.workingDirectory with hhere
  have hsname : cache.stagingName base key ≠ key.directoryName := stagingName_ne cache base key
  have hs : here ++ [cache.stagingName base key] ≠ [] := by simp
  have ht : here ++ [key.directoryName] ≠ [] := by simp
  have hlocate := hstaged.locate_directory h
  have hnone (rest : Location) : w.files.at? (here ++ key.directoryName :: rest) = none := by
    rw [hstaged.beside _ _ hsname.symm]
    exact hfree rest
  have hfreeNow : ∀ l, here ++ [key.directoryName] <+: l → w.files.at? l = none := by
    rintro l ⟨rest, rfl⟩
    rw [List.append_assoc]
    exact hnone rest
  have hrename : w.files.rename (cache.staging base key) (cache.directory key)
      = .ok (w.files.moveTree (here ++ [cache.stagingName base key])
          (here ++ [key.directoryName])) :=
    rename_eq_moveTree hstaged.locate hlocate hstaged.isDirectory (hnone [])
      fun hp => hsname (prefix_append_cons_iff.mp hp)
  set moved := w.files.moveTree (here ++ [cache.stagingName base key])
    (here ++ [key.directoryName]) with hmoved
  have hat := at?_moveTree hs ht hfreeNow
  rw [← hmoved] at hat
  have houtside (l : Location) (hl : ¬ IsBelow here l) : moved.at? l = w.files.at? l := by
    rw [hat, if_neg (not_prefix_of_not_isBelow hl _), if_neg (not_prefix_of_not_isBelow hl _)]
  have hdirectory : moved.at? (here ++ [key.directoryName]) = some .directory := by
    rw [hat, if_pos (List.prefix_refl _), List.drop_length, List.append_nil]
    exact hstaged.isDirectory
  refine ⟨{ w with files := moved }, ?_, ⟨hstaged.workingDirectory, ?_⟩, ?_, houtside, ?_⟩
  · rw [publish, Work.runAt_files_bind, hrename]
    rfl
  · intro l hl hdir
    exact (houtside l hl).trans (hstaged.outside l hl hdir)
  · refine locate_mono (workingDirectory_moveTree _ _) (fun m hm hdir => ?_) hlocate
    rw [hstaged.workingDirectory] at hm
    rcases passes_directory h.slash_not_mem_label h.isReachedFromOutside hm with rfl | hm
    · exact hdirectory
    · exact (houtside m hm).trans hdir
  · intro name rest
    change moved.at? _ = _
    rw [hat]
    by_cases hname : name = key.directoryName
    · subst hname
      rw [if_pos (prefix_append_cons_iff.mpr rfl), if_pos rfl]
      simp
    · rw [if_neg fun hp => hname (prefix_append_cons_iff.mp hp).symm, if_neg hname]
      by_cases hstage : name = cache.stagingName base key
      · subst hstage
        rw [if_pos (prefix_append_cons_iff.mpr rfl)]
        exact (hclosed _ rest hstaged.free).symm
      · rw [if_neg fun hp => hstage (prefix_append_cons_iff.mp hp).symm]
        exact hstaged.beside name rest hstage

/-! ### The whole call -/

theorem runAt_directoryFor (cache : DirectoryCache) (key : CacheKey)
    (populate : Path → Work ε Unit) (w : Workspace) :
    (cache.directoryFor key populate).runAt w =
      if w.files.isDirectory (cache.directory key) then
        (.ok (cache.directory key), { w with events := w.events ++ [.cacheAccess key] })
      else
        (cache.create key populate).runAt { w with events := w.events ++ [.cacheAccess key] } := by
  rw [directoryFor, Work.runAt_bind_ok (Work.runAt_record _ _), Work.runAt_files_bind]
  split <;> rfl

theorem leaves_of_grows
    (hgrows : Grows (Passes fs.workingDirectory cache.root) fs fs') : Leaves cache fs fs' := by
  refine ⟨hgrows.workingDirectory, fun l _ hdir => ?_⟩
  rcases hgrows.at? l with hsame | ⟨-, -, hdir'⟩
  · rw [hsame, hdir]
  · exact hdir'

theorem runAt_population_error {w w₁ w₂ : Workspace} {p : Path} {e : ε}
    (hprepare : (cache.prepare key : Work (CacheError ε) Path).runAt w = (.ok p, w₁))
    (hpopulate : (populate p).runAt w₁ = (.error e, w₂)) :
    (cache.population key populate).runAt w = (.error (.population e), w₂) := by
  have hfail : ((populate p).failingWith CacheError.population).runAt w₁
      = (.error (.population e), w₂) := by
    rw [Work.runAt_failingWith, hpopulate]
    rfl
  rw [population, Work.runAt_bind_ok hprepare, Work.runAt_bind_error hfail]

theorem runAt_population_ok {w w₁ w₂ : Workspace} {p : Path} {here : Location}
    (hprepare : (cache.prepare key : Work (CacheError ε) Path).runAt w = (.ok p, w₁))
    (hpopulate : (populate p).runAt w₁ = (.ok (), w₂)) (hlocate : w₂.files.locate p = .ok here) :
    (cache.population key populate).runAt w = (.ok (w₂.files.treeAt here), w₂) := by
  have hdone : ((populate p).failingWith CacheError.population).runAt w₁ = (.ok (), w₂) := by
    rw [Work.runAt_failingWith, hpopulate]
    rfl
  rw [population, Work.runAt_bind_ok hprepare, Work.runAt_bind_ok hdone, Work.runAt_files_bind,
    hlocate]
  rfl

/-- A call that populates its directory ends as the publication does. -/
theorem runAt_create_of_populated {w w₁ w₂ w₃ : Workspace} {p q : Path}
    (hprepare : (cache.prepare key : Work (CacheError ε) Path).runAt w = (.ok p, w₁))
    (hpopulate : (populate p).runAt w₁ = (.ok (), w₂))
    (hpublish : (publish p (cache.directory key) : Work (CacheError ε) Path).runAt w₂ = (.ok q, w₃)) :
    (cache.create key populate).runAt w = (.ok q, w₃) := by
  rw [create, Work.runAt_bind_ok hprepare, Work.runAt_bind, Work.runAt_outcome, hpopulate]
  exact hpublish

/-- A call that finds nothing under the name of its key ends as its population does. Either it fails and
leaves all that was below the root, or it puts there what was populated and nothing else. -/
theorem create_cases {w : Workspace} (h : TakesNames cache key w.files.workingDirectory)
    (hconfined : IsConfined populate)
    (hclosed : IsClosedBelow w.files (cache.place w.files.workingDirectory))
    (hfree : ∀ rest,
      w.files.at? (cache.place w.files.workingDirectory ++ key.directoryName :: rest) = none) :
    ∃ w', Leaves cache w.files w'.files ∧
      ((∃ e, ((cache.population key populate).runAt w).1 = .error e
          ∧ (cache.create key populate).runAt w = (.error e, w')
          ∧ ∀ name rest, w'.files.at? (cache.place w.files.workingDirectory ++ name :: rest)
            = w.files.at? (cache.place w.files.workingDirectory ++ name :: rest))
        ∨ ∃ tree, ((cache.population key populate).runAt w).1 = .ok tree
          ∧ (cache.create key populate).runAt w = (.ok (cache.directory key), w')
          ∧ tree [] = some .directory
          ∧ w'.files.locate (cache.directory key)
            = .ok (cache.place w.files.workingDirectory ++ [key.directoryName])
          ∧ ∀ name rest, w'.files.at? (cache.place w.files.workingDirectory ++ name :: rest)
            = if name = key.directoryName then tree rest
              else w.files.at? (cache.place w.files.workingDirectory ++ name :: rest)) := by
  rcases prepare_cases (ε := ε) cache key w with
    ⟨e, w₁, hprepare, hgrows⟩ | ⟨base, w₁, hprepare, hgrows, hmade⟩
  · refine ⟨w₁, leaves_of_grows hgrows, .inl ⟨.io e, ?_, ?_, ?_⟩⟩
    · rw [population, Work.runAt_bind_error hprepare]
    · rw [create, Work.runAt_bind_error hprepare]
    · intro name rest
      exact at?_of_grows h hgrows ⟨name, rest, rfl⟩
  · have hstaged := (isStaged_of_createDirectory h hgrows hmade).of_populate h hconfined
    rcases hpopulate : (populate (cache.staging base key)).runAt w₁ with ⟨e | _, w₂⟩
    · rw [hpopulate] at hstaged
      obtain ⟨w', hdiscard, hleaves, hsame⟩ := runAt_discardStaging hclosed hstaged
      refine ⟨w', hleaves, .inl ⟨.population e, ?_, ?_, hsame⟩⟩
      · rw [runAt_population_error hprepare hpopulate]
      · rw [create, Work.runAt_bind_ok hprepare, Work.runAt_bind, Work.runAt_outcome, hpopulate]
        change (discardStaging (cache.staging base key) >>= _).runAt w₂ = _
        rw [Work.runAt_bind_ok hdiscard]
        rfl
    · rw [hpopulate] at hstaged
      obtain ⟨w', hpublish, hleaves, hlocate, -, hat⟩ := runAt_publish (ε := ε) h hclosed hfree hstaged
      have htree (rest : Location) :
          w₂.files.treeAt (cache.place w.files.workingDirectory ++ [cache.stagingName base key]) rest
            = w₂.files.at? (cache.place w.files.workingDirectory
              ++ cache.stagingName base key :: rest) := by
        rw [treeAt, List.append_assoc]
        rfl
      refine ⟨w', hleaves, .inr ⟨_, ?_, runAt_create_of_populated hprepare hpopulate hpublish,
        (htree []).trans hstaged.isDirectory, hlocate, ?_⟩⟩
      · rw [runAt_population_ok hprepare hpopulate hstaged.locate]
      · intro name rest
        rw [hat, htree]

end DirectoryCache

end DslBindings
