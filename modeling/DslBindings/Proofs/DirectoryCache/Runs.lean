import DslBindings.Proofs.DirectoryCache.Call

/-!
# Runs of calls of a cache

Calls of caches with one root, one after another. What the root should hold by then is kept on a shelf:
under each name, what the first call to populate its directory wrote. The shelf and the files agree after
every call (`IsFaithful`), so nothing that fails, and nothing that comes later, is ever to be seen.
-/

namespace DslBindings

open FileSystem

/-- A call of a cache. -/
structure CacheCall (ε : Type) where
  key : CacheKey
  stagingLabel : String
  populate : Path → Work ε Unit
  slash_not_mem_label : '/' ∉ key.label.toList
  slash_not_mem_stagingLabel : '/' ∉ stagingLabel.toList
  isConfined : IsConfined populate

namespace CacheCall

variable {ε : Type}

/-- The cache that is called. -/
def cache (root : Path) (c : CacheCall ε) : DirectoryCache := ⟨root, c.stagingLabel⟩

def directory (root : Path) (c : CacheCall ε) : Path := (c.cache root).directory c.key

/-- What is done. -/
def work (root : Path) (c : CacheCall ε) : Work (CacheError ε) Path :=
  (c.cache root).directoryFor c.key c.populate

/-- A workspace once it is recorded in it that the directory is asked for. -/
def asked (c : CacheCall ε) (w : Workspace) : Workspace :=
  { w with events := w.events ++ [.cacheAccess c.key] }

/-- What would be populated if the directory were not there. -/
def population (root : Path) (c : CacheCall ε) (w : Workspace) : Except (CacheError ε) Tree :=
  (((c.cache root).population c.key c.populate).runAt (c.asked w)).1

theorem isConfined_writeFile {name : String} (hname : IsProperName name) (hslash : '/' ∉ name.toList)
    (content : List UInt8) (e : ε) :
    IsConfined fun p => Work.change fun fs =>
      (fs.write (p.joinText name) content).mapError fun _ => e := by
  intro p w here hlocate _
  rw [Work.runAt_change]
  cases hwrite : w.files.write (p.joinText name) content with
  | error _ => exact ⟨rfl, fun _ _ => rfl⟩
  | ok fs =>
    obtain ⟨l, hl, rfl⟩ := exists_of_write hwrite
    rw [Path.joinText_eq hslash, Path.withoutTrailingSlashes_concat hname.ne_empty] at hl
    rw [eq_destination_of_locate hl, destination_stem_append hname,
      ← eq_destination_of_locate hlocate]
    refine ⟨rfl, fun m hm => ?_⟩
    have hne : here ++ [name] ≠ [] := by simp
    refine (at?_put hne _ m).trans (if_neg ?_)
    rintro rfl
    exact hm ⟨name, [], rfl⟩

/-- A call that puts a file into the directory of a key. -/
def ofFile (key : CacheKey) (hkey : '/' ∉ key.label.toList) (name : String)
    (hname : IsProperName name) (hslash : '/' ∉ name.toList) (content : List UInt8) :
    CacheCall Unit where
  key := key
  stagingLabel := "staged"
  populate p := Work.change fun fs => (fs.write (p.joinText name) content).mapError fun _ => ()
  slash_not_mem_label := hkey
  slash_not_mem_stagingLabel := by decide
  isConfined := isConfined_writeFile hname hslash content ()

end CacheCall

/-- What a cache has come to. -/
structure CacheRun where
  workspace : Workspace
  /-- What the first call to succeed for a name has populated, by this name. -/
  shelf : List (String × Tree) := []

namespace CacheRun

variable {ε : Type} {root : Path} {wd : Location} {r : CacheRun}

def after (root : Path) (r : CacheRun) (c : CacheCall ε) : CacheRun where
  workspace := ((c.work root).runAt r.workspace).2
  shelf :=
    match r.shelf.lookup c.key.directoryName, ((c.work root).runAt r.workspace).1,
      c.population root r.workspace with
    | none, .ok _, .ok tree => (c.key.directoryName, tree) :: r.shelf
    | _, _, _ => r.shelf

/-- What a cache comes to by calls that are made one after another. -/
def ofCalls (root : Path) (w : Workspace) (calls : List (CacheCall ε)) : CacheRun :=
  calls.foldl (after root) ⟨w, []⟩

/-- The directories below the root are those on the shelf, with what is kept there. -/
structure IsFaithful (root : Path) (wd : Location) (r : CacheRun) : Prop where
  workingDirectory : r.workspace.files.workingDirectory = wd
  at? (name : String) (rest : Location) :
    r.workspace.files.at? (destination wd root ++ name :: rest)
      = (r.shelf.lookup name).bind (· rest)
  isProperName (name : String) (tree : Tree) (h : r.shelf.lookup name = some tree) :
    IsProperName name
  isDirectory (name : String) (tree : Tree) (h : r.shelf.lookup name = some tree) :
    tree [] = some .directory
  locate (name : String) (tree : Tree) (h : r.shelf.lookup name = some tree) :
    r.workspace.files.locate ⟨root.stem ++ [name]⟩ = .ok (destination wd root ++ [name])

theorem takesNames (hwd : ∀ name ∈ wd, IsProperName name) (hout : IsReachedFromOutside wd root)
    (c : CacheCall ε) : DirectoryCache.TakesNames (c.cache root) c.key wd :=
  ⟨hwd, c.slash_not_mem_label, c.slash_not_mem_stagingLabel, hout⟩

theorem directory_eq (root : Path) (c : CacheCall ε) :
    c.directory root = ⟨root.stem ++ [c.key.directoryName]⟩ :=
  DirectoryCache.directory_eq c.slash_not_mem_label

/-! ### One call -/

theorem IsFaithful.isDirectory_iff (h : IsFaithful root wd r) (c : CacheCall ε) :
    r.workspace.files.isDirectory (c.directory root) = true
      ↔ (r.shelf.lookup c.key.directoryName).isSome := by
  rw [isDirectory_eq_true]
  constructor
  · rintro ⟨l, hlocate, hdir⟩
    have hl := DirectoryCache.eq_of_locate_directory c.slash_not_mem_label hlocate
    rw [h.workingDirectory] at hl
    change l = destination wd root ++ [c.key.directoryName] at hl
    rw [hl, h.at?] at hdir
    cases hlookup : r.shelf.lookup c.key.directoryName with
    | none => simp [hlookup] at hdir
    | some tree => rfl
  · intro hsome
    obtain ⟨tree, htree⟩ := Option.isSome_iff_exists.mp hsome
    refine ⟨_, directory_eq root c ▸ h.locate _ tree htree, ?_⟩
    rw [h.at?, htree, Option.bind_some, h.isDirectory _ tree htree]

/-- What is on the shelf is found, and then it does not matter how it would be populated. -/
theorem IsFaithful.runAt_of_isSome (h : IsFaithful root wd r) (c : CacheCall ε)
    (hkept : (r.shelf.lookup c.key.directoryName).isSome) (populate : Path → Work ε Unit) :
    ((c.cache root).directoryFor c.key populate).runAt r.workspace
      = (.ok (c.directory root), c.asked r.workspace) := by
  rw [DirectoryCache.runAt_directoryFor]
  exact if_pos ((h.isDirectory_iff c).mpr hkept)

theorem IsFaithful.runAt_of_isNone (h : IsFaithful root wd r) (c : CacheCall ε)
    (hnew : r.shelf.lookup c.key.directoryName = none) :
    (c.work root).runAt r.workspace
      = ((c.cache root).create c.key c.populate).runAt (c.asked r.workspace) := by
  have hdir : ¬ r.workspace.files.isDirectory (c.directory root) = true := by
    rw [h.isDirectory_iff c, hnew]
    exact Bool.false_ne_true
  rw [CacheCall.work, DirectoryCache.runAt_directoryFor]
  exact if_neg hdir

theorem IsFaithful.isClosedBelow (h : IsFaithful root wd r) :
    DirectoryCache.IsClosedBelow r.workspace.files (destination wd root) := by
  intro name rest hnone
  rw [h.at?] at hnone ⊢
  cases hlookup : r.shelf.lookup name with
  | none => rfl
  | some tree =>
    rw [hlookup, Option.bind_some, h.isDirectory name tree hlookup] at hnone
    cases hnone

/-- How a call ends whose directory is not there. -/
theorem IsFaithful.cases_of_isNone (h : IsFaithful root wd r)
    (hwd : ∀ name ∈ wd, IsProperName name) (hout : IsReachedFromOutside wd root)
    (c : CacheCall ε) (hnew : r.shelf.lookup c.key.directoryName = none) :
    ∃ w', DirectoryCache.Leaves (c.cache root) r.workspace.files w'.files ∧
      ((∃ e, c.population root r.workspace = .error e
          ∧ (c.work root).runAt r.workspace = (.error e, w')
          ∧ ∀ name rest, w'.files.at? (destination wd root ++ name :: rest)
            = r.workspace.files.at? (destination wd root ++ name :: rest))
        ∨ ∃ tree, c.population root r.workspace = .ok tree
          ∧ (c.work root).runAt r.workspace = (.ok (c.directory root), w')
          ∧ tree [] = some .directory
          ∧ w'.files.locate (c.directory root)
            = .ok (destination wd root ++ [c.key.directoryName])
          ∧ ∀ name rest, w'.files.at? (destination wd root ++ name :: rest)
            = if name = c.key.directoryName then tree rest
              else r.workspace.files.at? (destination wd root ++ name :: rest)) := by
  obtain rfl := h.workingDirectory
  have hfree (rest : Location) : r.workspace.files.at?
      (destination r.workspace.files.workingDirectory root ++ c.key.directoryName :: rest) = none := by
    rw [h.at?, hnew]
    rfl
  rw [h.runAt_of_isNone c hnew]
  exact DirectoryCache.create_cases (w := c.asked r.workspace) (takesNames hwd hout c) c.isConfined
    h.isClosedBelow hfree

/-! ### All calls -/

theorem after_of_isSome (c : CacheCall ε) (h : IsFaithful root wd r)
    (hkept : (r.shelf.lookup c.key.directoryName).isSome) :
    r.after root c = { r with workspace := c.asked r.workspace } := by
  obtain ⟨tree, htree⟩ := Option.isSome_iff_exists.mp hkept
  rw [after, CacheCall.work, h.runAt_of_isSome c hkept]
  simp [htree]

theorem shelf_after_of_error (c : CacheCall ε) {w' : Workspace} {e : CacheError ε}
    (hrun : (c.work root).runAt r.workspace = (.error e, w')) :
    (r.after root c).shelf = r.shelf := by
  rw [after, hrun]
  cases r.shelf.lookup c.key.directoryName <;> rfl

theorem shelf_after_of_ok (c : CacheCall ε) {w' : Workspace} {tree : Tree}
    (hnew : r.shelf.lookup c.key.directoryName = none)
    (hpopulation : c.population root r.workspace = .ok tree)
    (hrun : (c.work root).runAt r.workspace = (.ok (c.directory root), w')) :
    (r.after root c).shelf = (c.key.directoryName, tree) :: r.shelf := by
  rw [after, hnew, hrun, hpopulation]

/-- What was on the way to a kept directory is there after every call. -/
theorem IsFaithful.locate_of_leaves (h : IsFaithful root wd r) (hout : IsReachedFromOutside wd root)
    {cache : DirectoryCache} (hcache : cache.root = root) {fs' : FileSystem}
    (hleaves : DirectoryCache.Leaves cache r.workspace.files fs') {name : String} {tree : Tree}
    (hkept : r.shelf.lookup name = some tree)
    (hthere : fs'.at? (destination wd root ++ [name]) = some .directory) :
    fs'.locate ⟨root.stem ++ [name]⟩ = .ok (destination wd root ++ [name]) := by
  obtain rfl := h.workingDirectory
  subst hcache
  refine locate_mono hleaves.workingDirectory (fun m hm hdir => ?_) (h.locate name tree hkept)
  rcases passes_stem_append (h.isProperName name tree hkept) hm with rfl | hm
  · exact hthere
  · exact hleaves.outside m (hout m hm) hdir

/-- What is on a shelf was there before a call, or is where that left it. -/
theorem IsFaithful.of_leaves (h : IsFaithful root wd r) (hout : IsReachedFromOutside wd root)
    {cache : DirectoryCache} (hcache : cache.root = root) {r' : CacheRun}
    (hleaves : DirectoryCache.Leaves cache r.workspace.files r'.workspace.files)
    (hat : ∀ name rest, r'.workspace.files.at? (destination wd root ++ name :: rest)
      = (r'.shelf.lookup name).bind (· rest))
    (hkept : ∀ name tree, r'.shelf.lookup name = some tree → r.shelf.lookup name = some tree
      ∨ IsProperName name ∧ tree [] = some .directory
        ∧ r'.workspace.files.locate ⟨root.stem ++ [name]⟩ = .ok (destination wd root ++ [name])) :
    IsFaithful root wd r' := by
  have hdir (name : String) (tree : Tree) (hnow : r'.shelf.lookup name = some tree) :
      tree [] = some .directory :=
    (hkept name tree hnow).elim (h.isDirectory name tree) fun hnew => hnew.2.1
  refine ⟨hleaves.workingDirectory.trans h.workingDirectory, hat, ?_, hdir, ?_⟩
  · intro name tree hnow
    exact (hkept name tree hnow).elim (h.isProperName name tree) fun hnew => hnew.1
  · intro name tree hnow
    rcases hkept name tree hnow with hbefore | ⟨-, -, hlocate⟩
    · refine h.locate_of_leaves hout hcache hleaves hbefore ?_
      rw [hat, hnow, Option.bind_some, hdir name tree hnow]
    · exact hlocate

theorem IsFaithful.after (h : IsFaithful root wd r) (hwd : ∀ name ∈ wd, IsProperName name)
    (hout : IsReachedFromOutside wd root) (c : CacheCall ε) : IsFaithful root wd (r.after root c) := by
  cases hlookup : r.shelf.lookup c.key.directoryName with
  | some tree =>
    rw [after_of_isSome c h (by rw [hlookup]; rfl)]
    exact ⟨h.workingDirectory, h.at?, h.isProperName, h.isDirectory, h.locate⟩
  | none =>
    obtain ⟨w', hleaves, ⟨e, hpopulation, hrun, hsame⟩ | ⟨tree, hpopulation, hrun, hdir, hlocate, hat⟩⟩ :=
      h.cases_of_isNone hwd hout c hlookup
    · have hshelf := shelf_after_of_error c hrun
      have hfiles : (r.after root c).workspace = w' := by rw [CacheRun.after, hrun]
      refine h.of_leaves hout rfl (hfiles ▸ hleaves) ?_ ?_
      · intro name rest
        rw [hfiles, hshelf, hsame, h.at?]
      · intro name tree hnow
        rw [hshelf] at hnow
        exact .inl hnow
    · have hshelf := shelf_after_of_ok c hlookup hpopulation hrun
      have hfiles : (r.after root c).workspace = w' := by rw [CacheRun.after, hrun]
      refine h.of_leaves hout rfl (hfiles ▸ hleaves) ?_ ?_
      · intro name rest
        rw [hfiles, hshelf, lookup_cons_eq_ite, hat, h.at?]
        split <;> rfl
      · intro name tree' hnow
        rw [hshelf, lookup_cons_eq_ite] at hnow
        split at hnow
        · next hname =>
          obtain rfl := Option.some.inj hnow
          rw [directory_eq] at hlocate
          subst hname
          exact .inr ⟨CacheKey.isProperName_directoryName c.key, hdir, hfiles ▸ hlocate⟩
        · exact .inl hnow

theorem isFaithful_ofCalls {w : Workspace}
    (hwd : ∀ name ∈ w.files.workingDirectory, IsProperName name)
    (hempty : ∀ l, IsBelow (destination w.files.workingDirectory root) l → w.files.at? l = none)
    (hout : IsReachedFromOutside w.files.workingDirectory root) (calls : List (CacheCall ε)) :
    IsFaithful root w.files.workingDirectory (ofCalls root w calls) := by
  have hstart : IsFaithful root w.files.workingDirectory ⟨w, []⟩ := by
    refine ⟨rfl, fun name rest => hempty _ ⟨name, rest, rfl⟩, ?_, ?_, ?_⟩ <;>
      intro name tree h <;> cases h
  rw [ofCalls]
  generalize (⟨w, []⟩ : CacheRun) = r at hstart ⊢
  induction calls generalizing r with
  | nil => exact hstart
  | cons c calls ih => exact ih _ (hstart.after hwd hout c)

/-- A call succeeds just if the name of its directory is on the shelf then. -/
theorem IsFaithful.result_eq_ok_iff (h : IsFaithful root wd r)
    (hwd : ∀ name ∈ wd, IsProperName name) (hout : IsReachedFromOutside wd root)
    (c : CacheCall ε) (p : Path) :
    ((c.work root).runAt r.workspace).1 = .ok p ↔
      p = c.directory root ∧ ((r.after root c).shelf.lookup c.key.directoryName).isSome := by
  cases hlookup : r.shelf.lookup c.key.directoryName with
  | some tree =>
    have hkept : (r.shelf.lookup c.key.directoryName).isSome := by
      rw [hlookup]
      rfl
    rw [after_of_isSome c h hkept, CacheCall.work, h.runAt_of_isSome c hkept]
    simp [hlookup, eq_comm]
  | none =>
    obtain ⟨w', -, ⟨e, -, hrun, -⟩ | ⟨tree, hpopulation, hrun, -⟩⟩ :=
      h.cases_of_isNone hwd hout c hlookup
    · rw [hrun, shelf_after_of_error c hrun, hlookup]
      simp
    · rw [hrun, shelf_after_of_ok c hlookup hpopulation hrun]
      simp [eq_comm]

theorem IsFaithful.lookup_after_of_ne (h : IsFaithful root wd r)
    (hwd : ∀ name ∈ wd, IsProperName name) (hout : IsReachedFromOutside wd root)
    (c : CacheCall ε) {name : String} (hname : name ≠ c.key.directoryName) :
    (r.after root c).shelf.lookup name = r.shelf.lookup name := by
  cases hlookup : r.shelf.lookup c.key.directoryName with
  | some tree => rw [after_of_isSome c h (by rw [hlookup]; rfl)]
  | none =>
    obtain ⟨w', -, ⟨e, -, hrun, -⟩ | ⟨tree, hpopulation, hrun, -⟩⟩ :=
      h.cases_of_isNone hwd hout c hlookup
    · rw [shelf_after_of_error c hrun]
    · rw [shelf_after_of_ok c hlookup hpopulation hrun, lookup_cons_eq_ite, if_neg hname]

/-- A call whose population fails does so too, and leaves all below the root. -/
theorem IsFaithful.eq_of_population_error (h : IsFaithful root wd r)
    (hwd : ∀ name ∈ wd, IsProperName name) (hout : IsReachedFromOutside wd root)
    (c : CacheCall ε) (hnew : r.shelf.lookup c.key.directoryName = none) {e : CacheError ε}
    (hpopulation : c.population root r.workspace = .error e) :
    ((c.work root).runAt r.workspace).1 = .error e
      ∧ ∀ l, IsBelow (destination wd root) l →
        (r.after root c).workspace.files.at? l = r.workspace.files.at? l := by
  obtain ⟨w', -, ⟨e', hpopulation', hrun, hsame⟩ | ⟨tree, hpopulation', -⟩⟩ :=
    h.cases_of_isNone hwd hout c hnew
  · rw [hpopulation] at hpopulation'
    cases hpopulation'
    rw [CacheRun.after, hrun]
    refine ⟨rfl, ?_⟩
    rintro l ⟨name, rest, rfl⟩
    exact hsame name rest
  · rw [hpopulation] at hpopulation'
    cases hpopulation'

/-- The path of a staged directory leads to a place where nothing was before the call. -/
theorem IsFaithful.at?_staging (h : IsFaithful root wd r) (hwd : ∀ name ∈ wd, IsProperName name)
    (hout : IsReachedFromOutside wd root) (c : CacheCall ε) {staging : Path} {w₁ : Workspace}
    (hprepare : ((c.cache root).prepare c.key : Work (CacheError ε) Path).runAt (c.asked r.workspace)
      = (.ok staging, w₁))
    {fs : FileSystem} (hsame : fs.workingDirectory = wd) {l : Location}
    (hlocate : fs.locate staging = .ok l) :
    ∃ name, name ≠ c.key.directoryName ∧ r.shelf.lookup name = none
      ∧ l = destination wd root ++ [name] := by
  obtain rfl := h.workingDirectory
  have htakes := takesNames hwd hout c
  rcases DirectoryCache.prepare_cases (ε := ε) (c.cache root) c.key (c.asked r.workspace) with
    ⟨e, w', hfail, -⟩ | ⟨base, w', hdone, hgrows, hmade⟩
  · rw [hprepare] at hfail
    cases hfail
  · rw [hprepare] at hdone
    cases hdone
    have hstaged := DirectoryCache.isStaged_of_createDirectory htakes hgrows hmade
    have hbase := hstaged.workingDirectory_base
    refine ⟨_, DirectoryCache.stagingName_ne (c.cache root) base c.key, ?_, ?_⟩
    · have hfree := hstaged.free
      change r.workspace.files.at? (destination r.workspace.files.workingDirectory root ++ [_]) = none
        at hfree
      rw [h.at?] at hfree
      cases hlookup : r.shelf.lookup ((c.cache root).stagingName base c.key) with
      | none => rfl
      | some tree =>
        rw [hlookup, Option.bind_some, h.isDirectory _ tree hlookup] at hfree
        cases hfree
    · have hl := DirectoryCache.eq_of_locate_staging (hbase ▸ hwd) c.slash_not_mem_label
        c.slash_not_mem_stagingLabel (hsame.trans hbase.symm) hlocate
      rw [hl, hbase]
      rfl

/-- However many calls a cache has answered over a root below which there was nothing, and whichever way
they ended, there is below the root exactly what was populated first for each name that a call has
succeeded for. A call that populates ends as that does: if it fails, so does the call, and all below the
root is as it was. Nothing is left where a directory was staged. A directory that is there is found, and
then it does not matter how it would be populated. -/
theorem keeps_first_populations (root : Path) (w : Workspace)
    (hwd : ∀ name ∈ w.files.workingDirectory, IsProperName name)
    (hempty : ∀ l, IsBelow (destination w.files.workingDirectory root) l → w.files.at? l = none)
    (hroot : w.files.isDirectory root = true ∨ IsReachedFromOutside w.files.workingDirectory root)
    (calls : List (CacheCall ε)) (c : CacheCall ε) :
    let here := destination w.files.workingDirectory root
    let before := ofCalls root w calls
    let after := before.after root c
    let result := ((c.work root).runAt before.workspace).1
    let isThere := before.workspace.files.isDirectory (c.directory root)
    -- What is below the root, and which calls have succeeded.
    (∀ name rest, after.workspace.files.at? (here ++ name :: rest)
        = (after.shelf.lookup name).bind (· rest))
      ∧ (∀ name tree, after.shelf.lookup name = some tree → tree [] = some .directory)
      ∧ (∀ p, result = .ok p ↔
        p = c.directory root ∧ (after.shelf.lookup c.key.directoryName).isSome)
      -- No staged directory is left.
      ∧ (∀ staging w' l,
        ((c.cache root).prepare c.key : Work (CacheError ε) Path).runAt (c.asked before.workspace)
            = (.ok staging, w') →
          after.workspace.files.locate staging = .ok l → after.workspace.files.at? l = none)
      -- A population that fails.
      ∧ (∀ e, isThere = false → c.population root before.workspace = .error e →
        result = .error e ∧ ∀ l, IsBelow here l →
          after.workspace.files.at? l = before.workspace.files.at? l)
      -- A directory that is there.
      ∧ ((before.shelf.lookup c.key.directoryName).isSome → isThere = true)
      ∧ (isThere = true → after.shelf = before.shelf ∧ ∀ populate : Path → Work ε Unit,
        ((c.cache root).directoryFor c.key populate).runAt before.workspace
          = (.ok (c.directory root), c.asked before.workspace)) := by
  intro here before after result isThere
  have hout : IsReachedFromOutside w.files.workingDirectory root :=
    hroot.elim (isReachedFromOutside_of_isDirectory · hempty) id
  have hbefore : IsFaithful root w.files.workingDirectory before :=
    isFaithful_ofCalls hwd hempty hout calls
  have hafter : IsFaithful root w.files.workingDirectory after := hbefore.after hwd hout c
  have hiff : isThere = true ↔ (before.shelf.lookup c.key.directoryName).isSome :=
    hbefore.isDirectory_iff c
  have hnew : isThere = false → before.shelf.lookup c.key.directoryName = none := by
    intro hthere
    rw [← Option.not_isSome_iff_eq_none, ← hiff, hthere]
    exact Bool.false_ne_true
  refine ⟨hafter.at?, hafter.isDirectory, hbefore.result_eq_ok_iff hwd hout c, ?_, ?_, hiff.mpr, ?_⟩
  · intro staging w' l hprepare hlocate
    obtain ⟨name, hname, hfree, rfl⟩ :=
      hbefore.at?_staging hwd hout c hprepare hafter.workingDirectory hlocate
    rw [hafter.at?, hbefore.lookup_after_of_ne hwd hout c hname, hfree]
    rfl
  · intro e hthere hpopulation
    exact hbefore.eq_of_population_error hwd hout c (hnew hthere) hpopulation
  · intro hthere
    have heq : after = _ := after_of_isSome c hbefore (hiff.mp hthere)
    exact ⟨by rw [heq], hbefore.runAt_of_isSome c (hiff.mp hthere)⟩

theorem keeps_first_populations_missing_root :
    let c := CacheCall.ofFile ⟨"k", []⟩ (by decide) "a" (by decide) (by decide) [1]
    let root := Path.ofText "r"
    let run := (ofCalls root ⟨.empty, []⟩ [c, c]).after root c
    (∀ name ∈ FileSystem.empty.workingDirectory, IsProperName name)
      ∧ (∀ l, IsBelow ["r"] l → FileSystem.empty.at? l = none)
      ∧ IsReachedFromOutside [] root
      ∧ ∀ name rest, run.workspace.files.at? (["r"] ++ name :: rest)
        = (run.shelf.lookup name).bind (· rest) := by
  intro c root run
  have hwd : ∀ name ∈ FileSystem.empty.workingDirectory, IsProperName name := by
    intro name hname
    cases hname
  have hempty : ∀ l, IsBelow ["r"] l → FileSystem.empty.at? l = none := by
    rintro l ⟨name, rest, rfl⟩
    exact at?_empty (by simp)
  have hout : IsReachedFromOutside [] root := isReachedFromOutside_of_forall_ne (by decide) []
  exact ⟨hwd, hempty, hout,
    (keeps_first_populations root ⟨.empty, []⟩ hwd hempty (.inr hout) [c, c] c).1⟩

/-- A root that is reached from below: making the way to it leaves a directory there for good. -/
theorem missing_root_reached_from_below :
    let c := CacheCall.ofFile ⟨"k", []⟩ (by decide) "a" (by decide) (by decide) [1]
    let root := Path.ofText "r/sub/.."
    let after := ofCalls root ⟨.empty, []⟩ [c]
    destination [] root = ["r"]
      ∧ FileSystem.empty.at? ["r"] = none
      ∧ (∀ l, IsBelow ["r"] l → FileSystem.empty.at? l = none)
      ∧ ((c.work root).runAt ⟨.empty, []⟩).1 = .ok (c.directory root)
      ∧ after.workspace.files.at? ["r", "sub"] = some .directory
      ∧ after.shelf.lookup "sub" = none := by
  refine ⟨by decide, by decide +kernel, ?_, by decide +kernel, by decide +kernel, by decide +kernel⟩
  rintro l ⟨name, rest, rfl⟩
  exact at?_empty (by simp)

end CacheRun

end DslBindings
