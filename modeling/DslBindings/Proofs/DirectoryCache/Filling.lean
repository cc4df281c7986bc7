import DslBindings.Proofs.Build.Compiling
import DslBindings.Proofs.DirectoryCache.Call

/-!
# Filling an empty cache

A cache that is an empty directory takes the accessors of any schema, if the paths in the directory that
is staged are not too long. What is there then is what was populated, under the name of its key.
-/

namespace DslBindings

open Path

namespace FileSystem

variable {fs : FileSystem} {p : Path} {here l : Location}

/-- A file system whose relative paths start at a directory. -/
structure HasWorkingDirectory (fs : FileSystem) : Prop where
  isEntryName : ∀ name ∈ fs.workingDirectory, IsEntryName name
  isDirectory : ∀ l, l <+: fs.workingDirectory → fs.at? l = some .directory

namespace HasWorkingDirectory

theorem isProperName (h : fs.HasWorkingDirectory) : ∀ name ∈ fs.workingDirectory, IsProperName name :=
  fun name hname => (h.isEntryName name hname).1

/-- A segment of a path as seen from the root is one of the path, or a name that can be one. -/
theorem of_mem_absolute (h : fs.HasWorkingDirectory) {s : String}
    (hs : s ∈ (fs.absolute p).segments) : s ∈ p.segments ∨ s = "" ∨ IsEntryName s := by
  by_cases hp : p.isAbsolute
  · rw [absolute_of_isAbsolute hp] at hs
    exact .inl hs
  · rw [absolute_of_not_isAbsolute h.isProperName hp] at hs
    rcases List.mem_append.mp hs with hs | hs
    · rcases List.mem_cons.mp hs with hs | hs
      · exact .inr (.inl hs)
      · exact .inr (.inr (h.isEntryName s hs))
    · exact .inl hs

theorem slash_not_mem_absolute (h : fs.HasWorkingDirectory) (hp : ∀ s ∈ p.segments, '/' ∉ s.toList) :
    ∀ s ∈ (fs.absolute p).segments, '/' ∉ s.toList := by
  intro s hs
  rcases h.of_mem_absolute hs with hs | rfl | hs
  · exact hp s hs
  · decide
  · exact hs.2.1

theorem holdsNul_absolute (h : fs.HasWorkingDirectory) (hp : p.holdsNul = false) :
    (fs.absolute p).holdsNul = false := by
  rw [holdsNul, List.any_eq_false] at hp ⊢
  intro s hs
  rcases h.of_mem_absolute hs with hs | rfl | hs
  · exact hp s hs
  · decide
  · rw [hs.2.2.1]
    exact Bool.false_ne_true

end HasWorkingDirectory

theorem follow_stem (h : fs.follow here p.segments = .ok l) : fs.follow here p.stem = .ok l := by
  rcases segments_eq_stem_append p with hp | hp
  · rwa [hp] at h
  · rw [hp] at h
    obtain ⟨hstem, hlast⟩ := follow_append_eq_ok.mp h
    obtain ⟨-, -, hl⟩ := follow_singleton_eq_ok.mp hlast
    rw [step_of_isIdle rfl] at hl
    rwa [hl] at hstem

theorem HasWorkingDirectory.follow_stem_absolute (h : fs.HasWorkingDirectory)
    (hp : fs.locate p = .ok l) :
    fs.follow (start fs.workingDirectory (fs.absolute p)) (fs.absolute p).stem = .ok l := by
  obtain ⟨-, hempty, -, hfollow⟩ := locate_eq_ok.mp hp
  have hstem := follow_stem hfollow
  by_cases habs : p.isAbsolute
  · rw [absolute_of_isAbsolute habs]
    exact hstem
  · have hne : p.segments ≠ [] := by
      intro hnil
      rw [Path.isEmpty, hnil] at hempty
      cases hempty
    have hway : fs.follow [] ("" :: fs.workingDirectory) = .ok fs.workingDirectory := by
      refine follow_cons_eq_ok.mpr ⟨rfl, Nat.zero_le _, ?_⟩
      rw [step_of_isIdle rfl]
      exact follow_of_directories h.isEntryName fun l hl _ => h.isDirectory l hl
    rw [start_absolute h.isProperName habs, absolute_of_not_isAbsolute h.isProperName habs,
      stem_append hne, follow_append, hway]
    rw [start, if_neg habs] at hstem
    exact hstem

theorem namesIn_eq_nil (h : ∀ l, IsBelow here l → fs.at? l = none) : fs.namesIn here = [] := by
  have hbelow : fs.below here = [] := by
    rw [below, List.filterMap_eq_nil_iff]
    rintro ⟨l, entry⟩ hmem
    refine if_neg ?_
    rw [Bool.and_eq_true, List.isPrefixOf_iff_prefix, decide_eq_true_eq]
    rintro ⟨⟨more, rfl⟩, hne⟩
    have hmore : more ≠ [] := by
      rintro rfl
      exact hne (List.append_nil here).symm
    have hnone := h _ (isBelow_append hmore)
    rw [at?_eq_getElem? (List.append_ne_nil_of_right_ne_nil here hmore),
      Std.ExtTreeMap.mem_toList_iff_getElem?_eq_some.mp hmem] at hnone
    cases hnone
  rw [namesIn, hbelow]
  rfl

end FileSystem

namespace DirectoryCache

open FileSystem

variable {cache : DirectoryCache} {key : CacheKey} {fs : FileSystem} {w : Workspace}

/-- A cache is there, and nothing is in it. -/
structure IsEmptyIn (cache : DirectoryCache) (fs : FileSystem) : Prop where
  isDirectory : fs.isDirectory cache.root = true
  at? (l : Location) (h : IsBelow (cache.place fs.workingDirectory) l) : fs.at? l = none

namespace IsEmptyIn

theorem locate_root (h : cache.IsEmptyIn fs) :
    fs.locate cache.root = .ok (cache.place fs.workingDirectory)
      ∧ fs.at? (cache.place fs.workingDirectory) = some .directory := by
  obtain ⟨here, hlocate, hdir⟩ := isDirectory_eq_true.mp h.isDirectory
  obtain rfl := eq_destination_of_locate hlocate
  exact ⟨hlocate, hdir⟩

theorem isDirectory_directory (h : cache.IsEmptyIn fs) (hkey : '/' ∉ key.label.toList) :
    fs.isDirectory (cache.directory key) = false := by
  rw [Bool.eq_false_iff, Ne, isDirectory_eq_true]
  rintro ⟨l, hlocate, hdir⟩
  rw [eq_of_locate_directory hkey hlocate, h.at? _ ⟨key.directoryName, [], rfl⟩] at hdir
  cases hdir

theorem stagingName_eq (h : cache.IsEmptyIn fs) (key : CacheKey) :
    cache.stagingName fs key = "." ++ key.directoryName ++ "-" ++ cache.stagingLabel := by
  rw [stagingName, namesAt, h.locate_root.1]
  simp only [namesIn_eq_nil h.at?]
  exact Text.freshName_of_not_mem List.not_mem_nil

end IsEmptyIn

/-- What a directory is staged under can be a name in a directory. -/
structure StagesNames (cache : DirectoryCache) (key : CacheKey) : Prop where
  slash_not_mem_label : '/' ∉ key.label.toList
  slash_not_mem_stagingLabel : '/' ∉ cache.stagingLabel.toList
  nul_not_mem_label : '\x00' ∉ key.label.toList
  nul_not_mem_stagingLabel : '\x00' ∉ cache.stagingLabel.toList
  size : key.label.utf8ByteSize + cache.stagingLabel.utf8ByteSize + 35 ≤ nameLimit

theorem StagesNames.isEntryName_stagingName (h : cache.StagesNames key) (hempty : cache.IsEmptyIn fs) :
    IsEntryName (cache.stagingName fs key) := by
  refine ⟨isProperName_stagingName cache fs key,
    slash_not_mem_stagingName h.slash_not_mem_label h.slash_not_mem_stagingLabel fs, ?_, ?_⟩
  · have hname := CacheKey.nul_not_mem_directoryName h.nul_not_mem_label
    rw [hempty.stagingName_eq, textHoldsNul]
    simp [hname, h.nul_not_mem_stagingLabel]
  · have hsize := h.size
    have hdot : ".".utf8ByteSize = 1 := rfl
    have hdash : "-".utf8ByteSize = 1 := rfl
    rw [hempty.stagingName_eq]
    simp only [String.utf8ByteSize_append, CacheKey.utf8ByteSize_directoryName, hdot, hdash]
    omega

theorem takesNames_of_isEmptyIn (hwd : fs.HasWorkingDirectory) (hempty : cache.IsEmptyIn fs)
    (hnames : cache.StagesNames key) : TakesNames cache key fs.workingDirectory :=
  ⟨hwd.isProperName, hnames.slash_not_mem_label, hnames.slash_not_mem_stagingLabel,
    isReachedFromOutside_of_isDirectory hempty.isDirectory hempty.at?⟩

/-- Where the directory of a key is staged. -/
def stagingPlace (cache : DirectoryCache) (fs : FileSystem) (key : CacheKey) : Location :=
  cache.place fs.workingDirectory ++ [cache.stagingName fs key]

/-- A directory can be staged in an empty cache, if its path is not too long. -/
theorem createDirectory_staging (hwd : fs.HasWorkingDirectory) (hempty : cache.IsEmptyIn fs)
    (hnames : cache.StagesNames key)
    (hlong : (cache.staging fs key).text.utf8ByteSize ≤ pathLimit) :
    fs.createDirectory (cache.staging fs key)
      = .ok (fs.put (cache.stagingPlace fs key) .directory) := by
  have hentry := hnames.isEntryName_stagingName hempty
  obtain ⟨hroot, hdir⟩ := hempty.locate_root
  refine createDirectory_of_at? ?_ (hempty.at? _ ⟨_, [], rfl⟩)
  rw [withoutTrailingSlashes_staging (takesNames_of_isEmptyIn hwd hempty hnames)]
  rw [staging_eq hnames.slash_not_mem_label hnames.slash_not_mem_stagingLabel] at hlong ⊢
  refine locate_eq_ok.mpr ⟨?_, isEmpty_concat hentry.1.ne_empty _, hlong, ?_⟩
  · have hnul := hwd.holdsNul_absolute (locate_eq_ok.mp hroot).1
    rw [holdsNul, List.any_eq_false] at hnul ⊢
    intro s hs
    rcases List.mem_append.mp hs with hs | hs
    · exact hnul s ((stem_prefix_segments _).subset hs)
    · rw [List.mem_singleton.mp hs, hentry.2.2.1]
      exact Bool.false_ne_true
  · rw [start_stem_append hentry.1.ne_empty, follow_append, hwd.follow_stem_absolute hroot]
    exact follow_singleton_eq_ok.mpr ⟨hdir, hentry.2.2.2, step_of_isProperName hentry.1 _⟩

theorem runAt_prepare {ε : Type} (hroot : w.files.isDirectory cache.root = true) (key : CacheKey) :
    (cache.prepare key : Work (CacheError ε) Path).runAt w
      = match w.files.createDirectory (cache.staging w.files key) with
        | .ok fs => (.ok (cache.staging w.files key), { w with files := fs })
        | .error e => (.error (.io e), w) := by
  have hthere : ((Work.createDirectories cache.root).failingWith
      (CacheError.io : IoError → CacheError ε)).runAt w = (.ok (), w) := by
    rw [Work.runAt_failingWith, Work.runAt_createDirectories_of_isDirectory hroot]
    rfl
  rw [prepare, Work.runAt_bind_ok hthere, Work.runAt_files_bind, Work.runAt_bind, Work.runAt_change]
  cases w.files.createDirectory (cache.staging w.files key) <;> rfl

/-- A call that succeeds has populated what it staged. -/
theorem exists_populate_of_create {ε : Type} {populate : Path → Work ε Unit} {directory : Path}
    {w' : Workspace} (hroot : w.files.isDirectory cache.root = true)
    (h : (cache.create key populate).runAt w = (.ok directory, w')) :
    ∃ w₁ w₂, (populate (cache.staging w.files key)).runAt w₁ = (.ok (), w₂) := by
  rw [create] at h
  obtain ⟨staging, w₁, hprepare, hrest⟩ := Work.runAt_bind_eq_ok.mp h
  obtain rfl : cache.staging w.files key = staging := by
    rw [runAt_prepare hroot] at hprepare
    split at hprepare
    · exact Except.ok.inj (Prod.mk.inj hprepare).1
    · cases hprepare
  rw [Work.runAt_bind, Work.runAt_outcome] at hrest
  rcases hpopulate : (populate (cache.staging w.files key)).runAt w₁ with ⟨e | ⟨⟩, w₂⟩
  · rw [hpopulate] at hrest
    obtain ⟨_, w₃, -, hthrow⟩ := Work.runAt_bind_eq_ok.mp hrest
    cases hthrow
  · exact ⟨w₁, w₂, hpopulate⟩

/-- In an empty cache, what was populated is what is there under the name of its key. -/
theorem exists_create {ε : Type} {populate : Path → Work ε Unit} {populated : Workspace}
    (hwd : w.files.HasWorkingDirectory) (hempty : cache.IsEmptyIn w.files)
    (hnames : cache.StagesNames key)
    (hlong : (cache.staging w.files key).text.utf8ByteSize ≤ pathLimit)
    (hpopulate : (populate (cache.staging w.files key)).runAt
      { w with files := w.files.put (cache.stagingPlace w.files key) .directory } = (.ok (), populated))
    (hsameDirectory : populated.files.workingDirectory = w.files.workingDirectory)
    (hsame : ∀ l, ¬ IsBelow (cache.stagingPlace w.files key) l →
      populated.files.at? l = (w.files.put (cache.stagingPlace w.files key) .directory).at? l) :
    ∃ w', (cache.create key populate).runAt w = (.ok (cache.directory key), w')
      ∧ w'.files.workingDirectory = w.files.workingDirectory
      ∧ w'.files.locate (cache.directory key)
        = .ok (cache.place w.files.workingDirectory ++ [key.directoryName])
      ∧ (∀ rest, w'.files.at? (cache.place w.files.workingDirectory ++ [key.directoryName] ++ rest)
        = populated.files.at? (cache.stagingPlace w.files key ++ rest))
      ∧ ∀ l, ¬ cache.place w.files.workingDirectory ++ [key.directoryName] <+: l →
        w'.files.at? l = w.files.at? l := by
  have htakes := takesNames_of_isEmptyIn hwd hempty hnames
  have hmade := createDirectory_staging hwd hempty hnames hlong
  have hstaged := isStaged_of_createDirectory htakes (Grows.refl _ w.files) hmade
  have hpopulated := hstaged.of_unchanged htakes hsameDirectory hsame
  have hnone (name : String) (rest : Location) :
      w.files.at? (cache.place w.files.workingDirectory ++ name :: rest) = none :=
    hempty.at? _ ⟨name, rest, rfl⟩
  obtain ⟨w', hpublish, hleaves, hlocate, houtside, hat⟩ := runAt_publish (ε := ε) htakes
    (fun name rest _ => hnone name rest) (hnone key.directoryName) hpopulated
  have hprepare := runAt_prepare (ε := ε) hempty.isDirectory key
  rw [hmade] at hprepare
  have hcreate := runAt_create_of_populated hprepare hpopulate hpublish
  refine ⟨w', hcreate, hleaves.workingDirectory, hlocate, fun rest => ?_, fun l hl => ?_⟩
  · rw [List.append_assoc, List.singleton_append, hat, if_pos rfl, stagingPlace, List.append_assoc,
      List.singleton_append]
  · by_cases hbelow : IsBelow (cache.place w.files.workingDirectory) l
    · obtain ⟨name, rest, rfl⟩ := hbelow
      rw [hat, if_neg]
      rintro rfl
      exact hl (prefix_append_cons_iff.mpr rfl)
    · have hapart := not_prefix_of_not_isBelow hbelow (cache.stagingName w.files key)
      have hnotBelow : ¬ IsBelow (cache.stagingPlace w.files key) l := by
        rintro ⟨name, rest, rfl⟩
        exact hapart (List.prefix_append _ _)
      have hne : l ≠ cache.stagingPlace w.files key := by
        rintro rfl
        exact hapart (List.prefix_refl _)
      rw [houtside l hbelow, hsame l hnotBelow, at?_put (by simp [stagingPlace]), if_neg hne]

end DirectoryCache

namespace Accessors

open FileSystem DirectoryCache

variable {cache : DirectoryCache} {program : Program} {classPath : List Path} {w : Workspace}
  {run : List String → FileSystem → (Nat × String) × FileSystem}

theorem stagesNames (hslash : '/' ∉ cache.stagingLabel.toList)
    (hnul : '\x00' ∉ cache.stagingLabel.toList) (hsize : cache.stagingLabel.utf8ByteSize ≤ 6)
    (schema : ProjectSchema String) (classPath : List Path) :
    cache.StagesNames (cacheKey schema classPath) := by
  have hmarks : '/' ∉ cacheLabel.toList ∧ '\x00' ∉ cacheLabel.toList := by decide
  refine ⟨hmarks.1, hslash, hmarks.2, hnul, ?_⟩
  have hlabel : cacheLabel.utf8ByteSize = 27 := rfl
  change cacheLabel.utf8ByteSize + _ + 35 ≤ 255
  omega

/-- The path of the source file is not longer once its directory has the name of its key. -/
theorem utf8ByteSize_sourceFile_le {fs : FileSystem} {key : CacheKey}
    (hwd : ∀ name ∈ fs.workingDirectory, IsProperName name) (hnames : cache.StagesNames key) :
    (sourceFile (cache.directory key)).text.utf8ByteSize
      ≤ (sourceFile (cache.staging fs key)).text.utf8ByteSize := by
  obtain ⟨front, hstem, -⟩ := stem_absolute hwd cache.root
  have hway : sourceWay ≠ [] := by decide
  have hle := utf8ByteSize_text_le (utf8ByteSize_directoryName_le cache fs key) front cache.root.stem
  rw [directory_eq hnames.slash_not_mem_label,
    staging_eq hnames.slash_not_mem_label hnames.slash_not_mem_stagingLabel, hstem,
    sourceFile_concat (CacheKey.isProperName_directoryName key).ne_empty,
    sourceFile_concat (isProperName_stagingName cache fs key).ne_empty,
    utf8ByteSize_text_append (List.concat_ne_nil _ _) hway,
    utf8ByteSize_text_append (List.concat_ne_nil _ _) hway]
  omega

/-- The staged directory of an empty cache can be populated with the accessors of a schema. -/
theorem exists_populate_staging (hrun : program.run = some run) (hcompiles : Compiles run)
    (hclassPath : ∀ p ∈ classPath, ':' ∉ p.text.toList ∧ textHoldsNul p.text = false)
    (hwd : w.files.HasWorkingDirectory) (hempty : cache.IsEmptyIn w.files)
    (hslash : ∀ s ∈ cache.root.segments, '/' ∉ s.toList) {key : CacheKey}
    (hnames : cache.StagesNames key)
    (hlong : (cache.staging w.files key).text.utf8ByteSize ≤ pathLimit)
    (hroom : (sourceFile (cache.staging w.files key)).text.utf8ByteSize ≤ pathLimit)
    (schema : ProjectSchema String) :
    let staged := w.files.put (cache.stagingPlace w.files key) .directory
    ∃ populated, (populate program.compiler schema classPath (cache.staging w.files key)).runAt
        { w with files := staged } = (.ok (), populated)
      ∧ populated.files.workingDirectory = w.files.workingDirectory
      ∧ (∀ l, ¬ IsBelow (cache.stagingPlace w.files key) l → populated.files.at? l = staged.at? l)
      ∧ populated.files.at? (cache.stagingPlace w.files key ++ sourceWay)
        = some (.file (Text.utf8 (source schema)))
      ∧ ∀ ns, ns <+: sourceDirectories →
        populated.files.at? (cache.stagingPlace w.files key ++ ns) = some .directory := by
  intro staged
  have hentry := hnames.isEntryName_stagingName hempty
  have hstaged := isStaged_of_createDirectory (takesNames_of_isEmptyIn hwd hempty hnames)
    (Grows.refl _ w.files) (createDirectory_staging hwd hempty hnames hlong)
  have hstaging : cache.staging w.files key
      = ⟨(w.files.absolute cache.root).stem ++ [cache.stagingName w.files key]⟩ :=
    staging_eq hnames.slash_not_mem_label hnames.slash_not_mem_stagingLabel w.files
  have hlocate := hstaged.locate
  rw [hstaging] at hlocate hroom ⊢
  refine exists_populate (w := { w with files := staged }) hrun hcompiles hclassPath
    hentry.1.ne_empty ?_ hlocate hstaged.isDirectory ?_ hroom schema
  · intro s hs
    rcases List.mem_append.mp hs with hs | hs
    · exact hwd.slash_not_mem_absolute hslash s ((stem_prefix_segments _).subset hs)
    · rw [List.mem_singleton.mp hs]
      exact hentry.2.1
  · rintro l ⟨name, rest, rfl⟩
    change staged.at? _ = none
    rw [at?_put (by simp [stagingPlace]), if_neg (by simp [stagingPlace])]
    refine hempty.at? _ ⟨cache.stagingName w.files key, name :: rest, ?_⟩
    rw [List.append_assoc]
    rfl

/-- The accessors of a schema can be compiled into an empty cache. Then their directory is there, with the
source file in it, and nothing else has changed. -/
theorem exists_compile (hrun : program.run = some run) (hcompiles : Compiles run)
    (hclassPath : ∀ p ∈ classPath, ':' ∉ p.text.toList ∧ textHoldsNul p.text = false)
    (hwd : w.files.HasWorkingDirectory) (hempty : cache.IsEmptyIn w.files)
    (hslash : ∀ s ∈ cache.root.segments, '/' ∉ s.toList) {schema : ProjectSchema String} {key : CacheKey}
    (hkey : key = cacheKey schema classPath) (hnames : cache.StagesNames key)
    (hroom : (sourceFile (cache.staging w.files key)).text.utf8ByteSize ≤ pathLimit) :
    ∃ w', (compile cache program.compiler schema classPath).runAt w
        = (.ok (classPathIn (cache.directory key)), w')
      ∧ w'.files.workingDirectory = w.files.workingDirectory
      ∧ w'.files.isDirectory (cache.directory key) = true
      ∧ w'.files.read (sourceFile (cache.directory key)) = .ok (Text.utf8 (source schema))
      ∧ ∀ l, ¬ cache.place w.files.workingDirectory ++ [key.directoryName] <+: l →
        w'.files.at? l = w.files.at? l := by
  have hstaging : cache.staging w.files key
      = ⟨(w.files.absolute cache.root).stem ++ [cache.stagingName w.files key]⟩ :=
    staging_eq hnames.slash_not_mem_label hnames.slash_not_mem_stagingLabel w.files
  have hentry := hnames.isEntryName_stagingName hempty
  have hlong : (cache.staging w.files key).text.utf8ByteSize ≤ pathLimit := by
    refine Nat.le_trans ?_ hroom
    rw [hstaging, sourceFile_concat hentry.1.ne_empty]
    exact utf8ByteSize_text_append_le (by simp) sourceWay
  set asked : Workspace := { w with events := w.events ++ [.cacheAccess key] }
  obtain ⟨populated, hpopulate, hpopulatedDirectory, hsame, hsource, hdirectories⟩ :=
    exists_populate_staging (w := asked) hrun hcompiles hclassPath hwd hempty hslash hnames hlong hroom
      schema
  obtain ⟨w', hcreate, hw', hlocate, hat, houtside⟩ :=
    exists_create (w := asked) hwd hempty hnames hlong hpopulate hpopulatedDirectory hsame
  have hdirectory := hempty.isDirectory_directory hnames.slash_not_mem_label
  have hthere : w'.files.at? (cache.place w.files.workingDirectory ++ [key.directoryName])
      = some .directory := by
    have hstart := (hat []).trans (hdirectories [] List.nil_prefix)
    rwa [List.append_nil] at hstart
  refine ⟨w', ?_, hw', isDirectory_eq_true.mpr ⟨_, hlocate, hthere⟩, ?_, houtside⟩
  · have hfor : ((cache.directoryFor key (populate program.compiler schema classPath)).failingWith
        (ResolverError.ofCacheError key.directoryName)).runAt w = (.ok (cache.directory key), w') := by
      rw [Work.runAt_failingWith, runAt_directoryFor, hdirectory, if_neg Bool.false_ne_true, hcreate]
      rfl
    rw [compile, ← hkey]
    exact Work.runAt_bind_ok hfor
  · refine read_of_locate ?_ ((hat sourceWay).trans hsource)
    have hshort := utf8ByteSize_sourceFile_le hwd.isProperName hnames
    rw [directory_eq hnames.slash_not_mem_label] at hlocate hshort ⊢
    rw [sourceFile_concat (CacheKey.isProperName_directoryName key).ne_empty] at hshort ⊢
    rw [locate_append hlocate (fun n hn => (isEntryName_of_mem_sourceWay n hn).2.2.1)
      (Nat.le_trans hshort hroom)]
    refine follow_of_directories isEntryName_of_mem_sourceWay fun ns hns hne => ?_
    rw [hat]
    exact hdirectories ns ((List.prefix_concat_iff.mp hns).resolve_left hne)

/-! ### What is needed for it -/

/-- How long the path of the source file is while that is staged. -/
theorem utf8ByteSize_sourceFile_staging {fs : FileSystem} {key : CacheKey} (hempty : cache.IsEmptyIn fs)
    (hnames : cache.StagesNames key) (hlabel : key.label = cacheLabel) :
    (sourceFile (cache.staging fs key)).text.utf8ByteSize
      = (text ⟨(fs.absolute cache.root).stem ++ [""]⟩).utf8ByteSize + cache.stagingLabel.utf8ByteSize
        + 101 := by
  have hname : (cache.stagingName fs key).utf8ByteSize = 62 + cache.stagingLabel.utf8ByteSize := by
    have hkey : key.directoryName.utf8ByteSize = 60 := by
      rw [CacheKey.utf8ByteSize_directoryName, hlabel]
      rfl
    have hdot : ".".utf8ByteSize = 1 := rfl
    have hdash : "-".utf8ByteSize = 1 := rfl
    rw [hempty.stagingName_eq]
    simp only [String.utf8ByteSize_append, hkey, hdot, hdash]
  have hway : (text ⟨sourceWay⟩).utf8ByteSize = 38 := by decide +kernel
  rw [staging_eq hnames.slash_not_mem_label hnames.slash_not_mem_stagingLabel,
    sourceFile_concat (isProperName_stagingName cache fs key).ne_empty,
    utf8ByteSize_text_append (List.concat_ne_nil _ _) (by decide), utf8ByteSize_text_concat, hname, hway]
  omega

theorem utf8ByteSize_le_of_writeSource {schema : ProjectSchema String} {directory : Path}
    {w' : Workspace} (h : (writeSource schema directory).runAt w = (.ok (), w')) :
    (sourceFile directory).text.utf8ByteSize ≤ pathLimit := by
  have hwritten {w₁ : Workspace} (hwrite : (Work.change fun fs => fs.write (sourceFile directory)
      (Text.utf8 (source schema))).runAt w₁ = (.ok (), w')) :
      (sourceFile directory).text.utf8ByteSize ≤ pathLimit := by
    rw [Work.runAt_change] at hwrite
    split at hwrite
    · next fs hfs =>
      obtain ⟨l, hlocate, -⟩ := write_eq_ok.mp hfs
      exact (locate_eq_ok.mp hlocate).2.2.1
    · cases hwrite
  rw [writeSource] at h
  cases hparent : (sourceFile directory).parent? with
  | none =>
    rw [hparent] at h
    exact hwritten h
  | some parent =>
    rw [hparent] at h
    obtain ⟨_, w₁, -, hwrite⟩ := Work.runAt_bind_eq_ok.mp h
    exact hwritten hwrite

/-- The accessors of a schema are compiled into an empty cache only if the path of their source file,
while that is staged, is not too long. -/
theorem utf8ByteSize_le_of_compile {schema : ProjectSchema String} {key : CacheKey}
    {compiler : Compiler} {found : AccessorsClassPath} {w' : Workspace} (hempty : cache.IsEmptyIn w.files)
    (hkey : key = cacheKey schema classPath) (hslash : '/' ∉ key.label.toList)
    (h : (compile cache compiler schema classPath).runAt w = (.ok found, w')) :
    (sourceFile (cache.staging w.files key)).text.utf8ByteSize ≤ pathLimit := by
  rw [compile, ← hkey] at h
  obtain ⟨directory, w₁, hfor, -⟩ := Work.runAt_bind_eq_ok.mp h
  rw [Work.runAt_failingWith_eq_ok, runAt_directoryFor, hempty.isDirectory_directory hslash,
    if_neg Bool.false_ne_true] at hfor
  obtain ⟨w₂, w₃, hpopulate⟩ := exists_populate_of_create
    (w := { w with events := w.events ++ [.cacheAccess key] }) hempty.isDirectory hfor
  rw [populate] at hpopulate
  obtain ⟨_, w₄, hwrite, -⟩ := Work.runAt_bind_eq_ok.mp hpopulate
  exact utf8ByteSize_le_of_writeSource (Work.runAt_failingWith_eq_ok.mp hwrite)

end Accessors

end DslBindings
