import DslBindings.Proofs.Build.Snapshot
import DslBindings.Proofs.Command.Tasks
import DslBindings.Proofs.DirectoryCache.Filling

/-!
# How the tasks for a project agree

Only one of the three tasks goes by way of a cache. If that is empty and can be filled, the way succeeds
for every schema; so what this task compiles is what the other two print. After it they print the same, if
the new directory of the cache is not on the way to the snapshot, where it could lead to another schema.
-/

namespace DslBindings

open Path FileSystem

variable {env : Environment} {r : ProjectRequest} {w : Workspace} {fs : FileSystem}

/-- What lets the accessors of a request be compiled, if there is room for them. Its cache is an empty
directory; what is staged there has a name that is not too long; and the compiler succeeds, can be given
the class path, and changes no file but its output. -/
structure Environment.CanCompile (env : Environment) (r : ProjectRequest) (fs : FileSystem) : Prop where
  hasWorkingDirectory : fs.HasWorkingDirectory
  isEmptyIn : (env.cacheFor r).IsEmptyIn fs
  ofText_text : ofText (env.cacheFor r).root.text = (env.cacheFor r).root
  slash_not_mem_stagingLabel : '/' ∉ env.stagingLabel.toList
  nul_not_mem_stagingLabel : '\x00' ∉ env.stagingLabel.toList
  stagingLabel : env.stagingLabel.utf8ByteSize ≤ 6
  compiles : ∃ run, env.compiler.run = some run ∧ Compiles run
  classPath : ∀ p ∈ r.classPath, ':' ∉ p.text.toList ∧ textHoldsNul p.text = false

/-- Accessors can be staged: the path of their cache is not so long that the one of their source file is
too long. -/
def Environment.HasRoom (env : Environment) (r : ProjectRequest) (fs : FileSystem) : Prop :=
  (text ⟨(fs.absolute (env.cacheFor r).root).stem ++ [""]⟩).utf8ByteSize + env.stagingLabel.utf8ByteSize
    + 101 ≤ pathLimit

namespace Environment.CanCompile

theorem stagesNames (h : env.CanCompile r fs) (schema : ProjectSchema String) :
    (env.cacheFor r).StagesNames (Accessors.cacheKey schema r.classPath) :=
  Accessors.stagesNames h.slash_not_mem_stagingLabel h.nul_not_mem_stagingLabel h.stagingLabel schema
    r.classPath

theorem hasRoom_iff (h : env.CanCompile r fs) (schema : ProjectSchema String) :
    env.HasRoom r fs ↔ (Accessors.sourceFile ((env.cacheFor r).staging fs
      (Accessors.cacheKey schema r.classPath))).text.utf8ByteSize ≤ pathLimit := by
  rw [Accessors.utf8ByteSize_sourceFile_staging h.isEmptyIn (h.stagesNames schema) rfl]
  rfl

end Environment.CanCompile

namespace ProjectRequest

/-- The path of the snapshot of a build does not lead into a directory. -/
def ReadsOutside (r : ProjectRequest) (fs : FileSystem) (directory : Path) : Prop :=
  ∀ l, Passes fs.workingDirectory (Snapshot.file r.root) l →
    ¬ destination fs.workingDirectory directory <+: l

theorem slash_not_mem_cacheKey (schema : ProjectSchema String) (classPath : List Path) :
    '/' ∉ (Accessors.cacheKey schema classPath).label.toList := by
  change '/' ∉ Accessors.cacheLabel.toList
  decide

theorem exists_run_resolve_of_some (h : env.CanCompile r w.files) {schema : ProjectSchema String}
    (hschema : r.schemaIn w.files = .ok (some schema)) (hroom : env.HasRoom r w.files)
    {key : CacheKey} (hkey : key = Accessors.cacheKey schema r.classPath) :
    ∃ w', r.run env .resolve w = (⟨ProjectTask.pathsText ((env.cacheFor r).directory key), none⟩, w')
      ∧ w'.files.workingDirectory = w.files.workingDirectory
      ∧ w'.files.isDirectory ((env.cacheFor r).directory key) = true
      ∧ w'.files.read (Accessors.sourceFile ((env.cacheFor r).directory key))
        = .ok (Text.utf8 (Accessors.source schema))
      ∧ ∀ l, ¬ (env.cacheFor r).place w.files.workingDirectory ++ [key.directoryName] <+: l →
        w'.files.at? l = w.files.at? l := by
  obtain ⟨compile, hrun, hcompiles⟩ := h.compiles
  have hnames : (env.cacheFor r).StagesNames key := hkey ▸ h.stagesNames schema
  have hslash : ∀ s ∈ (env.cacheFor r).root.segments, '/' ∉ s.toList := by
    rw [← h.ofText_text]
    exact slash_not_mem_ofText _
  obtain ⟨w₁, hfiles, hresolve⟩ := exists_run_resolve env r w
  rw [hschema] at hresolve
  rw [h.hasRoom_iff schema, ← hkey] at hroom
  rw [← hfiles] at h hroom ⊢
  obtain ⟨w', hcompile, hrest⟩ := Accessors.exists_compile (w := w₁) hrun hcompiles h.classPath
    h.hasWorkingDirectory h.isEmptyIn hslash hkey hnames hroom
  refine ⟨w', ?_, hrest⟩
  rw [hresolve]
  simp only [hcompile, ProjectTask.classPathText_classPathIn]

/-- Without room for the accessors of its schema, a project does not get any. -/
theorem hasRoom_of_run_resolve (h : env.CanCompile r w.files) {schema : ProjectSchema String}
    (hschema : r.schemaIn w.files = .ok (some schema))
    (hrun : (r.run env .resolve w).1.failure = none) : env.HasRoom r w.files := by
  obtain ⟨w₁, hfiles, hresolve⟩ := exists_run_resolve env r w
  rw [hschema] at hresolve
  rw [hresolve] at hrun
  rw [h.hasRoom_iff schema, ← hfiles]
  rw [← hfiles] at h
  rcases hcompile : (Accessors.compile (env.cacheFor r) env.compiler.compiler schema
    r.classPath).runAt w₁ with ⟨e | found, w₂⟩
  · simp [hcompile] at hrun
  · exact Accessors.utf8ByteSize_le_of_compile h.isEmptyIn rfl (slash_not_mem_cacheKey _ _) hcompile

/-- The new directory of a cache has nothing but what the run has made. -/
theorem schemaIn_of_run_resolve (h : env.CanCompile r w.files) {schema : ProjectSchema String}
    (hschema : r.schemaIn w.files = .ok (some schema)) (hroom : env.HasRoom r w.files)
    (hreads : r.ReadsOutside w.files
      ((env.cacheFor r).directory (Accessors.cacheKey schema r.classPath))) :
    r.schemaIn (r.run env .resolve w).2.files = .ok (some schema) := by
  obtain ⟨w', hrun, hwd, -, -, hat⟩ := exists_run_resolve_of_some h hschema hroom rfl
  rw [ReadsOutside, DirectoryCache.destination_directory (slash_not_mem_cacheKey _ _)] at hreads
  rw [hrun]
  refine schemaIn_of_added hschema hwd (fun l hl => ?_) hat hreads
  exact h.isEmptyIn.at? l (IsBelow.of_prefix ⟨_, [], rfl⟩ hl)

theorem snapshotFile_eq {root : Path} (h : root.isEmpty = false) :
    Snapshot.file root = ⟨stem ⟨root.stem ++ ["gradle"]⟩ ++ ["project-schema.json"]⟩ := by
  have hstem : stem ⟨root.stem ++ ["gradle"]⟩ = root.stem ++ ["gradle"] := stem_of_getLast (by simp)
  rw [Snapshot.file, join, h, hstem]
  simp [isAbsolute]

/-- A short name is not that of a directory in a cache. -/
theorem not_prefix_concat {here l : Location} {key : CacheKey} {name : String} (hname : name.length < 33)
    (h : ¬ here ++ [key.directoryName] <+: l) : ¬ here ++ [key.directoryName] <+: l ++ [name] := by
  intro hbelow
  rcases List.prefix_concat_iff.mp hbelow with heq | hbelow
  · obtain ⟨digits, hdigits, -, htext⟩ := CacheKey.toList_directoryName key
    rw [← (List.append_singleton_inj.mp heq).2, ← String.length_toList, htext, List.length_append,
      List.length_cons, hdigits] at hname
    omega
  · exact h hbelow

/-- The snapshot of a build whose root is there is not read from a new directory of a cache. -/
theorem readsOutside_of_isDirectory {cache : DirectoryCache} {key : CacheKey}
    (hempty : cache.IsEmptyIn fs) (hkey : '/' ∉ key.label.toList)
    (hroot : fs.isDirectory r.root = true) : r.ReadsOutside fs (cache.directory key) := by
  intro l hl
  rw [DirectoryCache.destination_directory hkey]
  obtain ⟨here, hlocate, hdir⟩ := isDirectory_eq_true.mp hroot
  have hthere {m : Location} (hm : fs.at? m = some .directory) :
      ¬ cache.place fs.workingDirectory ++ [key.directoryName] <+: m := by
    intro hbelow
    rw [hempty.at? m (IsBelow.of_prefix ⟨_, [], rfl⟩ hbelow)] at hm
    cases hm
  have hhere := hthere hdir
  rw [eq_destination_of_locate hlocate] at hhere
  rw [snapshotFile_eq (locate_eq_ok.mp hlocate).2.1] at hl
  rcases passes_stem_append (by decide) hl with rfl | hl
  · rw [destination_stem_append (by decide)]
    exact not_prefix_concat (by decide) (not_prefix_concat (by decide) hhere)
  rcases passes_stem_append (by decide) hl with rfl | hl
  · exact not_prefix_concat (by decide) hhere
  rcases isDirectory_or_eq_of_passes hlocate hl with hl | rfl
  · exact hthere hl
  · exact hthere hdir

theorem failure_run_report_eq_none_iff :
    (r.run env .report w).1.failure = none ↔ ∃ schema, r.schemaIn w.files = .ok (some schema) := by
  rw [run_report]
  rcases r.schemaIn w.files with e | _ | schema <;> simp

theorem failure_run_cacheKey_eq_none_iff :
    (r.run env .cacheKey w).1.failure = none ↔ ∃ schema, r.schemaIn w.files = .ok (some schema) := by
  rw [run_cacheKey]
  rcases r.schemaIn w.files with e | _ | schema <;> simp

theorem run_resolve_eq_pathsText_iff (h : env.CanCompile r w.files) :
    (∃ directory, (r.run env .resolve w).1 = ⟨ProjectTask.pathsText directory, none⟩)
      ↔ (∃ schema, r.schemaIn w.files = .ok (some schema)) ∧ env.HasRoom r w.files := by
  constructor
  · rintro ⟨directory, hpaths⟩
    rcases hschema : r.schemaIn w.files with e | _ | schema
    · rw [run_of_schemaIn_error hschema] at hpaths
      exact absurd (CommandReport.mk.inj hpaths).2 (Option.some_ne_none e)
    · rw [run_resolve_of_schemaIn_none hschema] at hpaths
      exact absurd (CommandReport.mk.inj hpaths).1.symm (ProjectTask.pathsText_ne_noSchema directory _)
    · refine ⟨⟨schema, rfl⟩, hasRoom_of_run_resolve h hschema ?_⟩
      rw [hpaths]
  · rintro ⟨⟨schema, hschema⟩, hroom⟩
    obtain ⟨w', hrun, -⟩ := exists_run_resolve_of_some h hschema hroom rfl
    exact ⟨_, congrArg Prod.fst hrun⟩

theorem schemaIn_of_run_resolve_eq_noSchema (h : env.CanCompile r w.files)
    (hrun : (r.run env .resolve w).1 = ⟨CommandError.noSchemaMessage r.project ++ "\n", none⟩) :
    r.schemaIn w.files = .ok none := by
  rcases hschema : r.schemaIn w.files with e | _ | schema
  · rw [run_of_schemaIn_error hschema] at hrun
    exact absurd (CommandReport.mk.inj hrun).2 (Option.some_ne_none e)
  · rfl
  · have hroom := hasRoom_of_run_resolve h hschema (congrArg CommandReport.failure hrun)
    obtain ⟨directory, hpaths⟩ := (run_resolve_eq_pathsText_iff h).mpr ⟨⟨schema, hschema⟩, hroom⟩
    rw [hpaths] at hrun
    exact absurd (CommandReport.mk.inj hrun).1 (ProjectTask.pathsText_ne_noSchema directory _)

end ProjectRequest

/-- A live schema. -/
def javaSchema : ProjectSchema JvmType := ⟨.ofList [("java", JvmType.plain "J")], ∅⟩

/-- A schema in a snapshot. -/
def fixedSchema : ProjectSchema String := ⟨.ofList [("fixed", "F")], ∅⟩

/-- The snapshot of a build with one project. -/
def fixedSnapshot : BuildSchema := .ofList [(":", fixedSchema)]

/-- An empty cache, a build with a snapshot, and a file with a live schema. -/
def snapshotBesideCache : Workspace where
  files := (((FileSystem.empty.put ["cache"] .directory).put ["gradle"] .directory).put
      ["gradle", "project-schema.json"] (.file (Text.utf8 (BuildSchema.toJson fixedSnapshot).render))).put
    ["live.json"] (.file (Text.utf8 (javaSchema.toJson JvmType.toJson).render))
  events := []

/-- An environment with a compiler that writes the same to every archive. -/
def writingJar : Environment := ⟨⟨["", "h"]⟩, ⟨"kotlinc", some (writingOutput [74, 65, 82])⟩, "staged"⟩

namespace snapshotBesideCache

/-- A request for the project of the build with this root, and with a cache at this path. -/
def request (root cache : Path) : ProjectRequest where
  root := root
  project := ":"
  classPath := []
  liveSchema := some ⟨["live.json"]⟩
  cacheDirectory := some cache

theorem locate_name (hwd : fs.workingDirectory = []) {name : String} (h : IsEntryName name) :
    fs.locate ⟨[name]⟩ = .ok [name] := by
  refine locate_eq_ok.mpr ⟨?_, isEmpty_concat h.1.ne_empty [], ?_, ?_⟩
  · simp [holdsNul, h.2.2.1]
  · rw [text, String.intercalate_singleton]
    exact Nat.le_trans h.2.2.2 (by decide)
  · rw [start, hwd, ite_self]
    exact follow_singleton_eq_ok.mpr ⟨rfl, h.2.2.2, step_of_isProperName h.1 _⟩

theorem at?_cache : snapshotBesideCache.files.at? ["cache"] = some .directory := by
  simp [snapshotBesideCache, at?_put]

theorem at?_gradle : snapshotBesideCache.files.at? ["gradle"] = some .directory := by
  simp [snapshotBesideCache, at?_put]

theorem at?_snapshot : snapshotBesideCache.files.at? ["gradle", "project-schema.json"]
    = some (.file (Text.utf8 (BuildSchema.toJson fixedSnapshot).render)) := by
  simp [snapshotBesideCache, at?_put]

theorem at?_live : snapshotBesideCache.files.at? ["live.json"]
    = some (.file (Text.utf8 (javaSchema.toJson JvmType.toJson).render)) := by
  simp [snapshotBesideCache, at?_put]

theorem at?_below_cache (name : String) (rest : Location) :
    snapshotBesideCache.files.at? ("cache" :: name :: rest) = none := by
  simp [snapshotBesideCache, at?_put, at?_empty]

theorem canCompile {cache : Path} (hlocate : snapshotBesideCache.files.locate cache = .ok ["cache"])
    (hslash : ∀ s ∈ cache.segments, '/' ∉ s.toList) (root : Path) :
    writingJar.CanCompile (request root cache) snapshotBesideCache.files where
  hasWorkingDirectory := by
    refine ⟨fun name hname => absurd hname List.not_mem_nil, fun l hl => ?_⟩
    rw [List.prefix_nil.mp hl]
    rfl
  isEmptyIn := by
    refine ⟨isDirectory_eq_true.mpr ⟨["cache"], hlocate, at?_cache⟩, ?_⟩
    have hplace : (writingJar.cacheFor (request root cache)).place
        snapshotBesideCache.files.workingDirectory = ["cache"] := (eq_destination_of_locate hlocate).symm
    rw [hplace]
    rintro _ ⟨name, rest, rfl⟩
    exact at?_below_cache name rest
  ofText_text := by
    refine Path.ofText_text (p := cache) (fun hnil => ?_) hslash
    have hempty := (locate_eq_ok.mp hlocate).2.1
    rw [Path.isEmpty, hnil] at hempty
    cases hempty
  slash_not_mem_stagingLabel := by decide
  nul_not_mem_stagingLabel := by decide
  stagingLabel := by decide
  compiles := ⟨_, rfl, compiles_writingOutput _⟩
  classPath := by simp [request]

theorem canCompile_cache (root : Path) :
    writingJar.CanCompile (request root ⟨["cache"]⟩) snapshotBesideCache.files :=
  canCompile (locate_name rfl (by decide)) (by decide) root

theorem hasRoom (root : Path) :
    writingJar.HasRoom (request root ⟨["cache"]⟩) snapshotBesideCache.files := by
  change (Path.text ⟨[""] ++ ["cache"] ++ [""]⟩).utf8ByteSize + "staged".utf8ByteSize + 101 ≤ pathLimit
  decide +kernel

theorem readLiveSchema (hwd : fs.workingDirectory = [])
    (hlive : fs.at? ["live.json"] = snapshotBesideCache.files.at? ["live.json"]) (root cache : Path) :
    (request root cache).readLiveSchema fs = .ok (some javaSchema) := by
  have hcoding := (ProjectSchema.isCoding JvmType.isCoding).roundTrips (by decide)
  have hread := read_of_locate (locate_name hwd (by decide)) (hlive.trans at?_live)
  rw [ProjectRequest.readLiveSchema]
  change some <$> fs.readJson _ _ = _
  rw [FileSystem.readJson_of_read hcoding (by decide +kernel) (.inl rfl) hread]
  rfl

/-- The schema of the project if its snapshot is the one that is there. -/
theorem schemaIn_of_locate (hwd : fs.workingDirectory = [])
    (hlive : fs.at? ["live.json"] = snapshotBesideCache.files.at? ["live.json"]) {root : Path}
    (hlocate : fs.locate (Snapshot.file root) = .ok ["gradle", "project-schema.json"])
    (hsnapshot : fs.at? ["gradle", "project-schema.json"]
      = snapshotBesideCache.files.at? ["gradle", "project-schema.json"]) (cache : Path) :
    (request root cache).schemaIn fs = .ok (some fixedSchema) := by
  have hat := hsnapshot.trans at?_snapshot
  have hload : Snapshot.load? fs root = .ok (some fixedSnapshot) := by
    rw [Snapshot.load?, isFile, find_of_locate hlocate, hat, if_pos rfl,
      FileSystem.readJson_of_read (BuildSchema.isCoding.roundTrips (by decide)) (by decide +kernel)
        (.inl rfl) (read_of_locate hlocate hat)]
    rfl
  have hfixed : ((request root cache).projectWith (some javaSchema)).inSnapshot? (some fixedSnapshot)
      = some fixedSchema := by
    change fixedSnapshot[":"]? = some fixedSchema
    simp [fixedSnapshot]
  have hroot : (request root cache).root = root := rfl
  rw [ProjectRequest.schemaIn_of_readLiveSchema_ok (readLiveSchema hwd hlive root cache), hroot, hload]
  simp only [Project.decision, hfixed, Except.mapError]

theorem schemaIn_here (cache : Path) :
    (request ⟨["."]⟩ cache).schemaIn snapshotBesideCache.files = .ok (some fixedSchema) := by
  refine schemaIn_of_locate rfl rfl ?_ rfl cache
  refine locate_eq_ok.mpr ⟨by decide +kernel, by decide +kernel, by decide +kernel, ?_⟩
  exact follow_cons_eq_ok.mpr ⟨rfl, by decide, follow_cons_eq_ok.mpr ⟨rfl, by decide,
    follow_singleton_eq_ok.mpr ⟨at?_gradle, by decide, rfl⟩⟩⟩

end snapshotBesideCache

/-- A root that the path to leads into the new directory of the cache and out of it. -/
def rootThroughCache : Path :=
  ⟨["cache", "gradle-kotlin-dsl-accessors-176b4ba7de85c64ae148e73ef8ee6ace", "..", ".."]⟩

namespace snapshotBesideCache

/-- The path of the snapshot does not lead anywhere yet. -/
theorem schemaIn_rootThroughCache :
    (request rootThroughCache ⟨["cache"]⟩).schemaIn snapshotBesideCache.files
      = .ok (some (javaSchema.map Rendering.type)) := by
  have hpasses : Passes [] (Snapshot.file rootThroughCache)
      ["cache", "gradle-kotlin-dsl-accessors-176b4ba7de85c64ae148e73ef8ee6ace"] :=
    ⟨["cache", "gradle-kotlin-dsl-accessors-176b4ba7de85c64ae148e73ef8ee6ace"], ⟨_, rfl⟩, rfl⟩
  have hload : Snapshot.load? snapshotBesideCache.files rootThroughCache = .ok none := by
    rw [Snapshot.load?, isFile]
    cases hfind : snapshotBesideCache.files.find (Snapshot.file rootThroughCache) with
    | error e => rfl
    | ok entry => exact absurd (at?_below_cache _ _) (at?_ne_none_of_find hfind hpasses)
  have hroot : (request rootThroughCache ⟨["cache"]⟩).root = rootThroughCache := rfl
  rw [ProjectRequest.schemaIn_of_readLiveSchema_ok (readLiveSchema rfl rfl _ _), hroot, hload]
  rfl

/-- It leads to one when the new directory is there. -/
theorem schemaIn_rootThroughCache_of_added (hwd : fs.workingDirectory = [])
    (hdirectory : fs.at? ["cache", "gradle-kotlin-dsl-accessors-176b4ba7de85c64ae148e73ef8ee6ace"]
      = some .directory)
    (hat : ∀ l, ¬ ["cache", "gradle-kotlin-dsl-accessors-176b4ba7de85c64ae148e73ef8ee6ace"] <+: l →
      fs.at? l = snapshotBesideCache.files.at? l) :
    (request rootThroughCache ⟨["cache"]⟩).schemaIn fs = .ok (some fixedSchema) := by
  have hcache := (hat ["cache"] (by decide)).trans at?_cache
  have hgradle := (hat ["gradle"] (by decide)).trans at?_gradle
  refine schemaIn_of_locate hwd (hat _ (by decide)) ?_ (hat _ (by decide)) _
  refine locate_eq_ok.mpr ⟨by decide +kernel, by decide +kernel, by decide +kernel, ?_⟩
  rw [start, hwd, ite_self]
  exact follow_cons_eq_ok.mpr ⟨rfl, by decide, follow_cons_eq_ok.mpr ⟨hcache, by decide,
    follow_cons_eq_ok.mpr ⟨hdirectory, by decide, follow_cons_eq_ok.mpr ⟨hcache, by decide,
    follow_cons_eq_ok.mpr ⟨rfl, by decide, follow_singleton_eq_ok.mpr ⟨hgradle, by decide, rfl⟩⟩⟩⟩⟩⟩

/-! ### The same cache, by a long path -/

theorem follow_dots {here : Location} (hdir : fs.at? here = some .directory) (n : Nat) :
    fs.follow here (List.replicate n ".") = .ok here := by
  induction n with
  | zero => rfl
  | succ n ih => exact follow_cons_eq_ok.mpr ⟨hdir, by decide, ih⟩

theorem utf8ByteSize_text_dots {front : List String} (hfront : front ≠ []) (n : Nat) :
    (text ⟨front ++ List.replicate n "."⟩).utf8ByteSize = (text ⟨front⟩).utf8ByteSize + 2 * n := by
  have hdot : (text ⟨["."]⟩).utf8ByteSize = 1 := by decide
  induction n with
  | zero =>
    rw [List.replicate_zero, List.append_nil]
    rfl
  | succ n ih =>
    rw [List.replicate_succ', ← List.append_assoc, utf8ByteSize_text_append
      (List.append_ne_nil_of_left_ne_nil hfront _) (List.cons_ne_nil _ _), ih, hdot]
    omega

/-- The cache, by a path that is almost as long as one can be. -/
def dottedCache : Path := ⟨["cache"] ++ List.replicate 2000 "."⟩

theorem mem_dottedCache {s : String} (hs : s ∈ dottedCache.segments) : s = "cache" ∨ s = "." := by
  rcases List.mem_append.mp hs with hs | hs
  · exact .inl (List.mem_singleton.mp hs)
  · exact .inr (List.eq_of_mem_replicate hs)

theorem locate_dottedCache : snapshotBesideCache.files.locate dottedCache = .ok ["cache"] := by
  have hsize : dottedCache.text.utf8ByteSize ≤ pathLimit := by
    rw [dottedCache, utf8ByteSize_text_dots (List.cons_ne_nil _ _)]
    decide
  refine locate_eq_ok.mpr ⟨?_, rfl, hsize, ?_⟩
  · rw [holdsNul, List.any_eq_false]
    intro s hs
    rcases mem_dottedCache hs with rfl | rfl <;> decide
  · exact follow_cons_eq_ok.mpr ⟨rfl, by decide, follow_dots at?_cache 2000⟩

theorem canCompile_dottedCache (root : Path) :
    writingJar.CanCompile (request root dottedCache) snapshotBesideCache.files := by
  refine canCompile locate_dottedCache (fun s hs => ?_) root
  rcases mem_dottedCache hs with rfl | rfl <;> decide

theorem not_hasRoom_dottedCache (root : Path) :
    ¬ writingJar.HasRoom (request root dottedCache) snapshotBesideCache.files := by
  have habsolute : (snapshotBesideCache.files.absolute dottedCache).stem
      = ["", "cache"] ++ List.replicate 2000 "." := by
    have hlast : (["", "cache"] ++ List.replicate 2000 ".").getLast? = some "." := by
      rw [List.replicate_succ', ← List.append_assoc, List.getLast?_concat]
    rw [absolute_of_not_isAbsolute (fun _ h => absurd h List.not_mem_nil) (by decide)]
    refine stem_of_getLast ?_
    change (["", "cache"] ++ List.replicate 2000 ".").getLast? ≠ some ""
    rw [hlast]
    decide
  change ¬ (text ⟨(snapshotBesideCache.files.absolute dottedCache).stem ++ [""]⟩).utf8ByteSize
    + "staged".utf8ByteSize + 101 ≤ pathLimit
  rw [habsolute, utf8ByteSize_text_append
    (List.append_ne_nil_of_left_ne_nil (List.cons_ne_nil _ _) _) (List.cons_ne_nil _ _),
    utf8ByteSize_text_dots (List.cons_ne_nil _ _)]
  decide

end snapshotBesideCache

end DslBindings
