import DslBindings.Proofs.Command.Running
import DslBindings.Proofs.Files.Writing
import DslBindings.Proofs.Resolver.Steps

/-!
# How the tasks for a project end

All three tasks go by one schema (`ProjectRequest.schemaIn`), and fail alike where that cannot be read.
The schema does not change with files that are added, except below a place that the path of the snapshot
leads to.
-/

namespace DslBindings

open Path FileSystem

/-- The schema of a project with these files, if it has one. -/
def Project.schemaIn (p : Project) (fs : FileSystem) :
    Except CommandError (Option (ProjectSchema String)) :=
  match Snapshot.load? fs p.root with
  | .error e => .error (.resolver (.schema e))
  | .ok schemas => (p.decision schemas).mapError .resolver

/-- The schema of the project that a request is about, if it has one. -/
def ProjectRequest.schemaIn (r : ProjectRequest) (fs : FileSystem) :
    Except CommandError (Option (ProjectSchema String)) :=
  match r.readLiveSchema fs with
  | .error e => .error (.json e)
  | .ok live => (r.projectWith live).schemaIn fs

variable {env : Environment} {r : ProjectRequest} {w : Workspace} {fs : FileSystem} {p : Project}

namespace Resolving

theorem runAt_once {α : Type} (question : Resolving α) (w : Workspace) :
    question.once.runAt w = ((question.runAt ⟨{}, w⟩).1.mapError .resolver,
      (question.runAt ⟨{}, w⟩).2.workspace) := rfl

theorem exists_once_schema (p : Project) (w : Workspace) :
    ∃ w', (Resolver.schema p).once.runAt w = (p.schemaIn w.files, w') ∧ w'.files = w.files := by
  rw [runAt_once, Resolver.runAt_schema_of_none rfl, Project.schemaIn]
  cases Snapshot.load? w.files p.root with
  | error e => exact ⟨_, rfl, rfl⟩
  | ok schemas => exact ⟨_, rfl, rfl⟩

theorem exists_once_classPath (store : AccessorsStore) (p : Project) (entries : List Path)
    (w : Workspace) :
    ∃ w', w'.files = w.files
      ∧ (Resolver.classPath store.cache store.compiler p entries).once.runAt w
        = match p.schemaIn w.files with
          | .error e => (.error e, w')
          | .ok none => (.ok .empty, w')
          | .ok (some schema) =>
            ((Accessors.compile store.cache store.compiler schema entries).failingWith .resolver).runAt w' := by
  rw [runAt_once, Resolver.runAt_classPath_of_none rfl, Resolver.runAt_schema_of_none rfl,
    Project.schemaIn]
  cases Snapshot.load? w.files p.root with
  | error e => exact ⟨w.recording [.snapshotRead p.root], rfl, rfl⟩
  | ok schemas =>
    refine ⟨w.recording (.snapshotRead p.root :: p.introspections schemas), rfl, ?_⟩
    simp only
    rcases p.decision schemas with e | _ | schema
    · rfl
    · rfl
    · simp only [Resolver.useDecision, Except.mapError, Work.runAt_failingWith]

end Resolving

namespace ProjectTask

/-- What is printed for a directory with accessors. -/
def pathsText (directory : Path) : String :=
  "bin: " ++ (Accessors.archive directory).text ++ "\nsrc: "
    ++ (Accessors.sourceDirectory directory).text ++ "\n"

theorem classPathText_classPathIn (p : Project) (directory : Path) :
    classPathText p (Accessors.classPathIn directory) = pathsText directory := by
  apply String.toList_injective
  simp [classPathText, pathsText, Accessors.classPathIn, AccessorsClassPath.isEmpty, String.join]

theorem head?_append_of_head? {a : String} {c : Char} (h : a.toList.head? = some c) (b : String) :
    (a ++ b).toList.head? = some c := by
  rw [String.toList_append, List.head?_append, h]
  rfl

theorem pathsText_ne_noSchema (directory : Path) (project : String) :
    pathsText directory ≠ CommandError.noSchemaMessage project ++ "\n" := by
  have hpaths : (pathsText directory).toList.head? = some 'b' := by
    rw [pathsText, String.append_assoc, String.append_assoc, String.append_assoc]
    exact head?_append_of_head? rfl _
  have hmessage : (CommandError.noSchemaMessage project ++ "\n").toList.head? = some 'N' :=
    head?_append_of_head? (head?_append_of_head? rfl _) _
  intro h
  rw [h, hmessage] at hpaths
  exact absurd hpaths (by decide)

theorem exists_schemaOf (p : Project) (w : Workspace) :
    ∃ w', w'.files = w.files ∧ (schemaOf p).runAt w = match p.schemaIn w.files with
      | .error e => (.error e, w')
      | .ok none => (.error (.noSchema p.path), w')
      | .ok (some schema) => (.ok schema, w') := by
  obtain ⟨w', honce, hfiles⟩ := Resolving.exists_once_schema p w
  refine ⟨w', hfiles, ?_⟩
  rw [schemaOf, Work.runAt_bind, honce]
  rcases p.schemaIn w.files with e | _ | schema <;> rfl

theorem exists_perform_report (store : AccessorsStore) (p : Project) (entries : List Path)
    (w : Workspace) :
    ∃ w', w'.files = w.files ∧ (perform store p entries .report).runAt w = match p.schemaIn w.files with
      | .error e => (.error e, w')
      | .ok none => (.error (.noSchema p.path), w')
      | .ok (some schema) => (.ok (Accessors.source schema), w') := by
  obtain ⟨w', hfiles, hschema⟩ := exists_schemaOf p w
  refine ⟨w', hfiles, ?_⟩
  rw [perform, Work.runAt_bind, hschema]
  rcases p.schemaIn w.files with e | _ | schema <;> rfl

theorem exists_perform_cacheKey (store : AccessorsStore) (p : Project) (entries : List Path)
    (w : Workspace) :
    ∃ w', w'.files = w.files ∧ (perform store p entries .cacheKey).runAt w = match p.schemaIn w.files with
      | .error e => (.error e, w')
      | .ok none => (.error (.noSchema p.path), w')
      | .ok (some schema) =>
        let key := Accessors.cacheKey schema entries
        (.ok (cacheKeyText key (w.files.isDirectory (store.cache.directory key))), w') := by
  obtain ⟨w', hfiles, hschema⟩ := exists_schemaOf p w
  refine ⟨w', hfiles, ?_⟩
  rw [perform, Work.runAt_bind, hschema, ← hfiles]
  rcases p.schemaIn w'.files with e | _ | schema <;> rfl

theorem exists_perform_resolve (store : AccessorsStore) (p : Project) (entries : List Path)
    (w : Workspace) :
    ∃ w', w'.files = w.files ∧ (perform store p entries .resolve).runAt w = match p.schemaIn w.files with
      | .error e => (.error e, w')
      | .ok none => (.ok (CommandError.noSchemaMessage p.path ++ "\n"), w')
      | .ok (some schema) =>
        match (Accessors.compile store.cache store.compiler schema entries).runAt w' with
        | (.ok found, w'') => (.ok (classPathText p found), w'')
        | (.error e, w'') => (.error (.resolver e), w'') := by
  obtain ⟨w', hfiles, honce⟩ := Resolving.exists_once_classPath store p entries w
  refine ⟨w', hfiles, ?_⟩
  rw [perform, Work.runAt_bind, honce]
  rcases p.schemaIn w.files with e | _ | schema
  · rfl
  · rfl
  · simp only [Work.runAt_failingWith]
    rcases (Accessors.compile store.cache store.compiler schema entries).runAt w' with ⟨e | found, w''⟩ <;> rfl

end ProjectTask

namespace ProjectRequest

/-- A run of the command that does a task for the project of a request. -/
def run (env : Environment) (r : ProjectRequest) (task : ProjectTask) (w : Workspace) :
    CommandReport × Workspace :=
  ((Command.project task r).run env).run w

theorem run_of_readLiveSchema_error {e : JsonFileError} (h : r.readLiveSchema w.files = .error e)
    (task : ProjectTask) : r.run env task w = (⟨"", some (.json e)⟩, w) := by
  have hread : r.read.runAt w = (.error (.json e), w) := by
    rw [read, Work.runAt_look, h]
    rfl
  have hperform : ((Command.project task r).perform env).runAt w = (.error (.json e), w) := by
    rw [Command.perform, perform, Work.runAt_bind_error hread]
  rw [run, Command.run_eq, hperform]

theorem run_of_readLiveSchema_ok {live : Option (ProjectSchema JvmType)}
    (h : r.readLiveSchema w.files = .ok live) (task : ProjectTask) :
    r.run env task w
      = match (task.perform (env.storeFor r) (r.projectWith live) r.classPath).runAt w with
        | (.ok output, w') => (⟨output, none⟩, w')
        | (.error e, w') => (⟨"", some e⟩, w') := by
  have hread : r.read.runAt w = (.ok (r.projectWith live), w) := by
    rw [read, Work.runAt_look, h]
    rfl
  rw [run, Command.run_eq, Command.perform, perform, Work.runAt_bind_ok hread, Work.runAt_bind]
  rcases (task.perform (env.storeFor r) (r.projectWith live) r.classPath).runAt w with ⟨e | output, w'⟩ <;>
    rfl

theorem run_report (env : Environment) (r : ProjectRequest) (w : Workspace) :
    (r.run env .report w).1 = match r.schemaIn w.files with
      | .error e => ⟨"", some e⟩
      | .ok none => ⟨"", some (.noSchema r.project)⟩
      | .ok (some schema) => ⟨Accessors.source schema, none⟩ := by
  rw [schemaIn]
  cases hlive : r.readLiveSchema w.files with
  | error e => rw [run_of_readLiveSchema_error hlive]
  | ok live =>
    obtain ⟨w', -, hperform⟩ := ProjectTask.exists_perform_report (env.storeFor r)
      (r.projectWith live) r.classPath w
    rw [run_of_readLiveSchema_ok hlive, hperform]
    simp only
    rcases (r.projectWith live).schemaIn w.files with e | _ | schema <;> rfl

theorem run_cacheKey (env : Environment) (r : ProjectRequest) (w : Workspace) :
    (r.run env .cacheKey w).1 = match r.schemaIn w.files with
      | .error e => ⟨"", some e⟩
      | .ok none => ⟨"", some (.noSchema r.project)⟩
      | .ok (some schema) =>
        let key := Accessors.cacheKey schema r.classPath
        ⟨ProjectTask.cacheKeyText key (w.files.isDirectory ((env.cacheFor r).directory key)), none⟩ := by
  rw [schemaIn]
  cases hlive : r.readLiveSchema w.files with
  | error e => rw [run_of_readLiveSchema_error hlive]
  | ok live =>
    obtain ⟨w', -, hperform⟩ := ProjectTask.exists_perform_cacheKey (env.storeFor r)
      (r.projectWith live) r.classPath w
    rw [run_of_readLiveSchema_ok hlive, hperform]
    simp only
    rcases (r.projectWith live).schemaIn w.files with e | _ | schema <;> rfl

theorem run_cacheKey_of_some {schema : ProjectSchema String} (h : r.schemaIn w.files = .ok (some schema))
    {key : CacheKey} (hkey : Accessors.cacheKey schema r.classPath = key) (env : Environment) :
    (r.run env .cacheKey w).1 = ⟨ProjectTask.cacheKeyText key
      (w.files.isDirectory ((env.cacheFor r).directory key)), none⟩ := by
  rw [run_cacheKey, h, ← hkey]

theorem exists_run_resolve (env : Environment) (r : ProjectRequest) (w : Workspace) :
    ∃ w', w'.files = w.files ∧ r.run env .resolve w = match r.schemaIn w.files with
      | .error e => (⟨"", some e⟩, w')
      | .ok none => (⟨CommandError.noSchemaMessage r.project ++ "\n", none⟩, w')
      | .ok (some schema) =>
        match (Accessors.compile (env.cacheFor r) env.compiler.compiler schema r.classPath).runAt w' with
        | (.ok found, w'') => (⟨ProjectTask.classPathText (r.projectWith none) found, none⟩, w'')
        | (.error e, w'') => (⟨"", some (.resolver e)⟩, w'') := by
  rw [schemaIn]
  cases hlive : r.readLiveSchema w.files with
  | error e => exact ⟨w, rfl, run_of_readLiveSchema_error hlive .resolve⟩
  | ok live =>
    obtain ⟨w', hfiles, hperform⟩ := ProjectTask.exists_perform_resolve (env.storeFor r)
      (r.projectWith live) r.classPath w
    refine ⟨w', hfiles, ?_⟩
    rw [run_of_readLiveSchema_ok hlive, hperform]
    simp only
    rcases (r.projectWith live).schemaIn w.files with e | _ | schema
    · rfl
    · rfl
    · simp only [Environment.storeFor]
      rcases (Accessors.compile (env.cacheFor r) env.compiler.compiler schema r.classPath).runAt w' with
        ⟨e | found, w''⟩ <;> rfl

theorem run_of_schemaIn_error {e : CommandError} (h : r.schemaIn w.files = .error e)
    (env : Environment) (task : ProjectTask) : (r.run env task w).1 = ⟨"", some e⟩ := by
  cases task with
  | resolve =>
    obtain ⟨w', -, hresolve⟩ := exists_run_resolve env r w
    rw [hresolve, h]
  | report => rw [run_report, h]
  | cacheKey => rw [run_cacheKey, h]

theorem run_resolve_of_schemaIn_none (h : r.schemaIn w.files = .ok none) (env : Environment) :
    (r.run env .resolve w).1 = ⟨CommandError.noSchemaMessage r.project ++ "\n", none⟩ := by
  obtain ⟨w', -, hresolve⟩ := exists_run_resolve env r w
  rw [hresolve, h]

theorem schemaIn_of_readLiveSchema_error {e : JsonFileError} (h : r.readLiveSchema fs = .error e) :
    r.schemaIn fs = .error (.json e) := by
  rw [schemaIn, h]

theorem schemaIn_of_readLiveSchema_ok {live : Option (ProjectSchema JvmType)}
    (h : r.readLiveSchema fs = .ok live) :
    r.schemaIn fs = match Snapshot.load? fs r.root with
      | .error e => .error (.resolver (.schema e))
      | .ok schemas => ((r.projectWith live).decision schemas).mapError .resolver := by
  rw [schemaIn, h]
  rfl

/-! ### What the schema depends on -/

theorem readLiveSchema_of_find {live : Option (ProjectSchema JvmType)} {fs' : FileSystem}
    (h : r.readLiveSchema fs = .ok live)
    (hfind : ∀ (p : Path) (entry : FileEntry), fs.find p = .ok entry → fs'.find p = fs.find p) :
    r.readLiveSchema fs' = .ok live := by
  rw [readLiveSchema] at h ⊢
  cases hfile : r.liveSchema with
  | none =>
    rw [hfile] at h
    exact h
  | some file =>
    rw [hfile] at h
    simp only at h ⊢
    cases hthere : fs.find file with
    | error e =>
      rw [readJson, FileSystem.read, hthere] at h
      cases h
    | ok entry =>
      rw [readJson, read_congr (hfind file entry hthere)]
      exact h

theorem load?_congr {fs' : FileSystem} {root : Path}
    (h : fs'.find (Snapshot.file root) = fs.find (Snapshot.file root)) :
    Snapshot.load? fs' root = Snapshot.load? fs root := by
  rw [Snapshot.load?, Snapshot.load?, isFile_congr h, readJson, readJson, read_congr h]

/-- What is added at places where nothing was makes no difference, unless it is on the way to the
snapshot. -/
theorem schemaIn_of_added {fs' : FileSystem} {here : Location} {schema : Option (ProjectSchema String)}
    (h : r.schemaIn fs = .ok schema) (hwd : fs'.workingDirectory = fs.workingDirectory)
    (hnone : ∀ l, here <+: l → fs.at? l = none)
    (hat : ∀ l, ¬ here <+: l → fs'.at? l = fs.at? l)
    (hsnapshot : ∀ l, Passes fs.workingDirectory (Snapshot.file r.root) l → ¬ here <+: l) :
    r.schemaIn fs' = .ok schema := by
  have hload : Snapshot.load? fs' r.root = Snapshot.load? fs r.root :=
    load?_congr (find_congr hwd fun l hl => hat l (hsnapshot l hl))
  cases hlive : r.readLiveSchema fs with
  | error e =>
    rw [schemaIn_of_readLiveSchema_error hlive] at h
    cases h
  | ok live =>
    have hlive' : r.readLiveSchema fs' = .ok live := by
      refine readLiveSchema_of_find hlive fun p entry hfind => ?_
      exact find_congr hwd fun l hl =>
        hat l fun hbelow => at?_ne_none_of_find hfind hl (hnone l hbelow)
    rw [schemaIn_of_readLiveSchema_ok hlive', hload, ← schemaIn_of_readLiveSchema_ok hlive, h]

end ProjectRequest

end DslBindings
