import DslBindings.Proofs.Build.Recording

/-!
# One call of a resolver

What a call finds out, keeps and records, for each state of what is kept. A decision about a schema is
made from the snapshot of the build and the project alone (`Project.decision`), so everything else about
a call is where the snapshot came from and what is done with the schema.
-/

namespace DslBindings

namespace Resolving

variable {α β : Type}

/-- The result of resolving something, and what it leaves. -/
def runAt (resolving : Resolving α) (r : Resolution) : Except ResolverError α × Resolution :=
  resolving.run r

@[simp] theorem runAt_pure (a : α) (r : Resolution) :
    (pure a : Resolving α).runAt r = (.ok a, r) := rfl

@[simp] theorem runAt_throw (e : ResolverError) (r : Resolution) :
    (throw e : Resolving α).runAt r = (.error e, r) := rfl

theorem runAt_bind (resolving : Resolving α) (next : α → Resolving β) (r : Resolution) :
    (resolving >>= next).runAt r = match resolving.runAt r with
      | (.ok a, r') => (next a).runAt r'
      | (.error e, r') => (.error e, r') := by
  change (ExceptT.bindCont next (resolving r).1) (resolving r).2 = _
  rw [runAt, ExceptT.run]
  rcases resolving r with ⟨_ | _, r'⟩ <;> rfl

theorem runAt_bind_ok {resolving : Resolving α} {next : α → Resolving β} {r r' : Resolution} {a : α}
    (h : resolving.runAt r = (.ok a, r')) : (resolving >>= next).runAt r = (next a).runAt r' := by
  rw [runAt_bind, h]

theorem runAt_bind_error {resolving : Resolving α} {next : α → Resolving β} {r r' : Resolution}
    {e : ResolverError} (h : resolving.runAt r = (.error e, r')) :
    (resolving >>= next).runAt r = (.error e, r') := by
  rw [runAt_bind, h]

@[simp] theorem runAt_kept_bind (next : Resolver → Resolving β) (r : Resolution) :
    (kept >>= next).runAt r = (next r.resolver).runAt r := rfl

@[simp] theorem runAt_perform (work : Work ResolverError α) (r : Resolution) :
    (perform work).runAt r
      = ((work.runAt r.workspace).1, { r with workspace := (work.runAt r.workspace).2 }) := rfl

end Resolving

namespace Project

/-- The schema that the snapshot of its build has for a project. -/
def inSnapshot? (p : Project) (schemas : Option BuildSchema) : Option (ProjectSchema String) :=
  schemas.bind fun schemas => schemas[p.path]?

/-- Whether a project is asked for its live schema if its build has this snapshot. -/
def IsIntrospected (p : Project) (schemas : Option BuildSchema) : Prop :=
  p.inSnapshot? schemas = none ∧ p.wantsLiveSchema ∧ p.isLocked

instance (p : Project) (schemas : Option BuildSchema) : Decidable (p.IsIntrospected schemas) := by
  have : Decidable (p.inSnapshot? schemas = none) := decidable_of_iff _ Option.isNone_iff_eq_none
  exact instDecidableAnd

/-- The schema of a project whose build has this snapshot. -/
def decision (p : Project) (schemas : Option BuildSchema) :
    Except ResolverError (Option (ProjectSchema String)) :=
  match p.inSnapshot? schemas with
  | some schema => .ok (some schema)
  | none =>
    if !p.wantsLiveSchema then .ok none
    else if !p.isLocked then .error (.notLocked p.path)
    else .ok (some (p.liveSchema.map Rendering.type))

/-- What is recorded on the way to the schema of a project whose build has this snapshot. -/
def introspections (p : Project) (schemas : Option BuildSchema) : List BuildEvent :=
  if p.IsIntrospected schemas then [.introspection p.key] else []

theorem mem_introspections {p : Project} {schemas : Option BuildSchema} {event : BuildEvent} :
    event ∈ p.introspections schemas ↔ event = .introspection p.key ∧ p.IsIntrospected schemas := by
  rw [introspections]
  by_cases h : p.IsIntrospected schemas <;> simp [h]

end Project

namespace Workspace

/-- A workspace in which more is recorded. -/
def recording (w : Workspace) (events : List BuildEvent) : Workspace :=
  { w with events := w.events ++ events }

@[simp] theorem recording_nil (w : Workspace) : w.recording [] = w := by simp [recording]

end Workspace

namespace Resolver

/-- The snapshot that is kept of the build with this root. -/
def snapshot? (r : Resolver) (root : Path) : Option (Option BuildSchema) :=
  r.snapshots.lookup root.components

/-- A resolver that keeps the snapshot of one more build. -/
def keepingSnapshot (r : Resolver) (root : Path) (schemas : Option BuildSchema) : Resolver :=
  { r with snapshots := (root.components, schemas) :: r.snapshots }

/-- A resolver that keeps the class path of one more project. -/
def keepingClassPath (r : Resolver) (key : ProjectKey) (classPath : AccessorsClassPath) : Resolver :=
  { r with classPaths := (key, classPath) :: r.classPaths }

theorem runAt_liveSchema {p : Project} {schemas : Option BuildSchema}
    (h : p.inSnapshot? schemas = none) (r : Resolver) (w : Workspace) :
    (liveSchema p).runAt ⟨r, w⟩ = (p.decision schemas, ⟨r, w.recording (p.introspections schemas)⟩) := by
  cases hwants : p.wantsLiveSchema with
  | false =>
    have hskip : p.introspections schemas = [] :=
      if_neg fun hi => Bool.false_ne_true (hwants.symm.trans hi.2.1)
    rw [hskip, Workspace.recording_nil, liveSchema, Project.decision, h, hwants]
    rfl
  | true =>
    cases hlocked : p.isLocked with
    | false =>
      have hskip : p.introspections schemas = [] :=
        if_neg fun hi => Bool.false_ne_true (hlocked.symm.trans hi.2.2)
      rw [hskip, Workspace.recording_nil, liveSchema, Project.decision, h, hwants, hlocked]
      rfl
    | true =>
      have hask : p.introspections schemas = [.introspection p.key] :=
        if_pos ⟨h, hwants, hlocked⟩
      rw [hask, liveSchema, Project.decision, h, hwants, hlocked]
      rfl

theorem runAt_decide (p : Project) (schemas : Option BuildSchema) (r : Resolver) (w : Workspace) :
    (match schemas.bind fun schemas => schemas[p.path]? with
      | some schema => return some schema
      | none => liveSchema p : Resolving (Option (ProjectSchema String))).runAt ⟨r, w⟩
      = (p.decision schemas, ⟨r, w.recording (p.introspections schemas)⟩) := by
  cases hfound : p.inSnapshot? schemas with
  | none =>
    rw [Project.inSnapshot?] at hfound
    rw [hfound]
    exact runAt_liveSchema hfound r w
  | some schema =>
    have hskip : p.introspections schemas = [] := if_neg fun hi => by
      rw [hi.1] at hfound
      cases hfound
    rw [hskip, Workspace.recording_nil, Project.decision, hfound]
    rw [Project.inSnapshot?] at hfound
    rw [hfound]
    rfl

/-! ### Snapshots -/

theorem runAt_snapshot_of_some {r : Resolver} {root : Path} {schemas : Option BuildSchema}
    (h : r.snapshot? root = some schemas) (w : Workspace) :
    (snapshot root).runAt ⟨r, w⟩ = (.ok schemas, ⟨r, w⟩) := by
  rw [snapshot?] at h
  rw [snapshot, Resolving.runAt_kept_bind, h]
  rfl

/-- A snapshot that is not kept is loaded. -/
theorem runAt_snapshot_of_none {r : Resolver} {root : Path} (h : r.snapshot? root = none)
    (w : Workspace) :
    (snapshot root).runAt ⟨r, w⟩ = match Snapshot.load? w.files root with
      | .ok schemas =>
        (.ok schemas, ⟨r.keepingSnapshot root schemas, w.recording [.snapshotRead root]⟩)
      | .error e => (.error (.schema e), ⟨r, w.recording [.snapshotRead root]⟩) := by
  rw [snapshot?] at h
  rw [snapshot, Resolving.runAt_kept_bind, h]
  change (Resolving.perform _ >>= _ : Resolving (Option BuildSchema)).runAt ⟨r, w⟩ = _
  rw [Resolving.runAt_bind, Resolving.runAt_perform, Work.runAt_bind_ok (Work.runAt_record _ _),
    Work.runAt_look]
  cases hload : Snapshot.load? w.files root <;> rfl

/-! ### Schemas -/

theorem runAt_schema_of_some {r : Resolver} {p : Project} {schemas : Option BuildSchema}
    (h : r.snapshot? p.root = some schemas) (w : Workspace) :
    (schema p).runAt ⟨r, w⟩
      = (p.decision schemas, ⟨r, w.recording (p.introspections schemas)⟩) := by
  rw [schema, Resolving.runAt_bind, runAt_snapshot_of_some h]
  exact runAt_decide p schemas r w

theorem runAt_schema_of_none {r : Resolver} {p : Project} (h : r.snapshot? p.root = none)
    (w : Workspace) :
    (schema p).runAt ⟨r, w⟩ = match Snapshot.load? w.files p.root with
      | .ok schemas =>
        (p.decision schemas, ⟨r.keepingSnapshot p.root schemas,
          w.recording (.snapshotRead p.root :: p.introspections schemas)⟩)
      | .error e => (.error (.schema e), ⟨r, w.recording [.snapshotRead p.root]⟩) := by
  rw [schema, Resolving.runAt_bind, runAt_snapshot_of_none h]
  cases Snapshot.load? w.files p.root with
  | error e => rfl
  | ok schemas =>
    have hevents : (w.recording [.snapshotRead p.root]).recording (p.introspections schemas)
        = w.recording (.snapshotRead p.root :: p.introspections schemas) := by
      simp [Workspace.recording]
    have hdecide := runAt_decide p schemas (r.keepingSnapshot p.root schemas)
      (w.recording [.snapshotRead p.root])
    rw [hevents] at hdecide
    exact hdecide

/-! ### Class paths -/

/-- What becomes of a decision about the schema of a project whose class path is asked for. -/
def useDecision (cache : DirectoryCache) (compiler : Compiler) (classPath : List Path)
    (w : Workspace) :
    Except ResolverError (Option (ProjectSchema String)) →
      Except ResolverError AccessorsClassPath × Workspace
  | .error e => (.error e, w)
  | .ok none => (.ok .empty, w)
  | .ok (some schema) => (Accessors.compile cache compiler schema classPath).runAt w

/-- What is kept of a result. -/
def keepingResult (r : Resolver) (key : ProjectKey) :
    Except ResolverError AccessorsClassPath → Resolver
  | .ok classPath => r.keepingClassPath key classPath
  | .error _ => r

theorem runAt_classPath_of_some {r : Resolver} {p : Project} {found : AccessorsClassPath}
    (h : r.classPaths.lookup p.key = some found) (cache : DirectoryCache) (compiler : Compiler)
    (entries : List Path) (w : Workspace) :
    (classPath cache compiler p entries).runAt ⟨r, w⟩ = (.ok found, ⟨r, w⟩) := by
  rw [classPath, Resolving.runAt_kept_bind, h]
  rfl

theorem runAt_resolve (cache : DirectoryCache) (compiler : Compiler) (p : Project)
    (entries : List Path) (r : Resolution) :
    (resolve cache compiler p entries).runAt r =
      let decided := (schema p).runAt r
      let used := useDecision cache compiler entries decided.2.workspace decided.1
      (used.1, ⟨decided.2.resolver, used.2⟩) := by
  rw [resolve]
  rcases hdecided : (schema p).runAt r with ⟨e | _ | schema, ⟨r', w'⟩⟩
  · rw [Resolving.runAt_bind_error hdecided]
    rfl
  · rw [Resolving.runAt_bind_ok hdecided]
    rfl
  · rw [Resolving.runAt_bind_ok hdecided]
    change (Resolving.perform (Accessors.compile cache compiler schema entries)).runAt ⟨r', w'⟩ = _
    rw [Resolving.runAt_perform]
    simp only [useDecision]

theorem runAt_classPath_of_none {r : Resolver} {p : Project} (h : r.classPaths.lookup p.key = none)
    (cache : DirectoryCache) (compiler : Compiler) (entries : List Path) (w : Workspace) :
    (classPath cache compiler p entries).runAt ⟨r, w⟩ =
      let decided := (schema p).runAt ⟨r, w⟩
      let used := useDecision cache compiler entries decided.2.workspace decided.1
      (used.1, ⟨decided.2.resolver.keepingResult p.key used.1, used.2⟩) := by
  have hresolve := runAt_resolve cache compiler p entries ⟨r, w⟩
  rw [classPath, Resolving.runAt_kept_bind, h]
  simp only at hresolve ⊢
  generalize useDecision cache compiler entries ((schema p).runAt ⟨r, w⟩).2.workspace
    ((schema p).runAt ⟨r, w⟩).1 = used at hresolve ⊢
  obtain ⟨e | found, w'⟩ := used
  · rw [Resolving.runAt_bind_error hresolve]
    rfl
  · rw [Resolving.runAt_bind_ok hresolve]
    rfl

end Resolver

end DslBindings
