import DslBindings.Proofs.Resolver.Steps

/-!
# Runs of calls of a resolver

Calls of one resolver, one after another. Between two calls everything but the resolver can change: a
call comes with its files, its compiler, and its project with what that answers. What a resolver keeps
only grows, and never for a key or a root that it has already (`Resolver.Extends`); the rest is in what one
call does.
-/

namespace DslBindings

/-- A call that asks for the class path of a project. -/
structure ClassPathCall where
  cache : DirectoryCache
  compiler : Compiler
  project : Project
  entries : List Path
  files : FileSystem
  isSilent : compiler.IsSilent

/-- A call that asks for the schema of a project. -/
structure SchemaCall where
  project : Project
  files : FileSystem

/-- A call of a resolver. -/
inductive ResolverCall
  | classPath (c : ClassPathCall)
  | schema (c : SchemaCall)

/-- How a call ends. -/
def ClassPathCall.run (c : ClassPathCall) (r : Resolver) :
    Except ResolverError AccessorsClassPath × Resolution :=
  (Resolver.classPath c.cache c.compiler c.project c.entries).runAt ⟨r, ⟨c.files, []⟩⟩

/-- How a call ends. -/
def SchemaCall.run (c : SchemaCall) (r : Resolver) :
    Except ResolverError (Option (ProjectSchema String)) × Resolution :=
  (Resolver.schema c.project).runAt ⟨r, ⟨c.files, []⟩⟩

namespace ResolverCall

def project : ResolverCall → Project
  | .classPath c => c.project
  | .schema c => c.project

/-- What a call leaves. -/
def leaves (r : Resolver) : ResolverCall → Resolution
  | .classPath c => (c.run r).2
  | .schema c => (c.run r).2

def Succeeds (r : Resolver) : ResolverCall → Prop
  | .classPath c => ∃ found, (c.run r).1 = .ok found
  | .schema c => ∃ schema, (c.run r).1 = .ok schema

end ResolverCall

namespace Resolver

variable {r s t : Resolver}

/-- A resolver after one more call. -/
def after (r : Resolver) (c : ResolverCall) : Resolver := (c.leaves r).resolver

/-- A resolver after calls that are made one after another. -/
def ofCalls (calls : List ResolverCall) : Resolver := calls.foldl after {}

/-- Calls made one after another none of which fails. -/
def NoneFails : (r : Resolver) → (calls : List ResolverCall) → Prop
  | _, [] => True
  | r, c :: calls => c.Succeeds r ∧ NoneFails (r.after c) calls

/-! ### What is kept stays -/

/-- A resolver keeps all that another one keeps. -/
structure Extends (r s : Resolver) : Prop where
  classPath (key : ProjectKey) (found : AccessorsClassPath)
    (h : r.classPaths.lookup key = some found) : s.classPaths.lookup key = some found
  snapshot (root : Path) (schemas : Option BuildSchema) (h : r.snapshot? root = some schemas) :
    s.snapshot? root = some schemas

theorem Extends.refl (r : Resolver) : r.Extends r := ⟨fun _ _ h => h, fun _ _ h => h⟩

theorem Extends.trans (h : r.Extends s) (h' : s.Extends t) : r.Extends t :=
  ⟨fun key found hr => h'.classPath key found (h.classPath key found hr),
    fun root schemas hr => h'.snapshot root schemas (h.snapshot root schemas hr)⟩

theorem snapshot?_keepingSnapshot (r : Resolver) (root other : Path) (schemas : Option BuildSchema) :
    (r.keepingSnapshot root schemas).snapshot? other
      = if other.components = root.components then some schemas else r.snapshot? other :=
  lookup_cons_eq_ite other.components root.components schemas r.snapshots

theorem lookup_keepingClassPath (r : Resolver) (key other : ProjectKey) (found : AccessorsClassPath) :
    (r.keepingClassPath key found).classPaths.lookup other
      = if other = key then some found else r.classPaths.lookup other :=
  lookup_cons_eq_ite other key found r.classPaths

theorem extends_keepingSnapshot {root : Path} (h : r.snapshot? root = none)
    (schemas : Option BuildSchema) : r.Extends (r.keepingSnapshot root schemas) := by
  refine ⟨fun _ _ hr => hr, fun other found hr => ?_⟩
  rw [snapshot?_keepingSnapshot, if_neg, hr]
  intro heq
  rw [snapshot?, heq] at hr
  rw [snapshot?, hr] at h
  cases h

theorem extends_keepingResult {key : ProjectKey} (h : r.classPaths.lookup key = none)
    (result : Except ResolverError AccessorsClassPath) : r.Extends (r.keepingResult key result) := by
  cases result with
  | error e => exact .refl r
  | ok found =>
    refine ⟨fun other found' hr => ?_, fun _ _ hr => hr⟩
    rw [keepingResult, lookup_keepingClassPath, if_neg, hr]
    rintro rfl
    rw [hr] at h
    cases h

/-! ### What a call leaves -/

/-- What is kept once the snapshot of a build is asked for. -/
def loading (r : Resolver) (root : Path) (fs : FileSystem) : Resolver :=
  match r.snapshot? root, Snapshot.load? fs root with
  | none, .ok schemas => r.keepingSnapshot root schemas
  | _, _ => r

theorem resolver_runAt_schema (p : Project) (r : Resolver) (w : Workspace) :
    ((schema p).runAt ⟨r, w⟩).2.resolver = r.loading p.root w.files := by
  rw [loading]
  cases h : r.snapshot? p.root with
  | some schemas => rw [runAt_schema_of_some h]
  | none =>
    rw [runAt_schema_of_none h]
    cases Snapshot.load? w.files p.root <;> rfl

theorem classPaths_loading (r : Resolver) (root : Path) (fs : FileSystem) :
    (r.loading root fs).classPaths = r.classPaths := by
  rw [loading]
  split <;> rfl

theorem extends_loading (r : Resolver) (root : Path) (fs : FileSystem) :
    r.Extends (r.loading root fs) := by
  rw [loading]
  split
  · next h _ => exact extends_keepingSnapshot h _
  · exact .refl r

theorem run_of_isSome {c : ClassPathCall} {found : AccessorsClassPath}
    (h : r.classPaths.lookup c.project.key = some found) :
    c.run r = (.ok found, ⟨r, ⟨c.files, []⟩⟩) :=
  runAt_classPath_of_some h _ _ _ _

/-- A class path that is not kept is kept once it is found. -/
theorem resolver_run_of_isNone {c : ClassPathCall} (h : r.classPaths.lookup c.project.key = none) :
    (c.run r).2.resolver = (r.loading c.project.root c.files).keepingResult c.project.key (c.run r).1 := by
  rw [ClassPathCall.run, runAt_classPath_of_none h]
  simp only [resolver_runAt_schema]

theorem extends_after (r : Resolver) (c : ResolverCall) : r.Extends (r.after c) := by
  cases c with
  | schema c =>
    change r.Extends ((schema c.project).runAt ⟨r, ⟨c.files, []⟩⟩).2.resolver
    rw [resolver_runAt_schema]
    exact extends_loading r _ _
  | classPath c =>
    change r.Extends (c.run r).2.resolver
    cases h : r.classPaths.lookup c.project.key with
    | some found =>
      rw [run_of_isSome h]
      exact .refl r
    | none =>
      rw [resolver_run_of_isNone h]
      refine (extends_loading r c.project.root c.files).trans (extends_keepingResult ?_ _)
      rw [classPaths_loading, h]

theorem extends_foldl (r : Resolver) (calls : List ResolverCall) :
    r.Extends (calls.foldl after r) := by
  induction calls generalizing r with
  | nil => exact .refl r
  | cons c calls ih => exact (extends_after r c).trans (ih (r.after c))

theorem ofCalls_append (calls more : List ResolverCall) :
    ofCalls (calls ++ more) = more.foldl after (ofCalls calls) := List.foldl_append

/-! ### Resolvers with the same snapshots -/

/-- What is decided about a schema, and what is recorded on the way, depends on the snapshot alone. -/
theorem runAt_schema_congr (p : Project) (w : Workspace)
    (h : r.snapshot? p.root = s.snapshot? p.root) :
    ((schema p).runAt ⟨r, w⟩).1 = ((schema p).runAt ⟨s, w⟩).1
      ∧ ((schema p).runAt ⟨r, w⟩).2.workspace = ((schema p).runAt ⟨s, w⟩).2.workspace := by
  cases hr : r.snapshot? p.root with
  | some schemas =>
    rw [runAt_schema_of_some hr, runAt_schema_of_some (h.symm.trans hr)]
    exact ⟨rfl, rfl⟩
  | none =>
    rw [runAt_schema_of_none hr, runAt_schema_of_none (h.symm.trans hr)]
    cases Snapshot.load? w.files p.root <;> exact ⟨rfl, rfl⟩

theorem run_congr (c : ClassPathCall) (hr : r.classPaths.lookup c.project.key = none)
    (hs : s.classPaths.lookup c.project.key = none)
    (h : r.snapshot? c.project.root = s.snapshot? c.project.root) :
    (c.run r).1 = (c.run s).1 ∧ (c.run r).2.workspace = (c.run s).2.workspace := by
  obtain ⟨hdecided, hworkspace⟩ := runAt_schema_congr c.project ⟨c.files, []⟩ h
  rw [ClassPathCall.run, ClassPathCall.run, runAt_classPath_of_none hr, runAt_classPath_of_none hs]
  simp only [hdecided, hworkspace, and_self]

/-! ### Calls that fail -/

/-- A call that fails keeps no class path. -/
theorem resolver_run_of_error {c : ClassPathCall} {e : ResolverError} (h : (c.run r).1 = .error e) :
    r.classPaths.lookup c.project.key = none
      ∧ (c.run r).2.resolver = r.loading c.project.root c.files := by
  cases hkept : r.classPaths.lookup c.project.key with
  | some found =>
    rw [run_of_isSome hkept] at h
    cases h
  | none =>
    refine ⟨rfl, ?_⟩
    rw [resolver_run_of_isNone hkept, h, keepingResult]

/-- A project that does not ask for its live schema. -/
def silenced (p : Project) : Project := { p with properties := [] }

theorem decision_silenced (p : Project) (schemas : Option BuildSchema) :
    ∃ schema, (silenced p).decision schemas = .ok schema := by
  rw [Project.decision]
  cases (silenced p).inSnapshot? schemas with
  | some schema => exact ⟨_, rfl⟩
  | none => exact ⟨none, rfl⟩

/-- All that a snapshot that is asked for can leave, calls that do not fail can leave too. -/
theorem exists_noneFails_loading (r : Resolver) (p : Project) (fs : FileSystem) :
    ∃ calls, r.NoneFails calls ∧ calls.foldl after r = r.loading p.root fs := by
  cases h : r.snapshot? p.root with
  | some schemas => exact ⟨[], trivial, by rw [loading, h]; rfl⟩
  | none =>
    cases hload : Snapshot.load? fs p.root with
    | error e => exact ⟨[], trivial, by rw [loading, h, hload]; rfl⟩
    | ok schemas =>
      have hkept : r.snapshot? (silenced p).root = none := h
      have hloaded : Snapshot.load? fs (silenced p).root = .ok schemas := hload
      obtain ⟨schema, hdecision⟩ := decision_silenced p schemas
      refine ⟨[.schema ⟨silenced p, fs⟩], ⟨⟨schema, ?_⟩, trivial⟩, ?_⟩
      · rw [SchemaCall.run, runAt_schema_of_none hkept, hloaded]
        exact hdecision
      · exact resolver_runAt_schema (silenced p) r ⟨fs, []⟩

theorem after_of_not_succeeds {c : ResolverCall} (h : ¬ c.Succeeds r) :
    ∃ fs, r.after c = r.loading c.project.root fs := by
  cases c with
  | schema c => exact ⟨c.files, resolver_runAt_schema _ _ _⟩
  | classPath c =>
    cases hresult : (c.run r).1 with
    | ok found => exact absurd ⟨found, hresult⟩ h
    | error e => exact ⟨c.files, (resolver_run_of_error hresult).2⟩

theorem noneFails_append {calls more : List ResolverCall} (h : r.NoneFails calls)
    (hmore : (calls.foldl after r).NoneFails more) : r.NoneFails (calls ++ more) := by
  induction calls generalizing r with
  | nil => exact hmore
  | cons c calls ih => exact ⟨h.1, ih h.2 hmore⟩

/-- Whatever calls leave, some calls that do not fail leave too. -/
theorem exists_noneFails (r : Resolver) (calls : List ResolverCall) :
    ∃ others, r.NoneFails others ∧ others.foldl after r = calls.foldl after r := by
  induction calls generalizing r with
  | nil => exact ⟨[], trivial, rfl⟩
  | cons c calls ih =>
    obtain ⟨others, hothers, heq⟩ := ih (r.after c)
    rw [List.foldl_cons, ← heq]
    by_cases h : c.Succeeds r
    · exact ⟨c :: others, ⟨h, hothers⟩, rfl⟩
    · obtain ⟨fs, hafter⟩ := after_of_not_succeeds h
      obtain ⟨front, hfront, hleft⟩ := exists_noneFails_loading r c.project fs
      rw [← hafter] at hleft
      refine ⟨front ++ others, noneFails_append hfront (hleft ▸ hothers), ?_⟩
      rw [List.foldl_append, hleft]

/-! ### Introspections -/

/-- A project is introspected only if it is not in the snapshot that is kept by then. -/
theorem of_introspection_mem_schema {p : Project} {fs : FileSystem} {key : ProjectKey}
    (h : .introspection key ∈ ((schema p).runAt ⟨r, ⟨fs, []⟩⟩).2.workspace.events) :
    key = p.key ∧ ∃ schemas, (r.loading p.root fs).snapshot? p.root = some schemas
      ∧ p.IsIntrospected schemas := by
  rw [loading]
  cases hkept : r.snapshot? p.root with
  | some schemas =>
    rw [runAt_schema_of_some hkept] at h
    obtain ⟨hkey, hasked⟩ := Project.mem_introspections.mp h
    exact ⟨BuildEvent.introspection.inj hkey, schemas, hkept, hasked⟩
  | none =>
    rw [runAt_schema_of_none hkept] at h
    cases hload : Snapshot.load? fs p.root with
    | error e =>
      rw [hload] at h
      cases List.mem_singleton.mp h
    | ok schemas =>
      rw [hload] at h
      rcases List.mem_cons.mp h with heq | hmem
      · cases heq
      · obtain ⟨hkey, hasked⟩ := Project.mem_introspections.mp hmem
        refine ⟨BuildEvent.introspection.inj hkey, schemas, ?_, hasked⟩
        rw [snapshot?_keepingSnapshot, if_pos rfl]

theorem adds_useDecision (c : ClassPathCall) (w : Workspace)
    (decided : Except ResolverError (Option (ProjectSchema String))) :
    Adds IsCacheWork w.events (useDecision c.cache c.compiler c.entries w decided).2.events := by
  match decided with
  | .error e => exact .refl _ _
  | .ok none => exact .refl _ _
  | .ok (some schema) =>
    rw [useDecision]
    exact Accessors.recordsOnly_compile c.cache c.isSilent schema c.entries w

theorem snapshot?_keepingResult (r : Resolver) (key : ProjectKey)
    (result : Except ResolverError AccessorsClassPath) (root : Path) :
    (r.keepingResult key result).snapshot? root = r.snapshot? root := by
  cases result <;> rfl

theorem of_introspection_mem_leaves {c : ResolverCall} {key : ProjectKey}
    (h : .introspection key ∈ (c.leaves r).workspace.events) :
    key = c.project.key ∧ ∃ schemas, (c.leaves r).resolver.snapshot? c.project.root = some schemas
      ∧ c.project.IsIntrospected schemas := by
  cases c with
  | schema c =>
    obtain ⟨hkey, schemas, hkept, hasked⟩ := of_introspection_mem_schema h
    rw [← resolver_runAt_schema c.project r ⟨c.files, []⟩] at hkept
    exact ⟨hkey, schemas, hkept, hasked⟩
  | classPath c =>
    change .introspection key ∈ (c.run r).2.workspace.events at h
    change key = c.project.key ∧ ∃ schemas, (c.run r).2.resolver.snapshot? c.project.root = some schemas
      ∧ c.project.IsIntrospected schemas
    cases hkept : r.classPaths.lookup c.project.key with
    | some found =>
      rw [run_of_isSome hkept] at h
      cases h
    | none =>
      have hmem : .introspection key
          ∈ ((schema c.project).runAt ⟨r, ⟨c.files, []⟩⟩).2.workspace.events := by
        by_contra hnew
        rw [ClassPathCall.run, runAt_classPath_of_none hkept] at h
        exact (adds_useDecision c _ _).kind_of_mem h hnew
      obtain ⟨hkey, schemas, hschemas, hasked⟩ := of_introspection_mem_schema hmem
      refine ⟨hkey, schemas, ?_, hasked⟩
      rw [resolver_run_of_isNone hkept, snapshot?_keepingResult, hschemas]

/-! ### All calls -/

end Resolver

end DslBindings
