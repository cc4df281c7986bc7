import DslBindings.Build.Resolver
import DslBindings.Proofs.Files.Growth

/-!
# What work records

Work never takes back what is recorded. `RecordsOnly` says which events a piece of work can add; the laws
for putting pieces together leave only the pieces that record something themselves to look at.
-/

namespace DslBindings

/-- Events that are added to those that were recorded. -/
def Adds (kind : BuildEvent → Prop) (before after : List BuildEvent) : Prop :=
  ∃ added, after = before ++ added ∧ ∀ event ∈ added, kind event

namespace Adds

variable {kind : BuildEvent → Prop} {a b c : List BuildEvent}

theorem refl (kind : BuildEvent → Prop) (a : List BuildEvent) : Adds kind a a :=
  ⟨[], (List.append_nil a).symm, fun _ h => absurd h List.not_mem_nil⟩

theorem trans (hab : Adds kind a b) (hbc : Adds kind b c) : Adds kind a c := by
  obtain ⟨x, rfl, hx⟩ := hab
  obtain ⟨y, rfl, hy⟩ := hbc
  refine ⟨x ++ y, List.append_assoc a x y, fun event hmem => ?_⟩
  rcases List.mem_append.mp hmem with hmem | hmem
  · exact hx event hmem
  · exact hy event hmem

theorem mono {kind' : BuildEvent → Prop} (hkind : ∀ event, kind event → kind' event)
    (h : Adds kind a b) : Adds kind' a b := by
  obtain ⟨x, rfl, hx⟩ := h
  exact ⟨x, rfl, fun event hmem => hkind event (hx event hmem)⟩

theorem kind_of_mem (h : Adds kind a b) {event : BuildEvent} (hmem : event ∈ b) (hnew : event ∉ a) :
    kind event := by
  obtain ⟨x, rfl, hx⟩ := h
  rcases List.mem_append.mp hmem with hmem | hmem
  · exact absurd hmem hnew
  · exact hx event hmem

end Adds

namespace Work

/-- Work that only records events of a kind, however it ends. -/
def RecordsOnly {ε α : Type} (kind : BuildEvent → Prop) (work : Work ε α) : Prop :=
  ∀ w, Adds kind w.events (work.runAt w).2.events

variable {ε δ α β : Type} {kind : BuildEvent → Prop}

theorem recordsOnly_pure (a : α) : RecordsOnly kind (pure a : Work ε α) := fun w => Adds.refl kind w.events

theorem recordsOnly_throw (e : ε) : RecordsOnly kind (throw e : Work ε α) :=
  fun w => Adds.refl kind w.events

theorem recordsOnly_bind {work : Work ε α} {next : α → Work ε β} (hwork : RecordsOnly kind work)
    (hnext : ∀ a, RecordsOnly kind (next a)) : RecordsOnly kind (work >>= next) := by
  intro w
  have hfirst := hwork w
  rw [runAt_bind]
  rcases hrun : work.runAt w with ⟨e | a, w'⟩
  · rw [hrun] at hfirst
    exact hfirst
  · rw [hrun] at hfirst
    exact hfirst.trans (hnext a w')

theorem recordsOnly_files_bind {next : FileSystem → Work ε β} (hnext : ∀ fs, RecordsOnly kind (next fs)) :
    RecordsOnly kind (files >>= next) := fun w => hnext w.files w

theorem recordsOnly_record {event : BuildEvent} (h : kind event) :
    RecordsOnly kind (record event : Work ε Unit) := by
  intro w
  refine ⟨[event], rfl, fun other hmem => ?_⟩
  rw [List.mem_singleton.mp hmem]
  exact h

theorem recordsOnly_putFiles (fs : FileSystem) : RecordsOnly kind (putFiles fs : Work ε Unit) :=
  fun w => Adds.refl kind w.events

theorem recordsOnly_change (f : FileSystem → Except ε FileSystem) : RecordsOnly kind (change f) := by
  intro w
  rw [runAt_change]
  cases f w.files <;> exact Adds.refl kind w.events

theorem recordsOnly_failingWith {work : Work ε α} (h : RecordsOnly kind work) (f : ε → δ) :
    RecordsOnly kind (work.failingWith f) := h

theorem recordsOnly_outcome {work : Work ε α} (h : RecordsOnly kind work) :
    RecordsOnly kind (work.outcome : Work δ _) := h

theorem recordsOnly_createDirectories (p : Path) : RecordsOnly kind (createDirectories p) := by
  intro w
  rw [(onlyGrows_createDirectories p w).2]
  exact Adds.refl kind w.events

end Work

/-! ### Caches and compilations -/

open Work

/-- What can be recorded while the accessors of a schema are looked for in a cache. -/
def IsCacheWork : BuildEvent → Prop
  | .cacheAccess _ | .compilation _ => True
  | .snapshotRead _ | .introspection _ => False

/-- A compiler that asks nothing of the world around it. -/
def Compiler.IsSilent (compiler : Compiler) : Prop :=
  ∀ job, (compiler job).RecordsOnly fun _ => False

theorem Program.isSilent_compiler (p : Program) : p.compiler.IsSilent := by
  intro job
  rw [Program.compiler]
  split
  · exact recordsOnly_throw _
  · split
    · exact recordsOnly_throw _
    · apply recordsOnly_files_bind
      intro fs
      apply recordsOnly_bind (recordsOnly_putFiles _)
      intro _
      split
      · exact recordsOnly_pure _
      · exact recordsOnly_throw _

namespace DirectoryCache

variable {ε : Type}

theorem recordsOnly_discardStaging (staging : Path) {kind : BuildEvent → Prop} :
    (discardStaging staging : Work ε Unit).RecordsOnly kind := by
  apply recordsOnly_files_bind
  intro fs
  split
  · exact recordsOnly_putFiles _
  · exact recordsOnly_pure _

theorem recordsOnly_publish (staging target : Path) {kind : BuildEvent → Prop} :
    (publish staging target : Work (CacheError ε) Path).RecordsOnly kind := by
  apply recordsOnly_files_bind
  intro fs
  split
  · exact recordsOnly_bind (recordsOnly_putFiles _) fun _ => recordsOnly_pure _
  · apply recordsOnly_files_bind
    intro fs'
    apply recordsOnly_bind (recordsOnly_discardStaging staging)
    intro _
    split
    · exact recordsOnly_pure _
    · exact recordsOnly_throw _

theorem recordsOnly_prepare (cache : DirectoryCache) (key : CacheKey) {kind : BuildEvent → Prop} :
    (cache.prepare key : Work (CacheError ε) Path).RecordsOnly kind := by
  apply recordsOnly_bind (recordsOnly_failingWith (recordsOnly_createDirectories _) _)
  intro _
  apply recordsOnly_files_bind
  intro fs
  exact recordsOnly_bind (recordsOnly_change _) fun _ => recordsOnly_pure _

theorem recordsOnly_directoryFor (cache : DirectoryCache) (key : CacheKey)
    {populate : Path → Work ε Unit} (h : ∀ p, (populate p).RecordsOnly IsCacheWork) :
    (cache.directoryFor key populate).RecordsOnly IsCacheWork := by
  apply recordsOnly_bind (recordsOnly_record trivial)
  intro _
  apply recordsOnly_files_bind
  intro fs
  split
  · exact recordsOnly_pure _
  · apply recordsOnly_bind (recordsOnly_prepare cache key)
    intro staging
    apply recordsOnly_bind (recordsOnly_outcome (h staging))
    intro result
    cases result with
    | ok _ => exact recordsOnly_publish _ _
    | error e => exact recordsOnly_bind (recordsOnly_discardStaging staging) fun _ => recordsOnly_throw _

end DirectoryCache

namespace Accessors

theorem recordsOnly_populate {compiler : Compiler} (hcompiler : compiler.IsSilent)
    (schema : ProjectSchema String) (classPath : List Path) (directory : Path) :
    (populate compiler schema classPath directory).RecordsOnly IsCacheWork := by
  have hsource : (writeSource schema directory).RecordsOnly IsCacheWork := by
    rw [writeSource]
    split
    · exact recordsOnly_bind (recordsOnly_createDirectories _) fun _ => recordsOnly_change _
    · exact recordsOnly_change _
  have hcompile (job : Compilation) : (compiler job).RecordsOnly IsCacheWork :=
    fun w => (hcompiler job w).mono fun _ => False.elim
  apply recordsOnly_bind (recordsOnly_failingWith hsource _)
  intro _
  apply recordsOnly_bind (recordsOnly_record trivial)
  intro _
  exact recordsOnly_failingWith (hcompile _) _

/-- To look for accessors in a cache, and to compile them, is all that is asked for on the way. -/
theorem recordsOnly_compile (cache : DirectoryCache) {compiler : Compiler}
    (hcompiler : compiler.IsSilent) (schema : ProjectSchema String) (classPath : List Path) :
    (compile cache compiler schema classPath).RecordsOnly IsCacheWork := by
  apply recordsOnly_bind
  · exact recordsOnly_failingWith (DirectoryCache.recordsOnly_directoryFor cache _
      (recordsOnly_populate hcompiler schema classPath)) _
  · exact fun directory => recordsOnly_pure _

end Accessors

end DslBindings
