import DslBindings.Proofs.Command.Running
import DslBindings.Proofs.Extension.Sweeps
import DslBindings.Proofs.Files.Writing

/-!
# What a generation leaves behind

A generation reads everything before it writes anything: up to the first step that fails the files stay
as they are once there is a place for the log. If no step fails and the output can be written, the
output holds the whole sweep, whatever was there before and however many methods got no function.
-/

namespace DslBindings

variable {env : Environment} {r : GenerationRequest} {c : Configuration} {w w₁ w₂ : Workspace}
  {fs : FileSystem} {classes : List ClassDescriptor} {documentation : DocumentationIndex}

namespace Generation

/-! ### What is read -/

theorem prepare_of_not_configured {e : ConfigurationError} (hc : r.configured fs = .error e) :
    prepare r fs = .error (.configuration e) := by
  rw [prepare, hc]
  rfl

theorem prepare_of_not_scanned {e : ScanError} (hc : r.configured fs = .ok c)
    (hscan : (r.override c).scope.scan fs r.classPath = .error e) :
    prepare r fs = .error (.scan e) := by
  rw [prepare, hc]
  simp only [Except.mapError, bind, Except.bind]
  rw [hscan]

theorem prepare_of_undocumented {e : JsonFileError} (hc : r.configured fs = .ok c)
    (hscan : (r.override c).scope.scan fs r.classPath = .ok classes)
    (hread : readDocumentation fs (r.override c).documentation = .error e) :
    prepare r fs = .error (.json e) := by
  rw [prepare, hc]
  simp only [Except.mapError, bind, Except.bind]
  rw [hscan, hread]

theorem prepare_of_read (hc : r.configured fs = .ok c)
    (hscan : (r.override c).scope.scan fs r.classPath = .ok classes)
    (hread : readDocumentation fs (r.override c).documentation = .ok documentation) :
    prepare r fs = .ok ⟨classes, documentation, (r.override c).output⟩ := by
  rw [prepare, hc]
  simp only [Except.mapError, bind, Except.bind]
  rw [hscan, hread]
  rfl

/-! ### What is written -/

theorem source_eq (g : Generation) :
    g.source = Header.extensions ++ String.join (g.classes.flatMap g.generator.blocks) := by
  rw [source, Generator.source, String.join_cons]

/-- A sweep over the classes writes the source file, and the report on it is the one of the sweep. -/
theorem writeClasses_headed (g : Generation) :
    g.generator.writeClasses Generator.headed g.classes =
      (some g.sweep,
        { Generator.headed with
          offered := Header.extensions :: g.classes.flatMap g.generator.blocks
          taken := Header.extensions :: g.classes.flatMap g.generator.blocks }) := by
  rw [Generator.writeClasses_headed, sweep, Generator.sweepReport, ← List.foldl_map,
    SweepReport.foldl_add]
  simp [List.countP_map, List.flatMap_map, Function.comp_def]

theorem read_output_of_change {g : Generation}
    (h : (Work.change fun fs => fs.write g.output (Text.utf8 g.source)).runAt w = (.ok (), w₂)) :
    w₂.files.read g.output = .ok (Text.utf8 g.source) := by
  rw [Work.runAt_change] at h
  split at h
  · next fs hwrite =>
    obtain ⟨-, rfl⟩ := Prod.mk.inj h
    exact FileSystem.read_of_write hwrite
  · cases h

theorem read_output_of_write {g : Generation} (h : g.write.runAt w = (.ok (), w₂)) :
    w₂.files.read g.output = .ok (Text.utf8 g.source) := by
  rw [write] at h
  cases hparent : g.output.parent? with
  | none =>
    rw [hparent] at h
    exact read_output_of_change h
  | some directory =>
    simp only [hparent, Work.runAt_bind] at h
    split at h
    · exact read_output_of_change h
    · cases h

theorem exitCode_of_written (g : Generation) :
    (RunReport.ofCommand ⟨g.summary, g.failure?⟩).exitCode = 0 ↔ g.sweep.failures = [] := by
  rw [RunReport.ofCommand, failure?]
  cases g.sweep.failures <;> simp

end Generation

namespace GenerationRequest

theorem runAt_perform_of_error {e : CommandError} (h : Generation.prepare r w.files = .error e) :
    r.perform.runAt w = (.error e, w) := by
  rw [perform, Work.runAt_bind, Work.runAt_look, h]

theorem runAt_perform_of_ok {g : Generation} (h : Generation.prepare r w.files = .ok g)
    (hwrite : g.write.runAt w = (.ok (), w₂)) :
    r.perform.runAt w = (.ok ⟨g.summary, g.failure?⟩, w₂) := by
  rw [perform, Work.runAt_bind, Work.runAt_look, h]
  simp only [Work.runAt_bind, Work.runAt_failingWith, hwrite]
  rfl

end GenerationRequest

namespace Invocation

variable {i : Invocation}

/-- A run in which something cannot be read leaves what it found once it had a place for its log. -/
theorem run_of_prepare_error {e : CommandError} (hcommand : i.command = .generate r)
    (hlog : (Work.createDirectories (i.logDirectoryIn env)).runAt w = (.ok (), w₁))
    (h : Generation.prepare r w₁.files = .error e) :
    (i.run env).run w = (⟨1, "", e.report⟩, w₁) := by
  have hperform : (i.command.perform env).runAt w₁ = (.error e, w₁) := by
    rw [hcommand]
    exact GenerationRequest.runAt_perform_of_error h
  rw [run_of_ok hlog, Command.run_eq, hperform]
  rfl

theorem run_of_prepare_ok {g : Generation} (hcommand : i.command = .generate r)
    (hlog : (Work.createDirectories (i.logDirectoryIn env)).runAt w = (.ok (), w₁))
    (h : Generation.prepare r w₁.files = .ok g) (hwrite : g.write.runAt w₁ = (.ok (), w₂)) :
    (i.run env).run w = (.ofCommand ⟨g.summary, g.failure?⟩, w₂) := by
  have hperform : (i.command.perform env).runAt w₁ = (.ok ⟨g.summary, g.failure?⟩, w₂) := by
    rw [hcommand]
    exact GenerationRequest.runAt_perform_of_ok h hwrite
  rw [run_of_ok hlog, Command.run_eq, hperform]

end Invocation

/-- A directory without a class file, and an output that is there already. -/
def withOldOutput : Workspace :=
  ⟨(FileSystem.empty.put ["x"] .directory).put ["E.kt"] (.file [1, 2, 3]), []⟩

end DslBindings
