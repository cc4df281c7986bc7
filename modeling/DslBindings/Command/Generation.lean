import DslBindings.Command.Error
import DslBindings.Command.Invocation
import DslBindings.Command.Table
import DslBindings.Extension.Sweep

/-!
# Generating the extension functions of a class path

All that can go wrong before there is something to write is found out first: the configuration, the
class path and the documentation are read without a change to any file. Only then the output is
written, and what could not be generated is reported behind that.
-/

namespace DslBindings

namespace GenerationRequest

/-- A configuration with what the request says instead. -/
def override (r : GenerationRequest) (c : Configuration) : Configuration where
  scope :=
    ⟨if r.included.isEmpty then c.scope.included else r.included,
      if r.excluded.isEmpty then c.scope.excluded else r.excluded⟩
  documentation := r.documentation <|> c.documentation
  output := r.output.getD c.output

/-- The configuration that a request names, or the one of the working directory. -/
def configured (r : GenerationRequest) (fs : FileSystem) :
    Except ConfigurationError Configuration :=
  match r.configuration with
  | some file => Configuration.load fs file
  | none => Configuration.discover fs (.ofNames true fs.workingDirectory)

end GenerationRequest

/-- A generation of which nothing but the output is missing. -/
structure Generation where
  classes : List ClassDescriptor
  documentation : DocumentationIndex
  output : Path

namespace Generation

/-- The documentation in a file, or none at all. -/
def readDocumentation (fs : FileSystem) : Option Path → Except JsonFileError DocumentationIndex
  | some file => fs.readJson DocumentationIndex.ofJson? file
  | none => .ok ∅

/-- Reads all that a generation needs. -/
def prepare (r : GenerationRequest) (fs : FileSystem) : Except CommandError Generation := do
  let c := r.override (← (r.configured fs).mapError .configuration)
  let classes ← (c.scope.scan fs r.classPath).mapError .scan
  let documentation ← (readDocumentation fs c.documentation).mapError .json
  return ⟨classes, documentation, c.output⟩

/-- What the extension functions are generated with. The callbacks are those among the classes. -/
def generator (g : Generation) : Generator := ⟨g.documentation, Callbacks.ofClasses g.classes⟩

/-- The report on a generation. -/
def sweep (g : Generation) : SweepReport := g.generator.sweepReport g.classes

/-- The source file of a generation. -/
def source (g : Generation) : String := g.generator.source g.classes

/-- Writes the source file. -/
def write (g : Generation) : Work IoError Unit := do
  match g.output.parent? with
  | some directory => Work.createDirectories directory
  | none => pure ()
  Work.change fun fs => fs.write g.output (Text.utf8 g.source)

end Generation

namespace SweepReport

/-- The numbers of a sweep as a table. -/
def summary (s : SweepReport) : Table where
  header := ["Classes", "Generic (skipped)", "Unbound (skipped)", "Extensions", "Failures"]
  rows := [[s.classes, s.genericClasses, s.unbound, s.generated, s.failures.length].map toString]

/-- The failures of a sweep as a table. -/
def failureTable (s : SweepReport) : Table where
  header := ["Class", "Method", "Reason"]
  rows := s.failures.map fun e => [e.className, e.methodText, e.reason]

/-- The tables of a sweep. Without failures there is no table of them. -/
def render (s : SweepReport) : String :=
  s.summary.render ++ if s.failures.isEmpty then "" else s.failureTable.render

end SweepReport

namespace Generation

/-- What is printed when the output is written. -/
def summary (g : Generation) : String :=
  g.sweep.render ++ "Wrote " ++ g.output.text ++ "\n"

/-- The failure of a generation that got to its end. -/
def failure? (g : Generation) : Option CommandError :=
  match g.sweep.failures with
  | [] => none
  | es => some (.failedExtensions es.length)

end Generation

end DslBindings
