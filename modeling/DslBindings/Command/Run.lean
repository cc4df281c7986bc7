import DslBindings.Command.Accessors
import DslBindings.Command.Generation

/-!
# Runs of the program

A run reads its command line, makes sure of the directory for its log, and does what it was asked.
What it prints and how it ends is a value; all that it does to files happens in a workspace.
-/

namespace DslBindings

/-- What a run finds around it. -/
structure Environment where
  /-- The home directory of the user. -/
  home : Path
  /-- The compiler. -/
  compiler : Program
  /-- What the names of directories end with that are populated. -/
  stagingLabel : String := "staged"

/-- What a command prints, and how it failed if it did. -/
structure CommandReport where
  output : String
  failure : Option CommandError
  deriving DecidableEq, Repr, Inhabited

/-- How a run ended. -/
structure RunReport where
  exitCode : Nat
  output : String
  errors : String
  deriving DecidableEq, Repr, Inhabited

namespace Environment

/-- The directory below the home directory for all that is kept between runs. -/
def state (env : Environment) : Path := env.home.joinText ".ktdsl"

/-- The directory for the logs, if no other one is given. -/
def logDirectory (env : Environment) : Path := env.state.joinText "logs"

/-- The cache of a request. -/
def cacheFor (env : Environment) (r : ProjectRequest) : DirectoryCache where
  root := r.cacheDirectory.getD (env.state.joinText "accessors")
  stagingLabel := env.stagingLabel

/-- Where the accessors of a request are kept. -/
def storeFor (env : Environment) (r : ProjectRequest) : AccessorsStore :=
  ⟨env.cacheFor r, env.compiler.compiler⟩

end Environment

/-- Generates extension functions. -/
def GenerationRequest.perform (r : GenerationRequest) : Work CommandError CommandReport := do
  let g ← Work.look (Generation.prepare r)
  g.write.failingWith .output
  return ⟨g.summary, g.failure?⟩

/-- Does a task for the project that a request is about. -/
def ProjectRequest.perform (env : Environment) (task : ProjectTask) (r : ProjectRequest) :
    Work CommandError CommandReport := do
  let output ← task.perform (env.storeFor r) (← r.read) r.classPath
  return ⟨output, none⟩

namespace Command

/-- Does what a command says, if nothing goes wrong on the way. -/
def perform (env : Environment) : Command → Work CommandError CommandReport
  | .generate r => r.perform
  | .project task r => r.perform env task

/-- Does what a command says. -/
def run (env : Environment) (c : Command) : StateM Workspace CommandReport := do
  match ← (c.perform env).run with
  | .ok report => return report
  | .error e => return ⟨"", some e⟩

end Command

namespace RunReport

/-- The name and the version of the program. -/
def versionText : String := "ktdsl 0.1.0\n"

/-- How the program is called. -/
def usageText : String :=
  "Usage: ktdsl [OPTIONS] <COMMAND>\n\nCommands:\n"
    ++ String.join (Verb.all.map fun verb => "  " ++ verb.name ++ "\n")

/-- The end of a run whose command line is not one of a run. -/
def ofEnding : Ending → RunReport
  | .help => ⟨0, usageText, ""⟩
  | .version => ⟨0, versionText, ""⟩
  | .misuse reason => ⟨2, "", "error: " ++ reason.message ++ "\n\n" ++ usageText⟩

/-- The end of a run that has no place for its log. -/
def noLog (directory : Path) : RunReport :=
  ⟨101, "", "cannot write a log to " ++ directory.text ++ "\n"⟩

/-- The end of a run with a command. -/
def ofCommand (c : CommandReport) : RunReport :=
  match c.failure with
  | none => ⟨0, c.output, ""⟩
  | some e => ⟨1, c.output, e.report⟩

end RunReport

namespace Invocation

/-- The directory for the log of a run. -/
def logDirectoryIn (i : Invocation) (env : Environment) : Path :=
  i.logDirectory.getD env.logDirectory

/-- Does what a command line asks for. -/
def run (env : Environment) (i : Invocation) : StateM Workspace RunReport := do
  let log := i.logDirectoryIn env
  match ← (Work.createDirectories log).run with
  | .ok () => return .ofCommand (← i.command.run env)
  | .error _ => return .noLog log

end Invocation

/-- A run of the program with these words. -/
def runWords (env : Environment) (words : List String) : StateM Workspace RunReport :=
  match Invocation.ofWords words with
  | .ok i => i.run env
  | .error ending => return .ofEnding ending

end DslBindings
