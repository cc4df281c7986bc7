import DslBindings.Command.Words
import DslBindings.Configuration

/-!
# Invocations

What a command line asks for. The options in front of the name of a command can also stand behind
it, where they count more.
-/

namespace DslBindings

/-- What a generation is asked to do. What is not given is taken from the configuration. -/
structure GenerationRequest where
  classPath : List Path
  configuration : Option Path
  documentation : Option Path
  output : Option Path
  included : List String
  excluded : List String
  deriving DecidableEq, Repr, Inhabited

/-- What is asked about a project. -/
structure ProjectRequest where
  root : Path
  project : String
  classPath : List Path
  /-- The file with the schema of the project for the case that the snapshot has none. -/
  liveSchema : Option Path
  cacheDirectory : Option Path
  deriving DecidableEq, Repr, Inhabited

/-- What can be done with the accessors of a project. -/
inductive ProjectTask
  /-- Their class path is printed, and they are compiled unless the cache has them. -/
  | resolve
  /-- Their source is printed. -/
  | report
  /-- Their cache key is printed. -/
  | cacheKey
  deriving DecidableEq, Repr, Inhabited

/-- A command. -/
inductive Command
  | generate (request : GenerationRequest)
  | project (task : ProjectTask) (request : ProjectRequest)
  deriving DecidableEq, Repr, Inhabited

/-- What a command line asks for. -/
structure Invocation where
  /-- Whether the log also goes to the error output. -/
  isVerbose : Bool
  logDirectory : Option Path
  command : Command
  deriving DecidableEq, Repr, Inhabited

/-- What a command is named after. -/
inductive Verb
  | generate
  | project (task : ProjectTask)
  deriving DecidableEq, Repr, Inhabited

namespace Verb

/-- The name of a command. -/
def name : Verb → String
  | .generate => "generate-extensions"
  | .project .resolve => "accessors"
  | .project .report => "accessors-report"
  | .project .cacheKey => "cache-key"

def all : List Verb := [.generate, .project .resolve, .project .report, .project .cacheKey]

/-- The command of this name. -/
def ofName? (name : String) : Option Verb := all.find? (·.name = name)

/-- The word that asks for help about the command behind it. -/
def helpName : String := "help"

/-- What stands in front of the name of a command. -/
def front : Part := ⟨[.verbose, .help, .version], [.logDirectory], .command⟩

/-- What stands behind the name of a command. -/
def part : Verb → Part
  | .generate =>
    ⟨[.verbose, .help],
      [.logDirectory, .configuration, .documentation, .output, .included, .excluded],
      .many "CLASSPATH"⟩
  | .project _ =>
    ⟨[.verbose, .help], [.logDirectory, .project, .classPath, .liveSchema, .cacheDirectory],
      .one "ROOT_DIR"⟩

end Verb

namespace Given

/-- The path that a setting has as its value. -/
def path? (g : Given) (s : Setting) : Option Path := (g.value? s).map Path.ofText

/-- The request for a generation with this class path. -/
def generation (g : Given) (classPath : List String) : GenerationRequest where
  classPath := classPath.map Path.ofText
  configuration := g.path? .configuration
  documentation := g.path? .documentation
  output := g.path? .output
  included := g.values .included
  excluded := g.values .excluded

/-- The request about a project of the build with this root. It is the root project by default. -/
def project (g : Given) (root : String) : ProjectRequest where
  root := .ofText root
  project := (g.value? .project).getD ":"
  classPath := (g.values .classPath).map Path.ofText
  liveSchema := g.path? .liveSchema
  cacheDirectory := g.path? .cacheDirectory

/-- The command that is given behind its name. -/
def command (g : Given) (verb : Verb) : Except Ending Command :=
  match verb, g.words with
  | .generate, [] => .error (.misuse (.missingWord "CLASSPATH"))
  | .generate, classPath => .ok (.generate (g.generation classPath))
  | .project _, [] => .error (.misuse (.missingWord "ROOT_DIR"))
  | .project task, root :: _ => .ok (.project task (g.project root))

end Given

namespace Invocation

/-- How a command line ends that asks for help about what these words name. -/
def help : (words : List String) → Ending
  | [] => .help
  | [word] =>
    if word = Verb.helpName || (Verb.ofName? word).isSome then .help
    else .misuse (.unknownCommand word)
  | _ :: word :: _ => .misuse (.unknownCommand word)

/-- What a command line asks for. -/
def ofWords (words : List String) : Except Ending Invocation := do
  let (front, rest) ← Verb.front.read {} words
  match rest with
  | [] => throw (.misuse .missingCommand)
  | name :: rest =>
    if name = Verb.helpName then throw (help rest)
    match Verb.ofName? name with
    | none => throw (.misuse (.unknownCommand name))
    | some verb =>
      let (behind, _) ← verb.part.read {} rest
      return {
        isVerbose := front.flags.contains .verbose || behind.flags.contains .verbose
        logDirectory := behind.path? .logDirectory <|> front.path? .logDirectory
        command := ← behind.command verb }

end Invocation

end DslBindings
