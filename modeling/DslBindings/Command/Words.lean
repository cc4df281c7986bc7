import DslBindings.Text.Basic

/-!
# Words of a command line

A word that starts with two dashes is the long name of an option, and a word that starts with one
dash holds letters of options; behind a word of two dashes and nothing else no word is an option.
A setting has its value behind an equals sign, behind its letter, or in the next word.

The words are read from left to right up to the first mistake, or to the first flag that asks for
something else than a run.
-/

namespace DslBindings

/-- An option without a value. -/
inductive Flag
  | verbose
  | help
  | version
  deriving DecidableEq, Repr, Inhabited

/-- An option with a value. -/
inductive Setting
  | logDirectory
  | configuration
  | documentation
  | output
  | included
  | excluded
  | project
  | classPath
  | liveSchema
  | cacheDirectory
  deriving DecidableEq, Repr, Inhabited

/-- What is wrong with a command line. -/
inductive Misuse
  | unknownOption (name : String)
  | unexpectedValue (option : String)
  | missingValue (option : String)
  /-- A path has no text. -/
  | emptyPath (place : String)
  | repeated (option : String)
  | unexpectedWord (word : String)
  | missingWord (place : String)
  | unknownCommand (word : String)
  | missingCommand
  deriving DecidableEq, Repr, Inhabited

/-- Why a command line is not one of a run. -/
inductive Ending
  | help
  | version
  | misuse (reason : Misuse)
  deriving DecidableEq, Repr, Inhabited

namespace Flag

def name : Flag → String
  | .verbose => "verbose"
  | .help => "help"
  | .version => "version"

def letter : Flag → Char
  | .verbose => 'v'
  | .help => 'h'
  | .version => 'V'

end Flag

namespace Setting

def name : Setting → String
  | .logDirectory => "log-dir"
  | .configuration => "config"
  | .documentation => "docs"
  | .output => "output"
  | .included => "include"
  | .excluded => "exclude"
  | .project => "project"
  | .classPath => "classpath"
  | .liveSchema => "live-schema"
  | .cacheDirectory => "cache-dir"

def letter? : Setting → Option Char
  | .output => some 'o'
  | _ => none

/-- Whether each time a setting is given adds another value. Others are given once. -/
def isRepeatable (s : Setting) : Bool := s = .included || s = .excluded || s = .classPath

/-- Whether the value of a setting is a path. -/
def isPath (s : Setting) : Bool := s ≠ .included && s ≠ .excluded && s ≠ .project

end Setting

namespace Misuse

/-- A mistake in words. -/
def message : Misuse → String
  | .unknownOption name => "unexpected argument '" ++ name ++ "' found"
  | .unexpectedValue option => "unexpected value for '--" ++ option ++ "' found; no more were expected"
  | .missingValue option => "a value is required for '--" ++ option ++ "' but none was supplied"
  | .emptyPath place => "a value is required for '" ++ place ++ "' but none was supplied"
  | .repeated option => "the argument '--" ++ option ++ "' cannot be used multiple times"
  | .unexpectedWord word => "unexpected argument '" ++ word ++ "' found"
  | .missingWord place => "the following required arguments were not provided: <" ++ place ++ ">"
  | .unknownCommand word => "unrecognized subcommand '" ++ word ++ "'"
  | .missingCommand => "a subcommand is required but one was not provided"

end Misuse

/-- What the words of a part stand for that are no options. -/
inductive Place
  /-- The first one is a command, which ends the part. -/
  | command
  /-- There is exactly one. -/
  | one (name : String)
  /-- There are as many as one likes, but at least one. -/
  | many (name : String)
  deriving DecidableEq, Repr, Inhabited

/-- What can be given in a part of a command line. -/
structure Part where
  flags : List Flag
  settings : List Setting
  place : Place
  deriving DecidableEq, Repr, Inhabited

/-- What is given in a part of a command line. -/
structure Given where
  flags : List Flag := []
  settings : List (Setting × String) := []
  words : List String := []
  deriving DecidableEq, Repr, Inhabited

namespace Given

/-- The value of a setting. -/
def value? (g : Given) (s : Setting) : Option String := g.settings.lookup s

/-- All values of a setting. -/
def values (g : Given) (s : Setting) : List String :=
  g.settings.filterMap fun (t, value) => if t = s then some value else none

/-- Takes note of a flag. -/
def raise (g : Given) (f : Flag) : Except Ending Given :=
  match f with
  | .help => .error .help
  | .version => .error .version
  | .verbose =>
    if g.flags.contains f then .error (.misuse (.repeated f.name))
    else .ok { g with flags := g.flags ++ [f] }

/-- Takes note of the value of a setting. -/
def set (g : Given) (s : Setting) (value : String) : Except Ending Given :=
  if s.isPath && value = "" then .error (.misuse (.emptyPath s.name))
  else if !s.isRepeatable && (g.value? s).isSome then .error (.misuse (.repeated s.name))
  else .ok { g with settings := g.settings ++ [(s, value)] }

/-- Takes note of a word that is no option. -/
def add (place : Place) (g : Given) (word : String) : Except Ending Given :=
  match place with
  | .command => .error (.misuse (.unexpectedWord word))
  | .one name =>
    if word = "" then .error (.misuse (.emptyPath name))
    else if g.words ≠ [] then .error (.misuse (.unexpectedWord word))
    else .ok { g with words := [word] }
  | .many name =>
    if word = "" then .error (.misuse (.emptyPath name))
    else .ok { g with words := g.words ++ [word] }

end Given

namespace Part

/-- The option that a part has under a long name. -/
def named? (p : Part) (name : List Char) : Option (Flag ⊕ Setting) :=
  (p.flags.find? (·.name.toList = name)).map .inl
    <|> (p.settings.find? (·.name.toList = name)).map .inr

/-- The option that a part has under a letter. -/
def lettered? (p : Part) (letter : Char) : Option (Flag ⊕ Setting) :=
  (p.flags.find? (·.letter = letter)).map .inl
    <|> (p.settings.find? (·.letter? = some letter)).map .inr

/-- Reads what is behind two dashes. The value of a setting can still be missing. -/
def readName (p : Part) (g : Given) (text : List Char) : Except Ending (Given × Option Setting) :=
  let name := text.takeWhile (· ≠ '=')
  match p.named? name, text.dropWhile (· ≠ '=') with
  | none, _ => .error (.misuse (.unknownOption (String.ofList text)))
  | some (.inl f), [] => (g.raise f).map (·, none)
  | some (.inl f), _ :: _ => .error (.misuse (.unexpectedValue f.name))
  | some (.inr s), [] => .ok (g, some s)
  | some (.inr s), _ :: value => (g.set s (String.ofList value)).map (·, none)

/-- A value without the equals sign that can stand in front of it. -/
def withoutEquals : List Char → List Char
  | '=' :: value => value
  | value => value

/-- Reads what is behind one dash. The value of the last setting can still be missing. -/
def readLetters (p : Part) (g : Given) : List Char → Except Ending (Given × Option Setting)
  | [] => .ok (g, none)
  | c :: cs =>
    match p.lettered? c, cs with
    | none, _ => .error (.misuse (.unknownOption (String.ofList ['-', c])))
    | some (.inl f), _ => do readLetters p (← g.raise f) cs
    | some (.inr s), [] => .ok (g, some s)
    | some (.inr s), value => (g.set s (String.ofList (withoutEquals value))).map (·, none)

/-- Whether a word stands for itself. A dash alone does. -/
def isPlain (word : String) : Bool := word = "-" || word.toList.head? ≠ some '-'

/-- Reads a word that is an option. The value of a setting can still be missing. -/
def readOption (p : Part) (g : Given) (word : String) : Except Ending (Given × Option Setting) :=
  match word.toList with
  | '-' :: '-' :: name => p.readName g name
  | '-' :: letters => p.readLetters g letters
  | _ => .ok (g, none)

/-- Reads the words of a part. The answer has the words behind the part as well. -/
def read (p : Part) (g : Given) : List String → Except Ending (Given × List String)
  | [] => .ok (g, [])
  | w :: ws => do
    if w = "--" then
      return (← ws.foldlM (Given.add p.place) g, [])
    else if isPlain w then
      if p.place = .command then return (g, w :: ws) else read p (← g.add p.place w) ws
    else
      match ← p.readOption g w, ws with
      | (g, none), ws => read p g ws
      | (_, some s), [] => throw (.misuse (.missingValue s.name))
      | (g, some s), value :: ws =>
        if isPlain value then read p (← g.set s value) ws
        else throw (.misuse (.missingValue s.name))

end Part

end DslBindings
