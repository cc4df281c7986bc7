import Std.Data.ExtTreeMap
import DslBindings.Json.Record
import DslBindings.Signature.Type
import DslBindings.Text.Blank

/-!
# Documentation of methods

The documentation of a method is a text in which `{0}`, `{1}`, … stand for its parameters. It is
looked up by the method's signature key and rendered as the comment in front of a declaration.
-/

namespace DslBindings

/-- The documentation of a method. -/
structure Documentation where
  text : String
  parameterNames : List String
  deriving DecidableEq, Repr, Inhabited

namespace Documentation

/-- What stands in a text for the parameter with an index. -/
def placeholder (index : Nat) : List Char := '\x7b' :: ((toString index).toList ++ ['\x7d'])

/-- A link to a parameter. -/
def link (name : String) : List Char := '[' :: (name.toList ++ [']'])

/-- Puts links to the parameters for their placeholders, one parameter after the other. -/
def expandFrom (index : Nat) (text : List Char) : (parameters : List String) → List Char
  | [] => text
  | p :: ps => expandFrom (index + 1) (Text.replaceAll (placeholder index) (link p) text) ps

/-- The text with links to these parameters. -/
def expand (d : Documentation) (parameters : List String) : String :=
  String.ofList (expandFrom 0 d.text.toList parameters)

/-- A line of a comment, without blanks at its end and with no end of a comment in it. -/
def commentLine (line : List Char) : List Char :=
  match Text.replaceAll "*/".toList "*&#47;".toList (Text.trimEnd line) with
  | [] => " *\n".toList
  | content => " * ".toList ++ content ++ ['\n']

/-- The lines of a summary with an empty one behind them, or nothing if it is blank. -/
def summaryLines (summary : String) : List Char :=
  match Text.trim summary.toList with
  | [] => []
  | content => (Text.lines content).flatMap commentLine ++ " *\n".toList

/-- A comment made of a summary and of a notice behind it. -/
def block (summary notice : String) : String :=
  String.ofList ("/**\n".toList ++ summaryLines summary
    ++ (Text.lines notice.toList).flatMap commentLine ++ " */\n".toList)

/-- The comment made of a documentation for these parameters and of a notice. -/
def format (d : Documentation) (parameters : List String) (notice : String) : String :=
  block (d.expand parameters) notice

/-- The key under which the documentation of a method is found. -/
def signatureKey (owner method : String) (parameterTypes : List String) : String :=
  JvmType.sourceName owner ++ "." ++ method ++ "(" ++ ",".intercalate parameterTypes ++ ")"

def ofJson? (j : Json) : Option Documentation := do
  match ← j.fields? ["text", "parameter_names"] with
  | [text, names] =>
    return ⟨← text.required Json.toText?, ← names.required (Json.toListOf? Json.toText?)⟩
  | _ => none

def toJson (d : Documentation) : Json :=
  .object [("text", .string d.text), ("parameter_names", Json.ofTexts d.parameterNames)]

end Documentation

/-- Documentation by signature key. -/
abbrev DocumentationIndex := Std.ExtTreeMap String Documentation

namespace DocumentationIndex

def ofJson? (j : Json) : Option DocumentationIndex :=
  (j.toMembersOf? Documentation.ofJson?).map (Std.ExtTreeMap.ofList ·)

def toJson (index : DocumentationIndex) : Json :=
  .object (index.toList.map fun (key, d) => (key, d.toJson))

end DocumentationIndex

end DslBindings
