import DslBindings.Text.Blank

/-!
# Names of generated declarations

A declaration is emitted under its name in backticks. `isLegal` says which names can be emitted so,
`quote` writes them, and `stringLiteral` writes a text as a single-line string literal.
-/

namespace DslBindings.Naming

/-- The hard keywords. They stay reserved between backticks. -/
def reservedWords : List String :=
  ["as", "break", "class", "continue", "do", "else", "false", "for", "fun", "if", "in", "interface",
   "is", "null", "object", "package", "return", "super", "this", "throw", "true", "try", "typealias",
   "typeof", "val", "var", "when", "while"]

/-- Characters that would give a declaration another structure, even between backticks. -/
def structuralChars : List Char := "./\\".toList

/-- Characters that cannot stand between backticks. -/
def unquotableChars : List Char := "`\r\n;[]<>:".toList

/-- Whether a character can stand in a name between backticks. -/
def isQuotable (c : Char) : Bool := !unquotableChars.contains c && !Text.isControl c

/--
Whether a declaration can be emitted under this name. A name made of letters, digits and underscores
holds quotable characters only, so one test serves plain and unusual names.
-/
def isLegal (name : String) : Bool :=
  !Text.isAllBlank name && !reservedWords.contains name
    && name.toList.all fun c => !structuralChars.contains c && isQuotable c

/-- A name between backticks. -/
def quote (name : String) : String := "`" ++ name ++ "`"

/-- How a character is written inside a string literal. -/
def escapeChar (c : Char) : List Char :=
  if c = '"' || c = '$' || c = '\\' then ['\\', c] else [c]

/-- A text as a string literal, in which nothing is a template. -/
def stringLiteral (value : String) : String :=
  "\"" ++ String.ofList (value.toList.flatMap escapeChar) ++ "\""

end DslBindings.Naming
