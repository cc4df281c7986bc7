import DslBindings.Json.Basic

/-!
# Writing JSON

`render` writes a value on one line, `renderPretty` over several with two spaces for each level.
Both write a number as it was written, every character above the control characters as it is except
for the quote and the backslash, and members in the order in which they are kept.
-/

namespace DslBindings.Json

/-- The hexadecimal digit of a number below sixteen, in lower case. -/
def hexDigit (n : Nat) : Char :=
  if n < 10 then Char.ofNat ('0'.toNat + n) else Char.ofNat ('a'.toNat + (n - 10))

/-- How a character is written in a string. -/
def escape (c : Char) : List Char :=
  if c = '"' || c = '\\' then ['\\', c]
  else if c = '\x08' then ['\\', 'b']
  else if c = '\x0c' then ['\\', 'f']
  else if c = '\n' then ['\\', 'n']
  else if c = '\r' then ['\\', 'r']
  else if c = '\t' then ['\\', 't']
  else if c.toNat < 0x20 then ['\\', 'u', '0', '0', hexDigit (c.toNat / 16), hexDigit (c.toNat % 16)]
  else [c]

/-- A text as a JSON string. -/
def renderString (text : String) : List Char := '"' :: (text.toList.flatMap escape ++ ['"'])

/-- The start of a line at a level. -/
def newline (level : Nat) : List Char := '\n' :: List.replicate (2 * level) ' '

mutual

/-- Writes a value on one line. -/
def renderChars : Json → List Char
  | .null | .unreadable => "null".toList
  | .bool true => "true".toList
  | .bool false => "false".toList
  | .number literal => literal.toList
  | .string text => renderString text
  | .array [] => ['[', ']']
  | .array (j :: js) => '[' :: (j.renderChars ++ renderItems js)
  | .object [] => ['\x7b', '\x7d']
  | .object ((k, j) :: ms) => '\x7b' :: (renderString k ++ ':' :: (j.renderChars ++ renderMembers ms))

/-- Writes the items behind the first one, and the end of the array. -/
def renderItems : List Json → List Char
  | [] => [']']
  | j :: js => ',' :: (j.renderChars ++ renderItems js)

/-- Writes the members behind the first one, and the end of the object. -/
def renderMembers : List (String × Json) → List Char
  | [] => ['\x7d']
  | (k, j) :: ms => ',' :: (renderString k ++ ':' :: (j.renderChars ++ renderMembers ms))

end

mutual

/-- Writes a value over several lines, the first of which is at `level`. -/
def prettyChars (level : Nat) : Json → List Char
  | .null | .unreadable => "null".toList
  | .bool true => "true".toList
  | .bool false => "false".toList
  | .number literal => literal.toList
  | .string text => renderString text
  | .array [] => ['[', ']']
  | .array (j :: js) =>
    '[' :: (newline (level + 1) ++ prettyChars (level + 1) j ++ prettyItems level js)
  | .object [] => ['\x7b', '\x7d']
  | .object ((k, j) :: ms) =>
    '\x7b' :: (newline (level + 1) ++ renderString k ++ [':', ' '] ++ prettyChars (level + 1) j
      ++ prettyMembers level ms)

/-- Writes the items behind the first one, and the end of the array. -/
def prettyItems (level : Nat) : List Json → List Char
  | [] => newline level ++ [']']
  | j :: js =>
    ',' :: (newline (level + 1) ++ prettyChars (level + 1) j ++ prettyItems level js)

/-- Writes the members behind the first one, and the end of the object. -/
def prettyMembers (level : Nat) : List (String × Json) → List Char
  | [] => newline level ++ ['\x7d']
  | (k, j) :: ms =>
    ',' :: (newline (level + 1) ++ renderString k ++ [':', ' '] ++ prettyChars (level + 1) j
      ++ prettyMembers level ms)

end

/-- A value on one line. -/
def render (j : Json) : String := String.ofList j.renderChars

/-- A value over several lines. -/
def renderPretty (j : Json) : String := String.ofList (j.prettyChars 0)

end DslBindings.Json
