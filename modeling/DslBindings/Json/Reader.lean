import DslBindings.Json.Basic
import DslBindings.Json.NumberRange
import DslBindings.Text.Basic
import DslBindings.Text.Lossy
import DslBindings.Text.Reading

/-!
# Reading JSON

`Json.parse` reads a whole text. Blanks are space, tab, line feed and carriage return; there are no
comments and no trailing commas; a control character in a string has to be escaped.

A container that is inside 127 others is unreadable, which bounds the depth of what can be decoded
but not of what is passed over.
-/

namespace DslBindings.Json

open Text (Reading)

/-- Whether a character separates tokens. -/
def isSeparator (c : Char) : Bool := c = ' ' || c = '\n' || c = '\t' || c = '\r'

/-- The characters behind the blanks at the front. -/
def skipBlanks (s : List Char) : List Char := s.dropWhile isSeparator

theorem length_skipBlanks_le (s : List Char) : (skipBlanks s).length ≤ s.length :=
  Text.length_dropWhile_le _ s

/-- A character of a string, or a UTF-16 unit that an escape gives. -/
inductive StringPiece
  | char (c : Char)
  | unit (code : Nat)
  deriving DecidableEq, Repr, Inhabited

/-- The character that a one-letter escape stands for. -/
def escaped? (c : Char) : Option Char :=
  if c = '"' || c = '\\' || c = '/' then some c
  else if c = 'b' then some '\x08'
  else if c = 'f' then some '\x0c'
  else if c = 'n' then some '\n'
  else if c = 'r' then some '\r'
  else if c = 't' then some '\t'
  else none

/-- The value of a hexadecimal digit. -/
def hexDigit? (c : Char) : Option Nat :=
  if '0' ≤ c && c ≤ '9' then some (c.toNat - '0'.toNat)
  else if 'a' ≤ c && c ≤ 'f' then some (c.toNat - 'a'.toNat + 10)
  else if 'A' ≤ c && c ≤ 'F' then some (c.toNat - 'A'.toNat + 10)
  else none

/-- The UTF-16 unit of four hexadecimal digits. -/
def hexUnit? (a b c d : Char) : Option Nat :=
  match hexDigit? a, hexDigit? b, hexDigit? c, hexDigit? d with
  | some a, some b, some c, some d => some (((a * 16 + b) * 16 + c) * 16 + d)
  | _, _, _, _ => none

/-- Puts a piece in front of the pieces of the rest of a string. -/
def consPiece {s t : List Char} (p : StringPiece) (h : t.length < s.length)
    (r : Reading (List StringPiece) t) : Reading (List StringPiece) s :=
  ⟨p :: r.value, r.rest, Nat.lt_trans r.shorter h⟩

theorem length_lt_unitEscape (a b c d : Char) (r : List Char) :
    r.length < ('\\' :: 'u' :: a :: b :: c :: d :: r).length := by
  simp only [List.length_cons]
  omega

theorem length_lt_escape (c : Char) (r : List Char) : r.length < ('\\' :: c :: r).length := by
  simp only [List.length_cons]
  omega

/-- Reads a string up to its closing quote. -/
def stringToEnd (s : List Char) : Option (Reading (List StringPiece) s) :=
  match s with
  | [] => none
  | '"' :: r => some ⟨[], r, by simp⟩
  | '\\' :: 'u' :: a :: b :: c :: d :: r =>
    match hexUnit? a b c d with
    | some code => (stringToEnd r).map (consPiece (.unit code) (length_lt_unitEscape a b c d r))
    | none => none
  | '\\' :: c :: r =>
    match escaped? c with
    | some e => (stringToEnd r).map (consPiece (.char e) (length_lt_escape c r))
    | none => none
  | c :: r =>
    if c.toNat < 0x20 || c = '\\' then none
    else (stringToEnd r).map (consPiece (.char c) (by simp))

/-- Whether a UTF-16 unit is the first half of a pair. -/
def isHighSurrogate (code : Nat) : Bool := 0xD800 ≤ code && code ≤ 0xDBFF

/-- Whether a UTF-16 unit is the second half of a pair. -/
def isLowSurrogate (code : Nat) : Bool := 0xDC00 ≤ code && code ≤ 0xDFFF

/-- The characters of a string, unless it holds half of a surrogate pair. -/
def assemble? : List StringPiece → Option (List Char)
  | [] => some []
  | .char c :: ps => (assemble? ps).map (c :: ·)
  | [.unit code] =>
    if isHighSurrogate code || isLowSurrogate code then none else some [Char.ofNat code]
  | .unit code :: p :: ps =>
    if isHighSurrogate code then
      match p with
      | .unit low =>
        if isLowSurrogate low then
          (assemble? ps).map (Char.ofNat (0x10000 + (code - 0xD800) * 0x400 + (low - 0xDC00)) :: ·)
        else none
      | .char _ => none
    else if isLowSurrogate code then none
    else (assemble? (p :: ps)).map (Char.ofNat code :: ·)

/-- The digits at the front, with the characters behind them. -/
def takeDigits (s : List Char) : List Char × List Char :=
  (s.takeWhile Char.isDigit, s.dropWhile Char.isDigit)

/-- Reads an integer part: a zero, or digits that do not start with one. -/
def integerPart? (s : List Char) : Option (List Char × List Char) :=
  match takeDigits s with
  | ([], _) => none
  | ('0' :: _ :: _, _) => none
  | digits => some digits

/-- Reads a fraction, if there is one. A point has to be followed by a digit. -/
def fractionPart? : List Char → Option (List Char × List Char)
  | '.' :: r =>
    match takeDigits r with
    | ([], _) => none
    | digits => some digits
  | s => some ([], s)

/-- Reads the digits of an exponent. There has to be one. -/
def exponentDigits? (s : List Char) : Option (Nat × List Char) :=
  match takeDigits s with
  | ([], _) => none
  | (digits, r) => some (digits.foldl (fun n d => n * 10 + digitValue d) 0, r)

/-- Reads an exponent with its sign. -/
def signedExponent? : List Char → Option (Int × List Char)
  | '+' :: r => (exponentDigits? r).map fun (n, r) => ((n : Int), r)
  | '-' :: r => (exponentDigits? r).map fun (n, r) => (-(n : Int), r)
  | s => (exponentDigits? s).map fun (n, r) => ((n : Int), r)

/-- Reads an exponent, if there is one. -/
def exponentPart? : List Char → Option (Int × List Char)
  | 'e' :: r | 'E' :: r => signedExponent? r
  | s => some (0, s)

/-- Reads a number without its sign. -/
def magnitude? (s : List Char) : Option (Scaled × List Char) := do
  let (integer, r) ← integerPart? s
  let (fraction, r) ← fractionPart? r
  let (exponent, r) ← exponentPart? r
  let scaled := (Scaled.ofInteger integer).addFraction fraction
  return (⟨scaled.significand, scaled.exponent + exponent⟩, r)

/-- Reads a number with its sign. -/
def number? : List Char → Option (Scaled × List Char)
  | '-' :: r => magnitude? r
  | s => magnitude? s

/-- Reads a number. -/
def numberValue (s : List Char) : Option (Reading Json s) :=
  match number? s with
  | none => none
  | some (scaled, r) =>
    if h : r.length < s.length then
      let literal := String.ofList (s.take (s.length - r.length))
      some ⟨if scaled.isInRange then .number literal else .unreadable, r, h⟩
    else none

/-- Reads a string whose opening quote has been read. -/
def stringValue (s : List Char) : Option (Reading Json s) :=
  (stringToEnd s).map fun ⟨pieces, r, h⟩ =>
    match assemble? pieces with
    | some cs => ⟨.string (String.ofList cs), r, h⟩
    | none => ⟨.unreadable, r, h⟩

/-- Reads a word that is a value. -/
def wordValue (word : List Char) (value : Json) (s : List Char) : Option (Reading Json s) :=
  match Text.afterPrefix? word s with
  | some r => if h : r.length < s.length then some ⟨value, r, h⟩ else none
  | none => none

/-- A container in a place where `room` containers may be inside one another. -/
def inRoom (room : Nat) (value : Json) : Json := if room = 0 then .unreadable else value

/-- An object with these members, of which one without a key makes nothing. -/
def ofMembers : Option (List (String × Json)) → Json
  | some members => .object members
  | none => .unreadable

/-- Puts a member in front of others. -/
def consMember (key : Json) (value : Json) :
    Option (List (String × Json)) → Option (List (String × Json))
  | some members =>
    match key with
    | .string k => some ((k, value) :: members)
    | _ => none
  | none => none

mutual

/-- Reads a value in a place where `room` containers may be inside one another. -/
def value (room : Nat) (s : List Char) : Option (Reading Json s) :=
  match s with
  | [] => none
  | c :: r =>
    if c = '"' then
      (stringValue r).map fun ⟨v, r', h⟩ => ⟨v, r', by simp; omega⟩
    else if c = '[' then
      match items (room - 1) true (skipBlanks r) with
      | some ⟨vs, r', h⟩ =>
        some ⟨inRoom room (.array vs), r', by have := length_skipBlanks_le r; simp; omega⟩
      | none => none
    else if c = '\x7b' then
      match members (room - 1) true (skipBlanks r) with
      | some ⟨ms, r', h⟩ =>
        some ⟨inRoom room (ofMembers ms), r', by have := length_skipBlanks_le r; simp; omega⟩
      | none => none
    else if c = 'n' then wordValue "null".toList .null (c :: r)
    else if c = 't' then wordValue "true".toList (.bool true) (c :: r)
    else if c = 'f' then wordValue "false".toList (.bool false) (c :: r)
    else numberValue (c :: r)
termination_by (s.length, 0)
decreasing_by all_goals have := length_skipBlanks_le r; simp; omega

/--
Reads the items of an array up to its end. `canEnd` says whether the end can come here, which it can
at the start and not behind a comma.
-/
def items (room : Nat) (canEnd : Bool) (s : List Char) : Option (Reading (List Json) s) :=
  if canEnd && s.head? = some ']' then
    if h : (s.drop 1).length < s.length then some ⟨[], s.drop 1, h⟩ else none
  else
    match value room s with
    | none => none
    | some ⟨v, r, h⟩ =>
      match hr : skipBlanks r with
      | ']' :: r' => some ⟨[v], r', by have := length_skipBlanks_le r; simp [hr] at this; omega⟩
      | ',' :: r' =>
        match items room false (skipBlanks r') with
        | some ⟨vs, r'', h'⟩ =>
          some ⟨v :: vs, r'', by
            have := length_skipBlanks_le r; have := length_skipBlanks_le r'; simp [hr] at *; omega⟩
        | none => none
      | _ => none
termination_by (s.length, 1)
decreasing_by
  · exact Prod.Lex.right _ Nat.zero_lt_one
  · have := length_skipBlanks_le r; have := length_skipBlanks_le r'; simp [hr] at *; omega

/-- Reads the members of an object up to its end. -/
def members (room : Nat) (canEnd : Bool) (s : List Char) :
    Option (Reading (Option (List (String × Json))) s) :=
  match s with
  | '\x7d' :: r => if canEnd then some ⟨some [], r, by simp⟩ else none
  | '"' :: r =>
    match stringValue r with
    | none => none
    | some ⟨key, r₁, h₁⟩ =>
      match hc : skipBlanks r₁ with
      | ':' :: r₂ =>
        match value room (skipBlanks r₂) with
        | none => none
        | some ⟨v, r₃, h₃⟩ =>
          match he : skipBlanks r₃ with
          | '\x7d' :: r₄ =>
            some ⟨consMember key v (some []), r₄, by
              have := length_skipBlanks_le r₁; have := length_skipBlanks_le r₂
              have := length_skipBlanks_le r₃; simp [hc, he] at *; omega⟩
          | ',' :: r₄ =>
            match members room false (skipBlanks r₄) with
            | some ⟨ms, r₅, h₅⟩ =>
              some ⟨consMember key v ms, r₅, by
                have := length_skipBlanks_le r₁; have := length_skipBlanks_le r₂
                have := length_skipBlanks_le r₃; have := length_skipBlanks_le r₄
                simp [hc, he] at *; omega⟩
            | none => none
          | _ => none
      | _ => none
  | _ => none
termination_by (s.length, 1)
decreasing_by
  · have := length_skipBlanks_le r₁; have := length_skipBlanks_le r₂; simp [hc] at *; omega
  · have := length_skipBlanks_le r₁; have := length_skipBlanks_le r₂
    have := length_skipBlanks_le r₃; have := length_skipBlanks_le r₄
    simp [hc, he] at *; omega

end

/-- The number of containers that may be inside one another. -/
def maxDepth : Nat := 127

/-- The value that a text spells, if it is well formed. -/
def parse (text : String) : Option Json :=
  match value maxDepth (skipBlanks text.toList) with
  | some ⟨v, r, _⟩ => if (skipBlanks r).isEmpty then some v else none
  | none => none

/--
What is read for bytes that spell no character. It cannot stand outside of a string nor behind a
backslash, and makes a string unreadable, because a lone half of a surrogate pair is in it.
-/
def misspelt : List UInt8 := Text.utf8 "x\\ud800 "

/--
The value that a byte sequence spells in UTF-8. Bytes that spell no character can only be in a
string, which they make unreadable.
-/
def parseBytes (bytes : List UInt8) : Option Json :=
  (Text.ofUtf8? (Text.repair misspelt bytes)).bind parse

end DslBindings.Json
