import DslBindings.Text.Basic

/-!
# Blank space and lines

The characters of the Unicode property `White_Space`, trimming by them, and cutting a text into
lines.
-/

namespace DslBindings.Text

/-- The ranges of code points with the property `White_Space`, both ends included. -/
def blankRanges : List (Nat × Nat) :=
  [(0x09, 0x0D), (0x20, 0x20), (0x85, 0x85), (0xA0, 0xA0), (0x1680, 0x1680), (0x2000, 0x200A),
   (0x2028, 0x2029), (0x202F, 0x202F), (0x205F, 0x205F), (0x3000, 0x3000)]

/-- Whether a character has the Unicode property `White_Space`. -/
def isBlank (c : Char) : Bool :=
  blankRanges.any fun (first, last) => first ≤ c.toNat && c.toNat ≤ last

/-- Every blank that core knows is a blank. -/
theorem isBlank_of_isWhitespace {c : Char} (h : c.isWhitespace = true) : isBlank c = true := by
  simp only [Char.isWhitespace, Bool.or_eq_true, decide_eq_true_eq] at h
  rcases h with ((h | h) | h) | h <;> subst h <;> decide

/-- Whether a character is a control character (the general category `Cc`). -/
def isControl (c : Char) : Bool :=
  c.toNat < 0x20 || (0x7F ≤ c.toNat && c.toNat ≤ 0x9F)

/-- Removes the blanks at the start. -/
def trimStart (text : List Char) : List Char := text.dropWhile isBlank

/-- Removes the blanks at the end. -/
def trimEnd (text : List Char) : List Char := (trimStart text.reverse).reverse

/-- Removes the blanks at both ends. -/
def trim (text : List Char) : List Char := trimEnd (trimStart text)

/-- Whether a text has no character but blanks. -/
def isAllBlank (text : String) : Bool := text.toList.all isBlank

/-- Removes one carriage return at the end. -/
def withoutReturn (line : List Char) : List Char :=
  if line.getLast? = some '\r' then line.dropLast else line

/--
The lines of a text. A line ends with a line feed, and a carriage return in front of that line feed
belongs to the ending. A last line without a line feed counts unless it is empty.
-/
def lines (text : List Char) : List (List Char) :=
  let pieces := text.splitOn '\n'
  let last := pieces.getLastD []
  pieces.dropLast.map withoutReturn ++ if last = [] then [] else [last]

end DslBindings.Text
