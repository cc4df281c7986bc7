import DslBindings.Text.Basic

/-!
# Text out of any bytes

Two ways to make text of bytes that always succeed: UTF-8 in which the replacement character stands
for what spells no character, and the code page 437.
-/

namespace DslBindings.Text

/-- The ranges of the bytes that follow the first byte of a character. -/
def followers? (first : UInt8) : Option (List (UInt8 × UInt8)) :=
  let any : UInt8 × UInt8 := (0x80, 0xBF)
  if first < 0x80 then some []
  else if first < 0xC2 then none
  else if first < 0xE0 then some [any]
  else if first = 0xE0 then some [(0xA0, 0xBF), any]
  else if first = 0xED then some [(0x80, 0x9F), any]
  else if first < 0xF0 then some [any, any]
  else if first = 0xF0 then some [(0x90, 0xBF), any, any]
  else if first < 0xF4 then some [any, any, any]
  else if first = 0xF4 then some [(0x80, 0x8F), any, any]
  else none

/-- How many bytes at the front are in these ranges, one after the other. -/
def countFollowers : (ranges : List (UInt8 × UInt8)) → List UInt8 → Nat
  | (low, high) :: ranges, b :: bs =>
    if low ≤ b && b ≤ high then countFollowers ranges bs + 1 else 0
  | _, _ => 0

/-- The replacement character in UTF-8. -/
def replacementBytes : List UInt8 := [0xEF, 0xBF, 0xBD]

/--
Bytes in which `substitute` stands for each longest start of a character that does not go on as one,
and for each byte that starts none.
-/
def repair (substitute bytes : List UInt8) : List UInt8 :=
  match bytes with
  | [] => []
  | b :: r =>
    match followers? b with
    | none => substitute ++ repair substitute r
    | some ranges =>
      let n := countFollowers ranges r
      (if n = ranges.length then b :: r.take n else substitute) ++ repair substitute (r.drop n)
termination_by bytes.length

/-- The text that bytes spell in UTF-8, with the replacement character for what spells nothing. -/
def ofUtf8Lossy (bytes : List UInt8) : String := (ofUtf8? (repair replacementBytes bytes)).getD ""

/-- The characters of the upper half of the code page 437. -/
def codePage437Upper : String :=
  "ÇüéâäàåçêëèïîìÄÅÉæÆôöòûùÿÖÜ¢£¥₧ƒáíóúñÑªº¿⌐¬½¼¡«»░▒▓│┤╡╢╖╕╣║╗╝╜╛┐└┴┬├─┼╞╟╚╔╩╦╠═╬╧╨╤╥╙╘╒╓╫╪┘┌█▄▌▐▀αßΓπΣσµτΦΘΩδ∞φε∩≡±≥≤⌠⌡÷≈°∙·√ⁿ²■\u00a0"

/-- The character of a byte in the code page 437, which shares its lower half with ASCII. -/
def ofCodePage437 (b : UInt8) : Char :=
  if b < 0x80 then Char.ofNat b.toNat else codePage437Upper.toList.getD (b.toNat - 0x80) ' '

end DslBindings.Text
