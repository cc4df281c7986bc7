import DslBindings.Text.Basic

/-!
# Modified UTF-8

The encoding of text in class files. It differs from UTF-8 in two ways: the null character takes two
bytes, and a supplementary character is written as two surrogates of three bytes each.
-/

namespace DslBindings.ModifiedUtf8

/-- Whether a byte starts a group of two. -/
def startsTwo (b : UInt8) : Bool := b &&& 0xE0 = 0xC0

/-- Whether a byte starts a group of three. -/
def startsThree (b : UInt8) : Bool := b &&& 0xF0 = 0xE0

/-- The code unit that a group of three spells. Of the last two bytes only six bits count. -/
def codeUnit (a b c : UInt8) : Nat :=
  (a &&& 0x0F).toNat * 0x1000 + (b &&& 0x3F).toNat * 0x40 + (c &&& 0x3F).toNat

def isHighSurrogate (u : Nat) : Bool := 0xD800 ≤ u && u ≤ 0xDBFF

def isLowSurrogate (u : Nat) : Bool := 0xDC00 ≤ u && u ≤ 0xDFFF

/-- The bytes in UTF-8 of the character that two surrogates spell. -/
def supplementary (high low : Nat) : List UInt8 :=
  String.utf8EncodeChar (Char.ofNat (0x10000 + (high - 0xD800) * 0x400 + (low - 0xDC00)))

/-- What stands for a surrogate that is not one of a pair: the replacement character in UTF-8. -/
def replacement : List UInt8 := [0xEF, 0xBF, 0xBD]

/-- The low surrogate at the front, with the bytes behind it. -/
def lowSurrogate? : List UInt8 → Option Nat
  | a :: b :: c :: _ =>
    if startsThree a && isLowSurrogate (codeUnit a b c) then some (codeUnit a b c) else none
  | _ => none

/--
The bytes that a text has in UTF-8. Groups that spell no surrogate stay as they are, whether UTF-8
has them or not.
-/
def toUtf8? (s : List UInt8) : Option (List UInt8) :=
  match s with
  | [] => some []
  | a :: r =>
    if a < 0x80 then (toUtf8? r).map (a :: ·)
    else if startsTwo a then
      match r with
      | b :: r => (toUtf8? r).map ((if a = 0xC0 && b = 0x80 then [0] else [a, b]) ++ ·)
      | [] => none
    else if startsThree a then
      match r with
      | b :: c :: r =>
        let u := codeUnit a b c
        if isHighSurrogate u then
          match lowSurrogate? r with
          | some low => (toUtf8? (r.drop 3)).map (supplementary u low ++ ·)
          | none => (toUtf8? r).map (replacement ++ ·)
        else if isLowSurrogate u then (toUtf8? r).map (replacement ++ ·)
        else (toUtf8? r).map ([a, b, c] ++ ·)
      | _ => none
    else none
termination_by s.length

/-- The text that bytes spell, if they spell one. -/
def decode? (bytes : List UInt8) : Option String := (toUtf8? bytes).bind Text.ofUtf8?

end DslBindings.ModifiedUtf8
