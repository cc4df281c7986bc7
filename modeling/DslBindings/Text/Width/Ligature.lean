import DslBindings.Text.Width.Emoji
import DslBindings.Text.Width.Single

/-!
# Ligatures

Letters that are drawn as one with letters in front of them. The second letter of such a ligature is
met first, because widths are found from the end of a line on.
-/

namespace DslBindings.Text

/-- The letters of the shape of an alef. -/
def alefs : Ranges :=
  [(0x622, 0x623), (0x625, 0x625), (0x627, 0x627), (0x671, 0x673), (0x675, 0x675), (0x773, 0x774),
   (0x870, 0x882)]

/-- The letters of the shape of a lam. -/
def lams : Ranges :=
  [(0x644, 0x644), (0x6B5, 0x6B8), (0x76A, 0x76A), (0x8A6, 0x8A6), (0x8C7, 0x8C7)]

/-- The overlaid characters that keep the letters on either side of them apart. -/
def separating : Ranges :=
  [(0x605, 0x605), (0x890, 0x891), (0x8E2, 0x8E2), (0x9BE, 0x9BE), (0x9D7, 0x9D7), (0xB3E, 0xB3E),
   (0xB57, 0xB57), (0xBBE, 0xBBE), (0xBD7, 0xBD7), (0xCC0, 0xCC0), (0xCC2, 0xCC2), (0xCC7, 0xCC8),
   (0xCCA, 0xCCB), (0xCD5, 0xCD6), (0xD3E, 0xD3E), (0xD4E, 0xD4E), (0xD57, 0xD57), (0xDCF, 0xDCF),
   (0xDDF, 0xDDF), (0x1160, 0x11FF), (0x1715, 0x1715), (0x1734, 0x1734), (0x180E, 0x180E),
   (0x1B35, 0x1B35), (0x1B3B, 0x1B3B), (0x1B3D, 0x1B3D), (0x1B43, 0x1B44), (0x1BAA, 0x1BAA),
   (0x1BF2, 0x1BF3), (0x200C, 0x200D), (0x2065, 0x2069), (0x302E, 0x302F), (0x3164, 0x3164),
   (0xA8FA, 0xA8FA), (0xA953, 0xA953), (0xA9C0, 0xA9C0), (0xD7B0, 0xD7C6), (0xD7CB, 0xD7FB),
   (0xFF9E, 0xFFA0), (0xFFF0, 0xFFF8), (0x111C0, 0x111C0), (0x111C2, 0x111C3), (0x11235, 0x11235),
   (0x1133E, 0x1133E), (0x1134D, 0x1134D), (0x11357, 0x11357), (0x113B8, 0x113B8),
   (0x113C2, 0x113C2), (0x113C5, 0x113C5), (0x113C7, 0x113C9), (0x113CF, 0x113CF),
   (0x113D1, 0x113D1), (0x114B0, 0x114B0), (0x114BD, 0x114BD), (0x115AF, 0x115AF),
   (0x116B6, 0x116B6), (0x11930, 0x11930), (0x1193D, 0x1193D), (0x1193F, 0x1193F),
   (0x11941, 0x11941), (0x11A84, 0x11A89), (0x11D46, 0x11D46), (0x11F02, 0x11F02),
   (0x11F41, 0x11F41), (0x16FF0, 0x16FF1), (0x1D165, 0x1D166), (0x1D16D, 0x1D172),
   (0x1D250, 0x1D281), (0xE0000, 0xE0000), (0xE0002, 0xE001F), (0xE0080, 0xE00FF),
   (0xE01F0, 0xE0FFF)]

/-- Whether letters on either side of a character can be joined. -/
def isTransparent (c : Char) : Bool := overlaid.has c && !separating.has c

/-- The marks that can be ignored by default. They are allowed everywhere in a ligature. -/
def ignorableMarks : Ranges :=
  [(0x34F, 0x34F), (0x17B4, 0x17B5), (0x180B, 0x180D), (0x180F, 0x180F), (0xFE00, 0xFE0F),
   (0xE0100, 0xE01EF)]

/-- The Khmer letters that have a form below another letter. -/
def subscribable : Ranges :=
  [(0x1780, 0x1782), (0x1784, 0x1787), (0x1789, 0x178C), (0x178E, 0x1793), (0x1795, 0x1798),
   (0x179B, 0x179D), (0x17A0, 0x17A0), (0x17A2, 0x17A2), (0x17A7, 0x17A7), (0x17AB, 0x17AC),
   (0x17AF, 0x17AF)]

/-- The Tifinagh consonants. -/
def tifinagh : Ranges := [(0x2D31, 0x2D65), (0x2D6F, 0x2D6F)]

/-- The Lisu tones that stand first in a pair. -/
def firstTones : Ranges := [(0xA4F8, 0xA4FB)]

/-- The Lisu tones that stand second in a pair. -/
def secondTones : Ranges := [(0xA4FC, 0xA4FD)]

/-- The later part of a ligature. -/
inductive LigatureEnd
  /-- A Hebrew lamed, for a joiner and an alef. -/
  | lamed
  /-- A Buginese ya, for a joiner and the vowel i. -/
  | ya
  /-- The vowel i, a joiner and a ya, for the Buginese letter a. -/
  | vowelAndYa
  /-- A Tifinagh consonant, for another one with something that joins the two. -/
  | consonant
  /-- The sign that joins consonants and a consonant, for another one. -/
  | joinedConsonant
  /-- The second tone of a pair. -/
  | tone
  /-- An Old Turkic i, for a joiner and a letter of its own. -/
  | turkicVowel
  /-- A Khmer letter, for the sign that puts it below another one. -/
  | subscript
  deriving DecidableEq, Repr, Inhabited

namespace LigatureEnd

/-- The end of a ligature that a letter is. -/
def ofChar? (c : Char) : Option LigatureEnd :=
  if c.toNat = 0x5DC then some .lamed
  else if c.toNat = 0x1A10 then some .ya
  else if tifinagh.has c then some .consonant
  else if secondTones.has c then some .tone
  else if c.toNat = 0x10C03 then some .turkicVowel
  else if subscribable.has c then some .subscript
  else none

/--
What a character in front of the end of a ligature makes of it: how many columns it adds, and what
end of a ligature the two are together, if they are one. `isJoined` is whether a joiner stands in
between.
-/
def extend? (letter : LigatureEnd) (isJoined : Bool) (c : Char) :
    Option (Int × Option LigatureEnd) :=
  match letter with
  | .lamed => if isJoined && c.toNat = 0x5D0 then some (0, none) else none
  | .ya => if isJoined && c.toNat = 0x1A17 then some (0, some .vowelAndYa) else none
  | .vowelAndYa => if c.toNat = 0x1A15 then some (0, none) else none
  | .consonant =>
    if c.toNat = 0x2D7F then some (1, some .joinedConsonant)
    else if isJoined && tifinagh.has c then some (0, none)
    else none
  | .joinedConsonant => if tifinagh.has c then some (-1, none) else none
  | .tone => if firstTones.has c then some (0, none) else none
  | .turkicVowel => if isJoined && c.toNat = 0x10C32 then some (0, none) else none
  | .subscript => if c.toNat = 0x17D2 then some (-1, none) else none

end LigatureEnd

end DslBindings.Text
