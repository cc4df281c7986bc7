import DslBindings.Text.Width.Ligature

/-!
# Widths

How many columns of a terminal a line takes. That is not always what its characters take by
themselves: emoji can be made of several characters, selectors choose between a picture and a text,
and some letters are drawn as one. All that depends on what stands behind a character, so a line is
gone through from its end.
-/

namespace DslBindings.Text

/-- What a line begins with, as far as it bears on a character in front of it. -/
inductive Opening
  | plain
  | lineFeed
  /-- A skin tone. -/
  | tone
  /-- A letter for a region. -/
  | region
  /-- Several letters for regions, the first two of which are a flag. -/
  | flag
  /-- An emoji. -/
  | emoji
  /-- A joiner and an emoji. -/
  | joinedEmoji
  /-- A keycap, a joiner and an emoji. -/
  | joinedKeycap
  /-- A letter for a region, a joiner and an emoji. -/
  | joinedRegion
  /-- An even number of letters for regions, a joiner and an emoji. -/
  | joinedFlags
  /-- An odd number of letters for regions, at least three, a joiner and an emoji. -/
  | joinedFlagsAndLetter
  /-- Letters in tags up to the last tag, a joiner and an emoji. -/
  | lettersInTags (count : Nat)
  /-- Digits in tags, what may follow them up to the last tag, a joiner and an emoji. -/
  | digitsInTags (count : Nat)
  /-- The Kirat Rai vowel e. -/
  | vowelE
  /-- The Kirat Rai vowel e, twice. -/
  | vowelAi
  /-- A letter of the shape of an alef. -/
  | alef
  /-- The end of a ligature, with or without a joiner in front of it. -/
  | ligature (letter : LigatureEnd) (isJoined : Bool)
  deriving DecidableEq, Repr, Inhabited

/-- What a line can ask of a character in front of it. -/
inductive Selector
  /-- To be a text. -/
  | text
  /-- To be a picture. -/
  | picture
  /-- To be wide. -/
  | wide
  deriving DecidableEq, Repr, Inhabited

/-- What has to be known of a line for a character in front of it. -/
structure LineStart where
  opening : Opening
  /-- A selector in front of the opening. -/
  selector : Option Selector
  deriving DecidableEq, Repr, Inhabited

namespace Selector

/-- The selector that a character is. -/
def ofChar? (c : Char) : Option Selector :=
  if c = textSelector then some .text
  else if c = pictureSelector then some .picture
  else if c.toNat = 0xFE01 then some .wide
  else none

end Selector

namespace Opening

/-- Whether characters that can be ignored leave what is behind them as it is. -/
def isLetter : Opening → Bool
  | .alef | .ligature .. => true
  | _ => false

/-- Whether what is in front of a selector for pictures belongs to an emoji behind it. -/
def isJoined : Opening → Bool
  | .joinedEmoji | .joinedKeycap => true
  | _ => false

/-- What a line of a single character begins with. -/
def ofChar (c : Char) : Opening :=
  if alefs.has c then .alef
  else if regionLetters.has c then .region
  else if tones.has c then .tone
  else if pictures.has c then .emoji
  else if c.toNat = 0x16D67 then .vowelE
  else if c.toNat = 0x16D68 then .vowelAi
  else
    match LigatureEnd.ofChar? c with
    | some letter => .ligature letter false
    | none => .plain

/-- What the letters of a flag in tags are with one more character. -/
def extendTags? (letters : Nat) (c : Char) : Option Opening :=
  if tagLetters.has c && letters < 6 then some (.lettersInTags (letters + 1))
  else if tagDigits.has c && letters ≤ 4 then some (.digitsInTags 1)
  else if c = blackFlag && 3 ≤ letters then some .emoji
  else none

/-- What the digits of a flag in tags are with one more character. -/
def extendTagDigits? (digits : Nat) (c : Char) : Option Opening :=
  if tagDigits.has c && digits < 3 then some (.digitsInTags (digits + 1))
  else if c = blackFlag && digits = 3 then some .emoji
  else none

/-- What becomes of a joiner and an emoji with a character in front of them. -/
def extendJoinedEmoji? (c : Char) : Option (Int × Opening) :=
  if c = keycap then some (0, .joinedKeycap)
  else if regionLetters.has c then some (1, .joinedRegion)
  else if tones.has c then some (0, .tone)
  else if c = tagEnd then some (0, .lettersInTags 0)
  else if pictures.has c then some (0, .emoji)
  else none

/-- What becomes of the vowel e with another vowel in front of it. -/
def extendVowelE? (c : Char) : Option (Int × Opening) :=
  match c.toNat with
  | 0x16D63 | 0x16D69 => some (0, .plain)
  | 0x16D67 => some (0, .vowelAi)
  | 0x16D68 => some (1, .vowelE)
  | _ => none

/-- What becomes of a ligature with a character in front of it. -/
def extendLigature? (letter : LigatureEnd) (isJoined : Bool) (c : Char) : Option (Int × Opening) :=
  if c = joiner then some (0, .ligature letter true)
  else if ignorableMarks.has c then some (0, .ligature letter isJoined)
  else
    (letter.extend? isJoined c).map fun (columns, longer) =>
      match longer with
      | some letter => (columns, .ligature letter false)
      | none => (columns, .plain)

/--
What becomes of the beginning of a line with a character in front of it, and how many columns that
adds, if the two belong together.
-/
def extend? (opening : Opening) (c : Char) : Option (Int × Opening) :=
  match opening with
  | .plain | .lineFeed | .joinedKeycap => none
  | .tone =>
    if toneBases.has c then some (0, .emoji)
    else if c = joiner then some (0, .joinedEmoji)
    else none
  | .region => if regionLetters.has c then some (1, .flag) else none
  | .flag =>
    if regionLetters.has c then some (1, .flag)
    else if c = joiner then some (0, .joinedEmoji)
    else none
  | .emoji => if c = joiner then some (0, .joinedEmoji) else none
  | .joinedEmoji => extendJoinedEmoji? c
  | .joinedRegion => if regionLetters.has c then some (-1, .joinedFlags) else none
  | .joinedFlags =>
    if regionLetters.has c then some (3, .joinedFlagsAndLetter)
    else if c = joiner then some (0, .joinedEmoji)
    else none
  | .joinedFlagsAndLetter =>
    if regionLetters.has c then some (-1, .joinedFlags)
    else if c = joiner then some (0, .joinedEmoji)
    else none
  | .lettersInTags count => (extendTags? count c).map fun o => (0, o)
  | .digitsInTags count => (extendTagDigits? count c).map fun o => (0, o)
  | .vowelE => extendVowelE? c
  | .vowelAi => if c.toNat = 0x16D63 then some (0, .plain) else none
  | .alef =>
    if lams.has c then some (0, .plain)
    else if isTransparent c then some (0, .alef)
    else none
  | .ligature letter isJoined => extendLigature? letter isJoined c

end Opening

namespace LineStart

/-- The start of a line with nothing special. -/
def plain : LineStart := ⟨.plain, none⟩

/-- The opening of a line as a character sees it that does not heed the selector. -/
def withoutSelector (s : LineStart) : Opening :=
  if s.selector.isNone || s.opening.isLetter then s.opening else .plain

/-- The start of a line with a selector in front of it. -/
def select (s : LineStart) (selector : Selector) : LineStart :=
  let opening := s.withoutSelector
  if opening.isLetter || (selector = .picture && opening.isJoined) then ⟨opening, some selector⟩
  else ⟨.plain, some selector⟩

end LineStart

/-- The quotation marks that can be asked to be wide. -/
def quotes : List Char := ['‘', '’', '“', '”']

/-- How many columns a character adds to a line, and what the line starts with then. -/
def joined (c : Char) (opening : Opening) : Int × LineStart :=
  match opening.extend? c with
  | some (columns, longer) => (columns, ⟨longer, none⟩)
  | none => (charWidth c, ⟨.ofChar c, none⟩)

/-- Columns and start for a character that takes one column whatever follows, but for line ends. -/
def narrow (c : Char) (opening : Opening) : Int × LineStart :=
  if c = '\n' then (1, ⟨.lineFeed, none⟩)
  else if c = '\r' && opening = .lineFeed then (0, .plain)
  else (1, .plain)

/-- How many columns a character adds to a line, and what the line starts with then. -/
def prepend (c : Char) (line : LineStart) : Int × LineStart :=
  let opening := line.withoutSelector
  if line.selector = some .picture && pictureStarts.has c then
    (if line.opening.isJoined then 0 else 2, ⟨.emoji, none⟩)
  else if c.toNat ≤ 0xA0 then narrow c opening
  else
    match Selector.ofChar? c with
    | some selector => (0, line.select selector)
    | none =>
      if line.selector = some .text && textStarts.has c then (1, .plain)
      else if line.selector = some .wide && quotes.contains c then (2, .plain)
      else joined c opening

/-- How many columns a line takes, and what it starts with. -/
def measure : (line : List Char) → Int × LineStart
  | [] => (0, .plain)
  | c :: line =>
    let (columns, start) := measure line
    let (more, start) := prepend c start
    (columns + more, start)

/-- How many columns a line takes. -/
def width (line : List Char) : Nat := (measure line).1.toNat

@[simp] theorem width_nil : width [] = 0 := rfl

theorem measure_replicate_blank (n : Nat) :
    measure (List.replicate n ' ') = (Int.ofNat n, LineStart.plain) := by
  induction n with
  | zero => rfl
  | succ n ih =>
    rw [List.replicate_succ, measure, ih]
    rfl

/-- Blanks take a column each. -/
theorem width_replicate_blank (n : Nat) : width (List.replicate n ' ') = n := by
  rw [width, measure_replicate_blank]
  rfl

end DslBindings.Text
