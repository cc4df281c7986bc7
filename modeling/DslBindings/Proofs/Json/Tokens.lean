import Mathlib.Data.List.TakeWhile
import DslBindings.Json.Printer
import DslBindings.Json.Reader
import DslBindings.Json.Record

/-!
# Reading back strings and numbers

Whatever characters a string is made of, it is read as what it was written for, and so is a number of
16 bits if what stands behind it cannot belong to it. An escaped control character comes back as a UTF-16
unit, so pieces of strings are said to stand for characters by what they add to any pieces behind them.
-/

namespace DslBindings

namespace Text

/-- An answer is this value, with these characters left. -/
def Gives {α : Type} {s : List Char} (answer : Option (Reading α s)) (v : α) (r : List Char) : Prop :=
  ∃ h, answer = some ⟨v, r, h⟩

end Text

namespace Json

open Text (Gives)

variable {r s : List Char}

/-! ### Strings -/

/-- A piece of a string adds a character to all that is behind it. -/
def StandsFor (p : StringPiece) (c : Char) : Prop :=
  ∀ ps, assemble? (p :: ps) = (assemble? ps).map (c :: ·)

theorem standsFor_char (c : Char) : StandsFor (.char c) c := fun _ => by rw [assemble?]

theorem standsFor_unit {c : Char} (h : c.toNat < 0x20) : StandsFor (.unit c.toNat) c := by
  have hhigh : isHighSurrogate c.toNat = false := by
    rw [isHighSurrogate, decide_eq_false (by omega), Bool.false_and]
  have hlow : isLowSurrogate c.toNat = false := by
    rw [isLowSurrogate, decide_eq_false (by omega), Bool.false_and]
  intro ps
  cases ps with
  | nil => simp [assemble?, hhigh, hlow]
  | cons p ps => simp [assemble?, hhigh, hlow]

theorem hexDigit?_hexDigit : ∀ n < 16, hexDigit? (hexDigit n) = some n := by decide

theorem hexUnit?_escape {n : Nat} (h : n < 0x20) :
    hexUnit? '0' '0' (hexDigit (n / 16)) (hexDigit (n % 16)) = some n := by
  have hzero : hexDigit? '0' = some 0 := rfl
  rw [hexUnit?, hzero, hexDigit?_hexDigit _ (by omega), hexDigit?_hexDigit _ (by omega)]
  simp only [Option.some.injEq]
  omega

theorem stringToEnd_quote (s : List Char) : Gives (stringToEnd ('"' :: s)) [] s :=
  ⟨by simp, by rw [stringToEnd]⟩

theorem stringToEnd_plain {c : Char} {ps : List StringPiece} (hquote : c ≠ '"')
    (hbackslash : c ≠ '\\') (hcontrol : ¬ c.toNat < 0x20) (h : Gives (stringToEnd s) ps r) :
    Gives (stringToEnd (c :: s)) (.char c :: ps) r := by
  obtain ⟨hlength, h⟩ := h
  refine ⟨by simp; omega, ?_⟩
  rw [stringToEnd]
  · simp [hcontrol, hbackslash, h, consPiece]
  · exact fun hc => absurd hc hquote
  · rintro - - - - - hc
    exact absurd hc hbackslash
  · rintro - - hc
    exact absurd hc hbackslash

theorem stringToEnd_escaped {c e : Char} {ps : List StringPiece} (hunit : c ≠ 'u')
    (hc : escaped? c = some e) (h : Gives (stringToEnd s) ps r) :
    Gives (stringToEnd ('\\' :: c :: s)) (.char e :: ps) r := by
  obtain ⟨hlength, h⟩ := h
  refine ⟨by simp; omega, ?_⟩
  rw [stringToEnd]
  · rw [hc, h]
    rfl
  · rintro - - - - - rfl
    exact absurd rfl hunit

theorem stringToEnd_unit {a b c d : Char} {n : Nat} {ps : List StringPiece}
    (hn : hexUnit? a b c d = some n) (h : Gives (stringToEnd s) ps r) :
    Gives (stringToEnd ('\\' :: 'u' :: a :: b :: c :: d :: s)) (.unit n :: ps) r := by
  obtain ⟨hlength, h⟩ := h
  refine ⟨by simp; omega, ?_⟩
  rw [stringToEnd, hn, h]
  rfl

/-- The three ways to write a character. -/
theorem escape_cases (c : Char) :
    (∃ letter, escape c = ['\\', letter] ∧ letter ≠ 'u' ∧ escaped? letter = some c)
      ∨ (c.toNat < 0x20
        ∧ escape c = ['\\', 'u', '0', '0', hexDigit (c.toNat / 16), hexDigit (c.toNat % 16)])
      ∨ escape c = [c] ∧ c ≠ '"' ∧ c ≠ '\\' ∧ ¬ c.toNat < 0x20 := by
  rw [escape]
  split_ifs with hself hb hf hn hr ht hcontrol
  · left
    have hself : c = '"' ∨ c = '\\' := by simpa using hself
    rcases hself with rfl | rfl <;> exact ⟨_, rfl, by decide, rfl⟩
  · exact .inl ⟨_, rfl, by decide, hb ▸ rfl⟩
  · exact .inl ⟨_, rfl, by decide, hf ▸ rfl⟩
  · exact .inl ⟨_, rfl, by decide, hn ▸ rfl⟩
  · exact .inl ⟨_, rfl, by decide, hr ▸ rfl⟩
  · exact .inl ⟨_, rfl, by decide, ht ▸ rfl⟩
  · exact .inr (.inl ⟨hcontrol, rfl⟩)
  · have hself : ¬ (c = '"' ∨ c = '\\') := by simpa using hself
    rw [not_or] at hself
    exact .inr (.inr ⟨rfl, hself.1, hself.2, hcontrol⟩)

/-- A character is read as a piece that stands for it. -/
theorem exists_piece (c : Char) :
    ∃ p, StandsFor p c ∧ ∀ {s r : List Char} {ps : List StringPiece},
      Gives (stringToEnd s) ps r → Gives (stringToEnd (escape c ++ s)) (p :: ps) r := by
  rcases escape_cases c with ⟨letter, h, hunit, hc⟩ | ⟨hcontrol, h⟩ | ⟨h, hquote, hbackslash, hcontrol⟩
  · rw [h]
    exact ⟨.char c, standsFor_char c, stringToEnd_escaped hunit hc⟩
  · rw [h]
    exact ⟨.unit c.toNat, standsFor_unit hcontrol, stringToEnd_unit (hexUnit?_escape hcontrol)⟩
  · rw [h]
    exact ⟨.char c, standsFor_char c, stringToEnd_plain hquote hbackslash hcontrol⟩

theorem exists_pieces (text s : List Char) :
    ∃ ps, assemble? ps = some text ∧ Gives (stringToEnd (text.flatMap escape ++ '"' :: s)) ps s := by
  induction text with
  | nil => exact ⟨[], rfl, stringToEnd_quote s⟩
  | cons c text ih =>
    obtain ⟨ps, htext, hread⟩ := ih
    obtain ⟨p, hp, hescape⟩ := exists_piece c
    refine ⟨p :: ps, by rw [hp, htext]; rfl, ?_⟩
    rw [List.flatMap_cons, List.append_assoc]
    exact hescape hread

theorem stringValue_gives (text : String) (s : List Char) :
    Gives (stringValue (text.toList.flatMap escape ++ '"' :: s)) (.string text) s := by
  obtain ⟨ps, htext, hlength, hread⟩ := exists_pieces text.toList s
  refine ⟨hlength, ?_⟩
  rw [stringValue, hread, Option.map_some]
  simp [htext]

/-! ### Numbers -/

/-- What stands behind a number cannot belong to it. -/
def EndsNumber (s : List Char) : Prop :=
  ∀ c ∈ s.head?, c.isDigit = false ∧ c ≠ '.' ∧ c ≠ 'e' ∧ c ≠ 'E'

theorem toList_toString (n : Nat) : (toString n).toList = Nat.toDigits 10 n := by
  rw [Nat.toString_eq_repr, Nat.toList_repr]

theorem isDigit_of_mem_toDigits {n : Nat} {c : Char} (h : c ∈ Nat.toDigits 10 n) : c.isDigit = true :=
  Nat.isDigit_of_mem_toDigits (by decide) (by decide) h

theorem foldl_toDigits (n : Nat) :
    (Nat.toDigits 10 n).foldl (fun m d => m * 10 + digitValue d) 0 = n := by
  have h : Nat.ofDigitChars 10 (Nat.toDigits 10 n) 0 = n := Nat.ofDigitChars_toDigits (by decide) (by decide)
  rw [Nat.ofDigitChars_eq_foldl] at h
  simpa only [digitValue, Nat.mul_comm] using h

theorem toDigits_ne_nil (n : Nat) : Nat.toDigits 10 n ≠ [] := by
  intro h
  have hlength := Nat.length_toDigits_pos (b := 10) (n := n)
  rw [h] at hlength
  exact absurd hlength (by decide)

theorem head?_toDigits_ne {n : Nat} (h : 0 < n) : (Nat.toDigits 10 n).head? ≠ some '0' := by
  induction n using Nat.strongRecOn with
  | _ n ih =>
    by_cases hn : n < 10
    · rw [Nat.toDigits_of_lt_base hn]
      have hdigit : ∀ m < 10, 0 < m → Nat.digitChar m ≠ '0' := by decide
      simpa using hdigit n hn h
    · have ih := ih (n / 10) (by omega) (by omega)
      obtain ⟨d, ds, hd⟩ := List.exists_cons_of_ne_nil (toDigits_ne_nil (n / 10))
      rw [Nat.toDigits_of_base_le (by decide) (by omega)]
      rw [hd] at ih ⊢
      exact ih

theorem takeDigits_append {digits s : List Char} (hdigits : ∀ c ∈ digits, c.isDigit = true)
    (hs : EndsNumber s) : takeDigits (digits ++ s) = (digits, s) := by
  rw [takeDigits, List.takeWhile_append_of_pos hdigits, List.dropWhile_append_of_pos hdigits]
  cases s with
  | nil => simp
  | cons c s => simp [(hs c rfl).1]

theorem integerPart?_toDigits (n : Nat) (hs : EndsNumber s) :
    integerPart? (Nat.toDigits 10 n ++ s) = some (Nat.toDigits 10 n, s) := by
  rw [integerPart?, takeDigits_append (fun _ => isDigit_of_mem_toDigits) hs]
  split
  · next h => exact absurd (congrArg Prod.fst h) (toDigits_ne_nil n)
  · next h =>
    have h := congrArg Prod.fst h
    simp only at h
    rcases Nat.eq_zero_or_pos n with rfl | hpos
    · cases h
    · exact absurd (by rw [h]; rfl) (head?_toDigits_ne hpos)
  · rfl

theorem le_foldl_digits (m : Nat) (digits : List Char) :
    m ≤ digits.foldl (fun n d => n * 10 + digitValue d) m := by
  induction digits generalizing m with
  | nil => exact Nat.le_refl m
  | cons d ds ih =>
    have hstep : m ≤ m * 10 + digitValue d := by omega
    exact Nat.le_trans hstep (ih _)

theorem ofInteger_go {digits : List Char} {m n : Nat}
    (h : digits.foldl (fun n d => n * 10 + digitValue d) m = n) (hn : n ≤ maxSignificand) :
    Scaled.ofInteger.go m digits = ⟨n, 0⟩ := by
  induction digits generalizing m with
  | nil =>
    rw [← h]
    rfl
  | cons d ds ih =>
    have hle := le_foldl_digits (m * 10 + digitValue d) ds
    rw [List.foldl_cons] at h
    rw [Scaled.ofInteger.go, if_pos (by omega)]
    exact ih h

theorem roundToDouble_of_lt {n : Nat} (h : n < UInt16.size) : roundToDouble n = n := by
  have hexcess : n.log2 + 1 - 53 = 0 := by
    rcases Nat.eq_zero_or_pos n with rfl | hpos
    · decide
    · have hlog : n.log2 < 16 := (Nat.log2_lt hpos.ne').mpr h
      omega
  rw [roundToDouble, hexcess]
  simp [Nat.mod_one]

theorem isInRange_of_lt {n : Nat} (h : n < UInt16.size) : Scaled.isInRange ⟨n, 0⟩ = true := by
  have hlimit : n < doubleLimit := Nat.lt_trans h (by decide)
  have hone : roundToDouble 1 = 1 := by decide
  rw [Scaled.isInRange]
  simp [hone, roundToDouble_of_lt h, hlimit]

theorem number?_toDigits {n : Nat} (h : n < UInt16.size) (hs : EndsNumber s) :
    number? (Nat.toDigits 10 n ++ s) = some (⟨n, 0⟩, s) := by
  have hfraction : fractionPart? s = some ([], s) := by
    rw [fractionPart?]
    rintro r rfl
    exact (hs '.' rfl).2.1 rfl
  have hexponent : exponentPart? s = some (0, s) := by
    rw [exponentPart?]
    · rintro r rfl
      exact (hs 'e' rfl).2.2.1 rfl
    · rintro r rfl
      exact (hs 'E' rfl).2.2.2 rfl
  have hinteger : Scaled.ofInteger (Nat.toDigits 10 n) = ⟨n, 0⟩ :=
    ofInteger_go (foldl_toDigits n) (Nat.le_trans h.le (by decide))
  have hmagnitude : magnitude? (Nat.toDigits 10 n ++ s) = some (⟨n, 0⟩, s) := by
    rw [magnitude?, integerPart?_toDigits n hs]
    simp [hfraction, hexponent, hinteger, Scaled.addFraction]
  rw [number?, hmagnitude]
  intro r hr
  obtain ⟨d, ds, hd⟩ := List.exists_cons_of_ne_nil (toDigits_ne_nil n)
  have hdigit : d.isDigit = true := isDigit_of_mem_toDigits (hd ▸ List.mem_cons_self)
  rw [hd, List.cons_append] at hr
  obtain rfl := (List.cons.inj hr).1
  exact absurd hdigit (by decide)

theorem numberValue_gives {n : Nat} (h : n < UInt16.size) (hs : EndsNumber s) :
    Gives (numberValue ((toString n).toList ++ s)) (ofNat n) s := by
  rw [toList_toString]
  have hpos : 0 < (Nat.toDigits 10 n).length := List.length_pos_iff.mpr (toDigits_ne_nil n)
  have hshorter : s.length < (Nat.toDigits 10 n ++ s).length := by
    rw [List.length_append]
    omega
  have hliteral : String.ofList (Nat.toDigits 10 n) = toString n := by
    rw [← toList_toString, String.ofList_toList]
  refine ⟨hshorter, ?_⟩
  rw [numberValue, number?_toDigits h hs]
  simp [isInRange_of_lt h, hliteral, ofNat, hpos]

theorem toUInt16?_ofNat (bits : UInt16) : (ofNat bits.toNat).toUInt16? = some bits := by
  have hdigits : (toString bits.toNat).toList.all Char.isDigit = true := by
    rw [toList_toString, List.all_eq_true]
    exact fun _ => isDigit_of_mem_toDigits
  have hvalue : (toString bits.toNat).toList.foldl (fun n d => n * 10 + (d.toNat - '0'.toNat)) 0
      = bits.toNat := by
    rw [toList_toString]
    exact foldl_toDigits bits.toNat
  rw [ofNat, toUInt16?, if_pos hdigits, hvalue]
  simp [bits.toNat_lt]

end Json

end DslBindings
