import Mathlib.Data.List.Forall2
import DslBindings.Text.Lossy

/-!
# Text that is there in its bytes

What is written in UTF-8 is read as what was written. No byte of it is taken for one that spells nothing,
so what stands for those makes no difference.
-/

namespace DslBindings.Text

theorem ofUtf8?_utf8 (text : String) : ofUtf8? (utf8 text) = some text := by
  have hbytes : ByteArray.mk (utf8 text).toArray = text.toByteArray := by
    rw [← String.utf8Encode_toList, List.utf8Encode, utf8]
    apply ByteArray.ext
    simp
  rw [ofUtf8?, hbytes, String.fromUTF8?, dif_pos text.isValidUTF8]
  rfl

/-- A byte in a range. -/
def IsIn (range : UInt8 × UInt8) (b : UInt8) : Prop := range.1 ≤ b ∧ b ≤ range.2

/-- Bytes in these ranges, one after the other. -/
abbrev GoOn (ranges : List (UInt8 × UInt8)) (bytes : List UInt8) : Prop :=
  List.Forall₂ IsIn ranges bytes

theorem countFollowers_append {ranges : List (UInt8 × UInt8)} {bytes : List UInt8}
    (h : GoOn ranges bytes) (rest : List UInt8) :
    countFollowers ranges (bytes ++ rest) = ranges.length := by
  induction h with
  | nil => cases rest <;> rfl
  | cons hb _ ih =>
    rw [List.cons_append, countFollowers, if_pos, ih, List.length_cons]
    simpa [IsIn] using hb

theorem repair_cons_of_goOn {b : UInt8} {ranges : List (UInt8 × UInt8)} {bytes : List UInt8}
    (hb : followers? b = some ranges) (h : GoOn ranges bytes) (substitute rest : List UInt8) :
    repair substitute (b :: bytes ++ rest) = b :: bytes ++ repair substitute rest := by
  have hcount := countFollowers_append h rest
  rw [List.cons_append, repair, hb]
  simp [hcount, h.length_eq]

/-- The range of the bytes of a character that stand neither first nor second. -/
def laterRange : UInt8 × UInt8 := (0x80, 0xBF)

/-- What follows a byte, by its number. -/
theorem followers?_ofNat : ∀ n < 256, followers? (UInt8.ofNat n) =
    if n < 128 then some []
    else if n < 194 then none
    else if n < 224 then some [laterRange]
    else if n = 224 then some [(0xA0, 0xBF), laterRange]
    else if n = 237 then some [(0x80, 0x9F), laterRange]
    else if n < 240 then some [laterRange, laterRange]
    else if n = 240 then some [(0x90, 0xBF), laterRange, laterRange]
    else if n < 244 then some [laterRange, laterRange, laterRange]
    else if n = 244 then some [(0x80, 0x8F), laterRange, laterRange]
    else none := by
  decide +kernel

theorem isIn_ofNat {range : UInt8 × UInt8} {n : Nat} (hlow : range.1.toNat ≤ n)
    (hhigh : n ≤ range.2.toNat) : IsIn range (UInt8.ofNat n) := by
  have hn : (UInt8.ofNat n).toNat = n :=
    Nat.mod_eq_of_lt (Nat.lt_of_le_of_lt hhigh range.2.toNat_lt)
  rw [IsIn, UInt8.le_iff_toNat_le, UInt8.le_iff_toNat_le, hn]
  exact ⟨hlow, hhigh⟩

theorem isIn_later (n : Nat) : IsIn laterRange (UInt8.ofNat (n % 64 + 128)) := by
  refine isIn_ofNat ?_ ?_ <;> simp only [laterRange, UInt8.reduceToNat] <;> omega

/-- Only a character that needs three bytes is written in three. -/
theorem goOn_three {v : Nat} (hlow : 2047 < v) (hhigh : v ≤ 65535)
    (hvalid : v < 0xD800 ∨ 0xDFFF < v ∧ v < 0x110000) :
    ∃ ranges, followers? (UInt8.ofNat (v / 4096 % 16 + 224)) = some ranges
      ∧ GoOn ranges [UInt8.ofNat (v / 64 % 64 + 128), UInt8.ofNat (v % 64 + 128)] := by
  have hsecond {range : UInt8 × UInt8} (h : IsIn range (UInt8.ofNat (v / 64 % 64 + 128))) :
      GoOn [range, laterRange] [UInt8.ofNat (v / 64 % 64 + 128), UInt8.ofNat (v % 64 + 128)] :=
    .cons h (.cons (isIn_later v) .nil)
  rw [followers?_ofNat _ (by omega), if_neg (by omega), if_neg (by omega), if_neg (by omega)]
  split
  · refine ⟨_, rfl, hsecond (isIn_ofNat ?_ ?_)⟩ <;> simp only [UInt8.reduceToNat] <;> omega
  split
  · refine ⟨_, rfl, hsecond (isIn_ofNat ?_ ?_)⟩ <;> simp only [UInt8.reduceToNat] <;> omega
  · rw [if_pos (by omega)]
    exact ⟨_, rfl, hsecond (isIn_later _)⟩

/-- Only a character that needs four bytes is written in four. -/
theorem goOn_four {v : Nat} (hlow : 65535 < v) (hhigh : v < 0x110000) :
    ∃ ranges, followers? (UInt8.ofNat (v / 262144 % 8 + 240)) = some ranges
      ∧ GoOn ranges [UInt8.ofNat (v / 4096 % 64 + 128), UInt8.ofNat (v / 64 % 64 + 128),
        UInt8.ofNat (v % 64 + 128)] := by
  have hsecond {range : UInt8 × UInt8} (h : IsIn range (UInt8.ofNat (v / 4096 % 64 + 128))) :
      GoOn [range, laterRange, laterRange] [UInt8.ofNat (v / 4096 % 64 + 128),
        UInt8.ofNat (v / 64 % 64 + 128), UInt8.ofNat (v % 64 + 128)] :=
    .cons h (.cons (isIn_later _) (.cons (isIn_later v) .nil))
  rw [followers?_ofNat _ (by omega), if_neg (by omega), if_neg (by omega), if_neg (by omega),
    if_neg (by omega), if_neg (by omega), if_neg (by omega)]
  split
  · refine ⟨_, rfl, hsecond (isIn_ofNat ?_ ?_)⟩ <;> simp only [UInt8.reduceToNat] <;> omega
  split
  · exact ⟨_, rfl, hsecond (isIn_later _)⟩
  · rw [if_pos (by omega)]
    refine ⟨_, rfl, hsecond (isIn_ofNat ?_ ?_)⟩ <;> simp only [UInt8.reduceToNat] <;> omega

/-- The bytes of a character stay as they are. -/
theorem repair_encode (c : Char) (substitute rest : List UInt8) :
    repair substitute (String.utf8EncodeChar c ++ rest)
      = String.utf8EncodeChar c ++ repair substitute rest := by
  have hvalid : c.val.toNat < 0xD800 ∨ 0xDFFF < c.val.toNat ∧ c.val.toNat < 0x110000 := c.valid
  rw [String.utf8EncodeChar]
  generalize c.val.toNat = v at hvalid
  split
  · refine repair_cons_of_goOn ?_ .nil substitute rest
    rw [followers?_ofNat v (by omega), if_pos (by omega)]
  split
  · refine repair_cons_of_goOn ?_ (.cons (isIn_later v) .nil) substitute rest
    rw [followers?_ofNat _ (by omega), if_neg (by omega), if_neg (by omega), if_pos (by omega)]
  split
  · obtain ⟨ranges, hranges, hgoOn⟩ := goOn_three (by omega) (by omega) hvalid
    exact repair_cons_of_goOn hranges hgoOn substitute rest
  · obtain ⟨ranges, hranges, hgoOn⟩ := goOn_four (v := v) (by omega) (by omega)
    exact repair_cons_of_goOn hranges hgoOn substitute rest

theorem repair_utf8 (substitute : List UInt8) (text : String) :
    repair substitute (utf8 text) = utf8 text := by
  rw [utf8]
  induction text.toList with
  | nil => rw [List.flatMap_nil, repair]
  | cons c cs ih => rw [List.flatMap_cons, repair_encode, ih]

/-! ### Characters in bytes -/

/-- Bytes that start with those of a character start with those of no other one. -/
theorem eq_of_encode_append {c d : Char} {s t : List UInt8}
    (h : String.utf8EncodeChar c ++ s = String.utf8EncodeChar d ++ t) : c = d := by
  have hdecode (e : Char) (u : List UInt8) :
      (String.utf8EncodeChar e ++ u).toByteArray.utf8DecodeChar? 0 = some e := by
    rw [List.toByteArray_append]
    exact ByteArray.utf8DecodeChar?_utf8EncodeChar_append
  have hc := hdecode c s
  rw [h, hdecode d t] at hc
  exact (Option.some.inj hc).symm

/-- What starts with all bytes of a text starts with that text. -/
theorem exists_append_of_bytes_prefix {w t : List Char}
    (h : w.flatMap String.utf8EncodeChar <+: t.flatMap String.utf8EncodeChar) : ∃ r, t = w ++ r := by
  induction w generalizing t with
  | nil => exact ⟨t, rfl⟩
  | cons c w ih =>
    obtain ⟨rest, h⟩ := h
    rw [List.flatMap_cons, List.append_assoc] at h
    cases t with
    | nil => exact absurd (List.append_eq_nil_iff.mp h).1 String.utf8EncodeChar_ne_nil
    | cons d t =>
      rw [List.flatMap_cons] at h
      obtain rfl := eq_of_encode_append h
      obtain ⟨r, rfl⟩ := ih ⟨rest, List.append_cancel_left h⟩
      exact ⟨r, rfl⟩

theorem length_flatMap_encode (s : List Char) :
    (s.flatMap String.utf8EncodeChar).length = utf8Length s := by
  induction s with
  | nil => rfl
  | cons c s ih =>
    rw [List.flatMap_cons, List.length_append, ih, String.length_utf8EncodeChar, utf8Length_cons]

/-- The byte of a character of one byte is part of no other one. -/
theorem eq_of_mem_encode {c d : Char} (hd : d.utf8Size = 1)
    (h : d.toUInt8 ∈ String.utf8EncodeChar c) : c = d := by
  have hlow : d.val.toNat ≤ 127 := UInt32.le_iff_toNat_le.mp (Char.utf8Size_eq_one_iff.mp hd)
  have hbyte : d.toUInt8.toNat = d.val.toNat := by
    rw [← Char.toUInt8_val, UInt32.toNat_toUInt8]
    omega
  have hn (n : Nat) (h : d.toUInt8 = UInt8.ofNat n) : d.val.toNat = n % 256 := by
    rw [← hbyte, h, UInt8.toNat_ofNat']
  rw [String.utf8EncodeChar] at h
  split at h
  · have heq := hn _ (List.mem_singleton.mp h)
    refine Char.ext (UInt32.toNat_inj.mp ?_)
    omega
  -- Every byte of a longer character is at least 128.
  exfalso
  split at h
  · rcases List.mem_pair.mp h with h | h <;> have heq := hn _ h <;> omega
  split at h
  · simp only [List.mem_cons, List.not_mem_nil, or_false] at h
    rcases h with h | h | h <;> have heq := hn _ h <;> omega
  · simp only [List.mem_cons, List.not_mem_nil, or_false] at h
    rcases h with h | h | h | h <;> have heq := hn _ h <;> omega

theorem utf8ByteSize_ofList (w : List Char) : (String.ofList w).utf8ByteSize = utf8Length w := by
  rw [← length_flatMap_encode, String.utf8ByteSize, String.toByteArray_ofList, List.utf8Encode,
    List.size_toByteArray]

end DslBindings.Text
