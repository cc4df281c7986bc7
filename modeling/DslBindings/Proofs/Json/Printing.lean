import DslBindings.Proofs.Json.Depth
import DslBindings.Proofs.Json.Tokens

/-!
# Reading back what was written

A value that is written is read as what fits into the room that there is. The two ways to write a value
differ in blanks only, so both are taken as cases of one that puts any blanks between the tokens.
-/

namespace DslBindings.Json

open Text (Gives)

/-- A value that can be written: all of it is readable, and its numbers have 16 bits. -/
inductive IsPrintable : Json → Prop
  | null : IsPrintable .null
  | bool (b : Bool) : IsPrintable (.bool b)
  | string (text : String) : IsPrintable (.string text)
  | number (n : Nat) (h : n < UInt16.size) : IsPrintable (ofNat n)
  | array (items : List Json) (h : ∀ j ∈ items, IsPrintable j) : IsPrintable (.array items)
  | object (members : List (String × Json)) (h : ∀ m ∈ members, IsPrintable m.2) :
    IsPrintable (.object members)

theorem allReadable_iff {js : List Json} : allReadable js = true ↔ ∀ j ∈ js, j.isReadable = true := by
  induction js with
  | nil => simp [allReadable]
  | cons j js ih => simp [allReadable, ih]

theorem membersReadable_iff {ms : List (String × Json)} :
    membersReadable ms = true ↔ ∀ m ∈ ms, m.2.isReadable = true := by
  induction ms with
  | nil => simp [membersReadable]
  | cons m ms ih => simp [membersReadable, ih]

theorem IsPrintable.isReadable {j : Json} (h : IsPrintable j) : j.isReadable = true := by
  induction h with
  | array items _ ih => exact allReadable_iff.mpr ih
  | object ms _ ih => exact membersReadable_iff.mpr ih
  | _ => rfl

/-! ### One way to write -/

/-- Nothing but blanks. -/
def IsBlank (s : List Char) : Prop := ∀ c ∈ s, isSeparator c = true

/-- The blanks of a way to write. -/
structure Spacing where
  /-- What stands in front of an item, a key or an end at a level. -/
  gap : Nat → List Char
  /-- What stands behind a colon. -/
  colon : List Char
  isBlank_gap (level : Nat) : IsBlank (gap level)
  isBlank_colon : IsBlank colon

namespace Spacing

variable (w : Spacing)

mutual

/-- Writes a value with these blanks. -/
def chars (level : Nat) : Json → List Char
  | .null | .unreadable => "null".toList
  | .bool true => "true".toList
  | .bool false => "false".toList
  | .number literal => literal.toList
  | .string text => renderString text
  | .array [] => ['[', ']']
  | .array (j :: js) => '[' :: (w.gap (level + 1) ++ chars (level + 1) j ++ itemChars level js)
  | .object [] => ['\x7b', '\x7d']
  | .object ((k, j) :: ms) =>
    '\x7b' :: (w.gap (level + 1) ++ renderString k ++ ':' :: w.colon ++ chars (level + 1) j
      ++ memberChars level ms)

/-- Writes the items behind the first one, and the end of the array. -/
def itemChars (level : Nat) : List Json → List Char
  | [] => w.gap level ++ [']']
  | j :: js => ',' :: (w.gap (level + 1) ++ chars (level + 1) j ++ itemChars level js)

/-- Writes the members behind the first one, and the end of the object. -/
def memberChars (level : Nat) : List (String × Json) → List Char
  | [] => w.gap level ++ ['\x7d']
  | (k, j) :: ms =>
    ',' :: (w.gap (level + 1) ++ renderString k ++ ':' :: w.colon ++ chars (level + 1) j
      ++ memberChars level ms)

end

/-- Everything on one line. -/
def compact : Spacing where
  gap _ := []
  colon := []
  isBlank_gap _ := List.forall_mem_nil _
  isBlank_colon := List.forall_mem_nil _

/-- Every item and member on a line of its own. -/
def pretty : Spacing where
  gap := newline
  colon := [' ']
  isBlank_gap level := by
    rintro c (_ | ⟨_, hc⟩)
    · rfl
    · rw [List.eq_of_mem_replicate hc]
      rfl
  isBlank_colon := by
    rintro c (_ | ⟨_, ⟨⟩⟩)
    rfl

@[simp] theorem compact_gap (level : Nat) : compact.gap level = [] := rfl

@[simp] theorem compact_colon : compact.colon = [] := rfl

@[simp] theorem pretty_gap (level : Nat) : pretty.gap level = newline level := rfl

@[simp] theorem pretty_colon : pretty.colon = [' '] := rfl

end Spacing

mutual

theorem prettyChars_eq (level : Nat) :
    ∀ j : Json, j.prettyChars level = Spacing.pretty.chars level j
  | .null | .unreadable | .bool true | .bool false | .number _ | .string _ | .array [] | .object [] =>
    by rw [prettyChars, Spacing.chars]
  | .array (j :: js) => by
    simp [prettyChars, Spacing.chars, prettyChars_eq (level + 1) j, prettyItems_eq level js]
  | .object ((k, j) :: ms) => by
    simp [prettyChars, Spacing.chars, prettyChars_eq (level + 1) j, prettyMembers_eq level ms]

theorem prettyItems_eq (level : Nat) :
    ∀ js : List Json, prettyItems level js = Spacing.pretty.itemChars level js
  | [] => by simp [prettyItems, Spacing.itemChars]
  | j :: js => by
    simp [prettyItems, Spacing.itemChars, prettyChars_eq (level + 1) j, prettyItems_eq level js]

theorem prettyMembers_eq (level : Nat) :
    ∀ ms : List (String × Json), prettyMembers level ms = Spacing.pretty.memberChars level ms
  | [] => by simp [prettyMembers, Spacing.memberChars]
  | (k, j) :: ms => by
    simp [prettyMembers, Spacing.memberChars, prettyChars_eq (level + 1) j, prettyMembers_eq level ms]

end

mutual

theorem renderChars_eq (level : Nat) : ∀ j : Json, j.renderChars = Spacing.compact.chars level j
  | .null | .unreadable | .bool true | .bool false | .number _ | .string _ | .array [] | .object [] =>
    by rw [renderChars, Spacing.chars]
  | .array (j :: js) => by
    simp [renderChars, Spacing.chars, renderChars_eq (level + 1) j, renderItems_eq level js]
  | .object ((k, j) :: ms) => by
    simp [renderChars, Spacing.chars, renderChars_eq (level + 1) j, renderMembers_eq level ms]

theorem renderItems_eq (level : Nat) :
    ∀ js : List Json, renderItems js = Spacing.compact.itemChars level js
  | [] => by simp [renderItems, Spacing.itemChars]
  | j :: js => by
    simp [renderItems, Spacing.itemChars, renderChars_eq (level + 1) j, renderItems_eq level js]

theorem renderMembers_eq (level : Nat) :
    ∀ ms : List (String × Json), renderMembers ms = Spacing.compact.memberChars level ms
  | [] => by simp [renderMembers, Spacing.memberChars]
  | (k, j) :: ms => by
    simp [renderMembers, Spacing.memberChars, renderChars_eq (level + 1) j, renderMembers_eq level ms]

end

/-! ### What the reader does at each token -/

section

variable {room : Nat} {canEnd : Bool} {s r r' r'' : List Char} {v : Json} {vs : List Json}
  {ms : Option (List (String × Json))} {key : String}

theorem value_quote (h : Gives (stringValue r) v r') : Gives (value room ('"' :: r)) v r' := by
  obtain ⟨hlength, h⟩ := h
  refine ⟨Nat.lt_succ_of_lt hlength, ?_⟩
  rw [value, if_pos rfl, h]
  rfl

theorem value_bracket (h : Gives (items (room - 1) true (skipBlanks r)) vs r') :
    Gives (value room ('[' :: r)) (inRoom room (.array vs)) r' := by
  obtain ⟨hlength, h⟩ := h
  refine ⟨Nat.lt_succ_of_lt (Nat.lt_of_lt_of_le hlength (length_skipBlanks_le r)), ?_⟩
  rw [value, if_neg (by decide), if_pos rfl, h]

theorem value_brace (h : Gives (members (room - 1) true (skipBlanks r)) ms r') :
    Gives (value room ('\x7b' :: r)) (inRoom room (ofMembers ms)) r' := by
  obtain ⟨hlength, h⟩ := h
  refine ⟨Nat.lt_succ_of_lt (Nat.lt_of_lt_of_le hlength (length_skipBlanks_le r)), ?_⟩
  rw [value, if_neg (by decide), if_neg (by decide), if_pos rfl, h]

theorem wordValue_gives {word : List Char} (hword : word ≠ []) (v : Json) (s : List Char) :
    Gives (wordValue word v (word ++ s)) v s := by
  have hpos : 0 < word.length := List.length_pos_iff.mpr hword
  have hshorter : s.length < (word ++ s).length := by
    rw [List.length_append]
    omega
  refine ⟨hshorter, ?_⟩
  rw [wordValue, Text.afterPrefix?_append]
  simp only [hshorter, dite_true]

theorem value_null (room : Nat) (s : List Char) : Gives (value room ("null".toList ++ s)) .null s := by
  obtain ⟨hshorter, h⟩ := wordValue_gives (by decide : "null".toList ≠ []) .null s
  refine ⟨hshorter, ?_⟩
  change value room ('n' :: _) = _
  rw [value, if_neg (by decide), if_neg (by decide), if_neg (by decide), if_pos rfl]
  exact h

theorem value_true (room : Nat) (s : List Char) :
    Gives (value room ("true".toList ++ s)) (.bool true) s := by
  obtain ⟨hshorter, h⟩ := wordValue_gives (by decide : "true".toList ≠ []) (.bool true) s
  refine ⟨hshorter, ?_⟩
  change value room ('t' :: _) = _
  rw [value, if_neg (by decide), if_neg (by decide), if_neg (by decide), if_neg (by decide),
    if_pos rfl]
  exact h

theorem value_false (room : Nat) (s : List Char) :
    Gives (value room ("false".toList ++ s)) (.bool false) s := by
  obtain ⟨hshorter, h⟩ := wordValue_gives (by decide : "false".toList ≠ []) (.bool false) s
  refine ⟨hshorter, ?_⟩
  change value room ('f' :: _) = _
  rw [value, if_neg (by decide), if_neg (by decide), if_neg (by decide), if_neg (by decide),
    if_neg (by decide), if_pos rfl]
  exact h

theorem value_digit {c : Char} (hc : c.isDigit = true) (h : Gives (numberValue (c :: r)) v r') :
    Gives (value room (c :: r)) v r' := by
  obtain ⟨hlength, h⟩ := h
  have hne {d : Char} (hd : d.isDigit = false) : c ≠ d := by
    rintro rfl
    rw [hc] at hd
    cases hd
  refine ⟨hlength, ?_⟩
  rw [value, if_neg (hne rfl), if_neg (hne rfl), if_neg (hne rfl), if_neg (hne rfl),
    if_neg (hne rfl), if_neg (hne rfl), h]

theorem items_end (room : Nat) (r : List Char) : Gives (items room true (']' :: r)) [] r := by
  refine ⟨Nat.lt_succ_self _, ?_⟩
  rw [items]
  simp

theorem items_last (hs : s.head? ≠ some ']') (h : Gives (value room s) v r)
    (hr : skipBlanks r = ']' :: r') : Gives (items room canEnd s) [v] r' := by
  obtain ⟨hlength, h⟩ := h
  have hshorter : r'.length < s.length := by
    have := length_skipBlanks_le r
    rw [hr, List.length_cons] at this
    omega
  refine ⟨hshorter, ?_⟩
  rw [items]
  simp only [hs, decide_false, Bool.and_false, Bool.false_eq_true, if_false]
  rw [h]
  simp only
  split
  · next heq =>
    rw [hr] at heq
    cases heq
    rfl
  · next heq =>
    rw [hr] at heq
    cases heq
  · next hne _ => exact absurd hr (hne r')

theorem items_cons (hs : s.head? ≠ some ']') (h : Gives (value room s) v r)
    (hr : skipBlanks r = ',' :: r') (hvs : Gives (items room false (skipBlanks r')) vs r'') :
    Gives (items room canEnd s) (v :: vs) r'' := by
  obtain ⟨hlength, h⟩ := h
  obtain ⟨hlength', hvs⟩ := hvs
  have hbehind := length_behind_lt hlength hr
  refine ⟨Nat.lt_trans hlength' hbehind, ?_⟩
  rw [items]
  simp only [hs, decide_false, Bool.and_false, Bool.false_eq_true, if_false]
  rw [h]
  simp only
  split
  · next heq =>
    rw [hr] at heq
    cases heq
  · next heq =>
    rw [hr] at heq
    cases heq
    rw [hvs]
  · next hne => exact absurd hr (hne r')

theorem members_end (room : Nat) (r : List Char) :
    Gives (members room true ('\x7d' :: r)) (some []) r := by
  refine ⟨Nat.lt_succ_self _, ?_⟩
  rw [members]
  simp

theorem members_last {r₁ r₂ r₃ r₄ : List Char} (hkey : Gives (stringValue r) (.string key) r₁)
    (hcolon : skipBlanks r₁ = ':' :: r₂) (h : Gives (value room (skipBlanks r₂)) v r₃)
    (hend : skipBlanks r₃ = '\x7d' :: r₄) :
    Gives (members room canEnd ('"' :: r)) (some [(key, v)]) r₄ := by
  obtain ⟨hlength, hkey⟩ := hkey
  obtain ⟨hlength', h⟩ := h
  have hbehind := length_behind_lt hlength hcolon
  have hbehind' := length_skipBlanks_le r₃
  rw [hend, List.length_cons] at hbehind'
  refine ⟨by rw [List.length_cons]; omega, ?_⟩
  rw [members, hkey]
  simp only
  split
  · next heq =>
    rw [hcolon] at heq
    cases heq
    rw [h]
    simp only
    split
    · next heq =>
      rw [hend] at heq
      cases heq
      rfl
    · next heq =>
      rw [hend] at heq
      cases heq
    · next hne _ => exact absurd hend (hne r₄)
  · next hne => exact absurd hcolon (hne r₂)

theorem members_cons {r₁ r₂ r₃ r₄ : List Char} {rest : List (String × Json)}
    (hkey : Gives (stringValue r) (.string key) r₁) (hcolon : skipBlanks r₁ = ':' :: r₂)
    (h : Gives (value room (skipBlanks r₂)) v r₃) (hr : skipBlanks r₃ = ',' :: r₄)
    (hrest : Gives (members room false (skipBlanks r₄)) (some rest) r') :
    Gives (members room canEnd ('"' :: r)) (some ((key, v) :: rest)) r' := by
  obtain ⟨hlength, hkey⟩ := hkey
  obtain ⟨hlength', h⟩ := h
  obtain ⟨hlength'', hrest⟩ := hrest
  have hbehind := length_behind_lt hlength hcolon
  have hbehind' := length_behind_lt hlength' hr
  refine ⟨by rw [List.length_cons]; omega, ?_⟩
  rw [members, hkey]
  simp only
  split
  · next heq =>
    rw [hcolon] at heq
    cases heq
    rw [h]
    simp only
    split
    · next heq =>
      rw [hr] at heq
      cases heq
    · next heq =>
      rw [hr] at heq
      cases heq
      rw [hrest]
      rfl
    · next hne => exact absurd hr (hne r₄)
  · next hne => exact absurd hcolon (hne r₂)

end

/-! ### What was written is read -/

/-- The start of a value: no blank, and no end of an array. -/
def StartsValue (s : List Char) : Prop := ∃ c r, s = c :: r ∧ isSeparator c = false ∧ c ≠ ']'

theorem skipBlanks_append {w s : List Char} (h : IsBlank w) : skipBlanks (w ++ s) = skipBlanks s :=
  List.dropWhile_append_of_pos h

theorem skipBlanks_cons {c : Char} (h : isSeparator c = false) (s : List Char) :
    skipBlanks (c :: s) = c :: s := List.dropWhile_cons_of_neg (by simp [h])

theorem StartsValue.skipBlanks_eq {s : List Char} (h : StartsValue s) : skipBlanks s = s := by
  obtain ⟨c, r, rfl, hc, -⟩ := h
  exact skipBlanks_cons hc r

theorem StartsValue.head?_ne {s : List Char} (h : StartsValue s) : s.head? ≠ some ']' := by
  obtain ⟨c, r, rfl, -, hc⟩ := h
  simpa using hc

theorem StartsValue.append {s : List Char} (h : StartsValue s) (t : List Char) :
    StartsValue (s ++ t) := by
  obtain ⟨c, r, rfl, hc⟩ := h
  exact ⟨c, r ++ t, rfl, hc⟩

theorem endsNumber_append {w s : List Char} (h : IsBlank w) (hs : EndsNumber s) :
    EndsNumber (w ++ s) := by
  cases w with
  | nil => exact hs
  | cons c w =>
    rintro d ⟨⟩
    have hc : isSeparator c = true := h c List.mem_cons_self
    rw [isSeparator] at hc
    simp only [Bool.or_eq_true, decide_eq_true_eq] at hc
    rcases hc with ((rfl | rfl) | rfl) | rfl <;> decide

namespace Spacing

variable {w : Spacing} {room level : Nat} {s : List Char}

theorem startsValue_chars {j : Json} (hj : IsPrintable j) (w : Spacing) (level : Nat) :
    StartsValue (w.chars level j) := by
  cases hj with
  | null => exact ⟨'n', _, rfl, by decide, by decide⟩
  | bool b => cases b with
    | true => exact ⟨'t', _, rfl, by decide, by decide⟩
    | false => exact ⟨'f', _, rfl, by decide, by decide⟩
  | string text => exact ⟨'"', _, rfl, by decide, by decide⟩
  | number n h =>
    obtain ⟨d, ds, hd⟩ := List.exists_cons_of_ne_nil (toDigits_ne_nil n)
    have hdigit : d.isDigit = true := isDigit_of_mem_toDigits (hd ▸ List.mem_cons_self)
    refine ⟨d, ds, by rw [ofNat, chars, toList_toString, hd], ?_, ?_⟩
    · rw [Bool.eq_false_iff, isSeparator]
      intro hd
      simp only [Bool.or_eq_true, decide_eq_true_eq] at hd
      rcases hd with ((rfl | rfl) | rfl) | rfl <;> cases hdigit
    · rintro rfl
      cases hdigit
  | array items h => cases items with
    | nil => exact ⟨'[', _, rfl, by decide, by decide⟩
    | cons j js => exact ⟨'[', _, rfl, by decide, by decide⟩
  | object ms h => cases ms with
    | nil => exact ⟨'\x7b', _, rfl, by decide, by decide⟩
    | cons m ms => exact ⟨'\x7b', _, rfl, by decide, by decide⟩

theorem endsNumber_itemChars (w : Spacing) (level : Nat) (js : List Json) (s : List Char) :
    EndsNumber (w.itemChars level js ++ s) := by
  cases js with
  | nil =>
    rw [itemChars, List.append_assoc]
    refine endsNumber_append (w.isBlank_gap level) ?_
    rintro c ⟨⟩
    decide
  | cons j js =>
    rintro c ⟨⟩
    decide

theorem endsNumber_memberChars (w : Spacing) (level : Nat) (ms : List (String × Json))
    (s : List Char) : EndsNumber (w.memberChars level ms ++ s) := by
  cases ms with
  | nil =>
    rw [memberChars, List.append_assoc]
    refine endsNumber_append (w.isBlank_gap level) ?_
    rintro c ⟨⟩
    decide
  | cons m ms =>
    rintro c ⟨⟩
    decide

/-- However a value is written with these blanks, it is read back as there is room for it. -/
def ReadsBack (w : Spacing) (j : Json) : Prop :=
  ∀ room level s, EndsNumber s → Gives (value room (w.chars level j ++ s)) (j.within room) s

/-- The items behind one that was read are read as well. -/
theorem items_itemChars {js : List Json} (hprintable : ∀ j ∈ js, IsPrintable j)
    (hread : ∀ j ∈ js, w.ReadsBack j) {canEnd : Bool} {t : List Char} {v : Json}
    (ht : StartsValue t) (hv : Gives (value room t) v (w.itemChars level js ++ s)) :
    Gives (items room canEnd t) (v :: withinAll room js) s := by
  induction js generalizing canEnd t v with
  | nil =>
    refine items_last ht.head?_ne hv ?_
    rw [itemChars, List.append_assoc, skipBlanks_append (w.isBlank_gap level)]
    rfl
  | cons j js ih =>
    have hstarts := (startsValue_chars (hprintable j List.mem_cons_self) w (level + 1)).append
      (w.itemChars level js ++ s)
    have hj := hread j List.mem_cons_self room (level + 1) _ (w.endsNumber_itemChars level js s)
    rw [itemChars, List.cons_append, List.append_assoc, List.append_assoc] at hv
    refine items_cons ht.head?_ne hv (skipBlanks_cons (by decide) _) ?_
    rw [skipBlanks_append (w.isBlank_gap _), hstarts.skipBlanks_eq]
    exact ih (fun i hi => hprintable i (List.mem_cons_of_mem j hi))
      (fun i hi => hread i (List.mem_cons_of_mem j hi)) hstarts hj

/-- A member, with the characters behind it. -/
def member (w : Spacing) (level : Nat) (m : String × Json) (s : List Char) : List Char :=
  '"' :: (m.1.toList.flatMap escape ++ '"' :: ':' :: (w.colon ++ (w.chars level m.2 ++ s)))

theorem memberChars_cons_append (w : Spacing) (level : Nat) (m : String × Json)
    (ms : List (String × Json)) (s : List Char) :
    w.memberChars level (m :: ms) ++ s
      = ',' :: (w.gap (level + 1) ++ w.member (level + 1) m (w.memberChars level ms ++ s)) := by
  simp [memberChars, renderString, member]

theorem chars_object_append (w : Spacing) (level : Nat) (m : String × Json)
    (ms : List (String × Json)) (s : List Char) :
    w.chars level (.object (m :: ms)) ++ s
      = '\x7b' :: (w.gap (level + 1) ++ w.member (level + 1) m (w.memberChars level ms ++ s)) := by
  simp [chars, renderString, member]

theorem skipBlanks_gap_member (w : Spacing) (level : Nat) (m : String × Json) (s : List Char) :
    skipBlanks (w.gap level ++ w.member level m s) = w.member level m s := by
  rw [skipBlanks_append (w.isBlank_gap level)]
  exact skipBlanks_cons (by decide) _

theorem value_behind_colon {j : Json} (hprintable : IsPrintable j) (hread : w.ReadsBack j)
    (room level : Nat) (hs : EndsNumber s) :
    Gives (value room (skipBlanks (w.colon ++ (w.chars level j ++ s)))) (j.within room) s := by
  rw [skipBlanks_append w.isBlank_colon, ((startsValue_chars hprintable w level).append s).skipBlanks_eq]
  exact hread room level s hs

/-- The members from one on are read, if their values are. -/
theorem members_memberChars {m : String × Json} {ms : List (String × Json)}
    (hprintable : ∀ m' ∈ m :: ms, IsPrintable m'.2) (hread : ∀ m' ∈ m :: ms, w.ReadsBack m'.2)
    {canEnd : Bool} :
    Gives (members room canEnd (w.member (level + 1) m (w.memberChars level ms ++ s)))
      (some (withinMembers room (m :: ms))) s := by
  induction ms generalizing canEnd m with
  | nil =>
    have hvalue := value_behind_colon (hprintable m List.mem_cons_self) (hread m List.mem_cons_self)
      room (level + 1) (w.endsNumber_memberChars level [] s)
    refine members_last (stringValue_gives m.1 _) (skipBlanks_cons (by decide) _) hvalue ?_
    rw [memberChars, List.append_assoc, skipBlanks_append (w.isBlank_gap level)]
    rfl
  | cons m' ms ih =>
    have hvalue := value_behind_colon (hprintable m List.mem_cons_self) (hread m List.mem_cons_self)
      room (level + 1) (w.endsNumber_memberChars level (m' :: ms) s)
    rw [memberChars_cons_append] at hvalue ⊢
    refine members_cons (stringValue_gives m.1 _) (skipBlanks_cons (by decide) _) hvalue
      (skipBlanks_cons (by decide) _) ?_
    rw [skipBlanks_gap_member]
    exact ih (List.forall_mem_cons.mp hprintable).2 (List.forall_mem_cons.mp hread).2

theorem readsBack (w : Spacing) {j : Json} (hj : IsPrintable j) : w.ReadsBack j := by
  induction hj with
  | null => exact fun room level s _ => value_null room s
  | bool b => cases b with
    | true => exact fun room level s _ => value_true room s
    | false => exact fun room level s _ => value_false room s
  | string text =>
    intro room level s _
    rw [chars, renderString, List.cons_append, List.append_assoc]
    exact value_quote (stringValue_gives text s)
  | number n h =>
    intro room level s hs
    obtain ⟨d, ds, hd⟩ := List.exists_cons_of_ne_nil (toDigits_ne_nil n)
    have hdigit : d.isDigit = true := isDigit_of_mem_toDigits (hd ▸ List.mem_cons_self)
    have hread := numberValue_gives h hs
    rw [toList_toString, hd] at hread
    rw [ofNat, chars, toList_toString, hd]
    exact value_digit hdigit hread
  | array items h ih =>
    intro room level s hs
    cases items with
    | nil => exact value_bracket (items_end _ _)
    | cons j js =>
      have hstarts := (startsValue_chars (h j List.mem_cons_self) w (level + 1)).append
        (w.itemChars level js ++ s)
      have hj := ih j List.mem_cons_self (room - 1) (level + 1) _ (w.endsNumber_itemChars level js s)
      have hitems : Gives (items (room - 1) true _) (withinAll (room - 1) (j :: js)) s :=
        items_itemChars (fun i hi => h i (List.mem_cons_of_mem j hi))
          (fun i hi => ih i (List.mem_cons_of_mem j hi)) hstarts hj
      rw [chars, List.cons_append, List.append_assoc, List.append_assoc]
      apply value_bracket
      rw [skipBlanks_append (w.isBlank_gap _), hstarts.skipBlanks_eq]
      exact hitems
  | object ms h ih =>
    intro room level s hs
    cases ms with
    | nil =>
      have hend : Gives (members (room - 1) true (skipBlanks ('\x7d' :: s))) (some []) s :=
        members_end _ _
      exact value_brace hend
    | cons m ms =>
      rw [chars_object_append]
      have hmembers : Gives (members (room - 1) true
          (w.member (level + 1) m (w.memberChars level ms ++ s))) _ s := members_memberChars h ih
      rw [← skipBlanks_gap_member] at hmembers
      exact value_brace hmembers

end Spacing

/-- What is written in any of the two ways is read as there is room for it. -/
theorem parse_of_mem_renderings {j : Json} (hj : IsPrintable j) {text : String}
    (h : text = j.render ∨ text = j.renderPretty) : parse text = some (j.within maxDepth) := by
  obtain ⟨w, hw⟩ : ∃ w : Spacing, text.toList = w.chars 0 j := by
    rcases h with rfl | rfl
    · exact ⟨.compact, by rw [render, String.toList_ofList, renderChars_eq 0]⟩
    · exact ⟨.pretty, by rw [renderPretty, String.toList_ofList, prettyChars_eq 0]⟩
  have hend : EndsNumber [] := by
    rintro c ⟨⟩
  have hread := w.readsBack hj maxDepth 0 [] hend
  rw [List.append_nil, ← (Spacing.startsValue_chars hj w 0).skipBlanks_eq, ← hw] at hread
  obtain ⟨hlength, hread⟩ := hread
  rw [parse, hread]
  rfl

end DslBindings.Json
