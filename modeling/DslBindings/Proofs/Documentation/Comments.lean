import Mathlib.Algebra.Ring.Nat
import Mathlib.Data.List.Basic
import Mathlib.Data.List.TakeWhile
import DslBindings.Extension.Function

/-!
# Comments

A comment nests in another one, so a text that is written into a comment must neither close it nor open
a new one. `*/` is never written, so no text closes it. But `/*` is, unless it stands directly behind
an asterisk, and each one leaves the comment open once more.
-/

namespace DslBindings

namespace Comment

/-! ### Scanning -/

/-- Where a scan of a source text is. -/
structure Scan where
  /-- How many comments are open. -/
  depth : Nat
  /-- The last character, unless it ended a delimiter. -/
  last : Option Char
  deriving DecidableEq, Repr

/-- Reads one more character. -/
def Scan.step (s : Scan) (c : Char) : Scan :=
  if s.last = some '/' ∧ c = '*' then ⟨s.depth + 1, none⟩
  else if s.last = some '*' ∧ c = '/' then ⟨s.depth - 1, none⟩
  else ⟨s.depth, some c⟩

/-- Reads a text. -/
def Scan.run (s : Scan) (text : List Char) : Scan := text.foldl Scan.step s

/-- How many comments are open behind a text. -/
def depth (text : List Char) : Nat := (Scan.run ⟨0, none⟩ text).depth

/-- A comment behind which some comments are still open. It is not closed anywhere before. -/
structure IsComment (unclosed : Nat) (comment : List Char) : Prop where
  opens : "/**".toList <+: comment
  closes : "*/".toList <:+ comment
  depth_pos : ∀ text, text <+: comment → "/**".toList <+: text → text ≠ comment → 0 < depth text
  depth_eq : depth comment = unclosed

/-- How many comments a text opens, behind two characters: a `/*` counts unless an asterisk stands in
front of it. -/
def openingsBehind (before last : Char) : (text : List Char) → Nat
  | [] => 0
  | c :: text =>
    (if before ≠ '*' ∧ last = '/' ∧ c = '*' then 1 else 0) + openingsBehind last c text

/-- How many comments a text opens where it is written into a comment. -/
def openings (text : List Char) : Nat := openingsBehind ' ' ' ' text

/-- A comment and the end of its line. -/
def IsCommentBlock (unclosed : Nat) (text : String) : Prop :=
  ∃ comment, text.toList = comment ++ ['\n'] ∧ IsComment unclosed comment

/-- A character that is in no delimiter. -/
def IsNeutral (c : Char) : Prop := c ≠ '/' ∧ c ≠ '*'

instance (c : Char) : Decidable (IsNeutral c) := instDecidableAnd

/-! ### Counting openings -/

theorem openingsBehind_congr {b l b' l' : Char} (hstar : l = '*' ↔ l' = '*')
    (hslash : (b ≠ '*' ∧ l = '/') ↔ (b' ≠ '*' ∧ l' = '/')) (text : List Char) :
    openingsBehind b l text = openingsBehind b' l' text := by
  cases text with
  | nil => rfl
  | cons c text =>
    have hif : (if b ≠ '*' ∧ l = '/' ∧ c = '*' then 1 else 0)
        = if b' ≠ '*' ∧ l' = '/' ∧ c = '*' then 1 else 0 := by
      simp only [← and_assoc, hslash]
    have htail : openingsBehind l c text = openingsBehind l' c text := by
      cases text with
      | nil => rfl
      | cons d text => simp only [openingsBehind, ne_eq, hstar]
    rw [openingsBehind, openingsBehind, hif, htail]

/-- Behind a neutral character, counting starts again. -/
theorem openingsBehind_neutral {b l c : Char} (hc : IsNeutral c) (text : List Char) :
    openingsBehind b l (c :: text) = openings text := by
  have hrest : openingsBehind l c text = openingsBehind ' ' ' ' text :=
    openingsBehind_congr (by simp [hc.2]) (by simp [hc.1]) text
  rw [openingsBehind, if_neg (by simp [hc.2]), Nat.zero_add, hrest, openings]

theorem openings_append {c : Char} (hc : IsNeutral c) (text rest : List Char) :
    openings (text ++ c :: rest) = openings text + openings rest := by
  have hbehind : ∀ b l, openingsBehind b l (text ++ c :: rest)
      = openingsBehind b l text + openings rest := by
    induction text with
    | nil =>
      intro b l
      rw [List.nil_append, openingsBehind_neutral hc, openingsBehind, Nat.zero_add]
    | cons d text ih =>
      intro b l
      rw [List.cons_append, openingsBehind, openingsBehind, ih, Nat.add_assoc]
  exact hbehind ' ' ' '

theorem openings_of_forall_neutral {text : List Char} (h : ∀ c ∈ text, IsNeutral c) :
    openings text = 0 := by
  induction text with
  | nil => rfl
  | cons c text ih =>
    rw [openings, openingsBehind_neutral (h c List.mem_cons_self)]
    exact ih fun d hd => h d (List.mem_cons_of_mem c hd)

theorem openings_append_neutral {text blanks : List Char} (h : ∀ c ∈ blanks, IsNeutral c) :
    openings (text ++ blanks) = openings text := by
  cases blanks with
  | nil => rw [List.append_nil]
  | cons c blanks =>
    rw [openings_append (h c List.mem_cons_self),
      openings_of_forall_neutral fun d hd => h d (List.mem_cons_of_mem c hd), Nat.add_zero]

theorem openings_neutral_append {text blanks : List Char} (h : ∀ c ∈ blanks, IsNeutral c) :
    openings (blanks ++ text) = openings text := by
  induction blanks with
  | nil => rfl
  | cons c blanks ih =>
    rw [List.cons_append, openings, openingsBehind_neutral (h c List.mem_cons_self)]
    exact ih fun d hd => h d (List.mem_cons_of_mem c hd)

theorem isNeutral_of_isBlank {c : Char} (h : Text.isBlank c = true) : IsNeutral c := by
  constructor
  · rintro rfl
    exact absurd h (by decide)
  · rintro rfl
    exact absurd h (by decide)

theorem openings_trimStart (text : List Char) : openings (Text.trimStart text) = openings text := by
  have hblank : ∀ c ∈ text.takeWhile Text.isBlank, IsNeutral c := by
    intro c hc
    exact isNeutral_of_isBlank (List.mem_takeWhile_imp hc)
  have hcut : text.takeWhile Text.isBlank ++ Text.trimStart text = text :=
    List.takeWhile_append_dropWhile
  rw [← openings_neutral_append hblank, hcut]

theorem openings_trimEnd (text : List Char) : openings (Text.trimEnd text) = openings text := by
  have hblank : ∀ c ∈ (text.reverse.takeWhile Text.isBlank).reverse, IsNeutral c := by
    intro c hc
    exact isNeutral_of_isBlank (List.mem_takeWhile_imp (List.mem_reverse.mp hc))
  have hcut : Text.trimEnd text ++ (text.reverse.takeWhile Text.isBlank).reverse = text := by
    rw [Text.trimEnd, Text.trimStart, ← List.reverse_append, List.takeWhile_append_dropWhile,
      List.reverse_reverse]
  rw [← openings_append_neutral hblank, hcut]

theorem openings_trim (text : List Char) : openings (Text.trim text) = openings text := by
  rw [Text.trim, openings_trimEnd, openings_trimStart]

theorem openings_withoutReturn (line : List Char) :
    openings (Text.withoutReturn line) = openings line := by
  rw [Text.withoutReturn]
  split
  · rename_i hlast
    have hcut : line.dropLast ++ ['\r'] = line := List.dropLast_append_getLast? '\r' hlast
    have hreturn : ∀ c ∈ ['\r'], IsNeutral c := by
      intro c hc
      rw [List.mem_singleton.mp hc]
      decide
    rw [← openings_append_neutral hreturn, hcut]
  · rfl

theorem openings_intercalate (pieces : List (List Char)) :
    openings (['\n'].intercalate pieces) = (pieces.map openings).sum := by
  induction pieces with
  | nil => rfl
  | cons p ps ih =>
    cases ps with
    | nil => simp [List.intercalate]
    | cons q ps =>
      rw [List.intercalate_cons_cons, List.append_assoc, List.singleton_append,
        openings_append (by decide), ih]
      rfl

theorem openings_lines (text : List Char) :
    ((Text.lines text).map openings).sum = openings text := by
  obtain ⟨front, last, hpieces⟩ : ∃ front last, text.splitOn '\n' = front ++ [last] :=
    ⟨_, _, (List.dropLast_concat_getLast (List.splitOn_ne_nil '\n' text)).symm⟩
  have hlast : ((if last = [] then [] else [last]).map openings).sum = openings last := by
    split
    · subst last
      rfl
    · simp
  calc ((Text.lines text).map openings).sum
      = (front.map openings).sum + openings last := by
        simp [Text.lines, hpieces, hlast, Function.comp_def, openings_withoutReturn]
    _ = openings (['\n'].intercalate (text.splitOn '\n')) := by
        rw [openings_intercalate, hpieces]
        simp
    _ = openings text := by rw [List.intercalate_splitOn]

/-! ### Texts inside a comment -/

/-- A text that, written inside a comment, opens some comments and does not close any. -/
structure Opens (n : Nat) (text : List Char) : Prop where
  depth_le : ∀ s : Scan, (∀ c ∈ s.last, IsNeutral c) →
    ∀ start, start <+: text → s.depth ≤ (s.run start).depth
  depth_eq : ∀ s : Scan, (∀ c ∈ s.last, IsNeutral c) → (s.run text).depth = s.depth + n
  last : ∀ s : Scan, (∀ c ∈ s.last, IsNeutral c) → ∀ c ∈ (s.run text).last, IsNeutral c

theorem prefix_append_cases {α : Type} {start text rest : List α} (h : start <+: text ++ rest) :
    start <+: text ∨ ∃ more, more <+: rest ∧ start = text ++ more := by
  rcases List.prefix_or_prefix_of_prefix h (List.prefix_append text rest) with hshort | hlong
  · exact .inl hshort
  · obtain ⟨more, rfl⟩ := hlong
    exact .inr ⟨more, (List.prefix_append_right_inj text).mp h, rfl⟩

theorem Scan.run_append (s : Scan) (text rest : List Char) :
    s.run (text ++ rest) = (s.run text).run rest := List.foldl_append

theorem opens_nil : Opens 0 [] where
  depth_le s _ start h := by rw [List.prefix_nil.mp h]; exact le_rfl
  depth_eq s _ := rfl
  last s hs := hs

theorem Opens.append {m n : Nat} {text rest : List Char} (ht : Opens m text) (hr : Opens n rest) :
    Opens (m + n) (text ++ rest) where
  depth_le s hs start h := by
    obtain hshort | ⟨more, hmore, rfl⟩ := prefix_append_cases h
    · exact ht.depth_le s hs start hshort
    · rw [Scan.run_append]
      have hle := hr.depth_le (s.run text) (ht.last s hs) more hmore
      rw [ht.depth_eq s hs] at hle
      omega
  depth_eq s hs := by
    rw [Scan.run_append, hr.depth_eq _ (ht.last s hs), ht.depth_eq s hs, Nat.add_assoc]
  last s hs := by
    rw [Scan.run_append]
    exact hr.last _ (ht.last s hs)

theorem opens_flatMap {α : Type} {f : α → List Char} {n : α → Nat} (h : ∀ x, Opens (n x) (f x))
    (xs : List α) : Opens (xs.map n).sum (xs.flatMap f) := by
  induction xs with
  | nil => exact opens_nil
  | cons x xs ih => exact (h x).append ih

/-! ### What is written of a line -/

/-- What is written of a text behind a character, which is an asterisk or not. -/
def escapeBehind (star : Bool) : (text : List Char) → List Char
  | [] => []
  | c :: text =>
    if star = true ∧ c = '/' then "&#47;".toList ++ escapeBehind false text
    else c :: escapeBehind (c = '*') text

/-- Only a slash is written in another way behind an asterisk. -/
theorem escapeBehind_of_ne {c : Char} (hc : c ≠ '/') (star : Bool) (text : List Char) :
    escapeBehind star (c :: text) = c :: escapeBehind (c = '*') text :=
  if_neg fun h => hc h.2

theorem escapeBehind_false (c : Char) (text : List Char) :
    escapeBehind false (c :: text) = c :: escapeBehind (c = '*') text :=
  if_neg fun h => Bool.false_ne_true h.1

/-- Only a slash directly behind it makes a difference to an asterisk. -/
theorem escapeBehind_congr {star star' : Bool} {text : List Char} (h : text.head? ≠ some '/') :
    escapeBehind star text = escapeBehind star' text := by
  cases text with
  | nil => rfl
  | cons c text =>
    have hc : c ≠ '/' := by simpa using h
    rw [escapeBehind_of_ne hc, escapeBehind_of_ne hc]

theorem replaceAll_eq_escapeBehind (text : List Char) :
    Text.replaceAll "*/".toList "*&#47;".toList text = escapeBehind false text := by
  match text with
  | [] => rfl
  | c :: text =>
    rw [escapeBehind_false]
    by_cases hcut : c = '*' ∧ text.head? = some '/'
    · obtain ⟨rfl, hhead⟩ := hcut
      obtain ⟨rest, rfl⟩ := List.head?_eq_some_iff.mp hhead
      have ih := replaceAll_eq_escapeBehind rest
      simpa [Text.replaceAll, Text.replaceFrom, escapeBehind] using ih
    · have ih := replaceAll_eq_escapeBehind text
      have hprefix : "*/".toList.isPrefixOf (c :: text) = false := by
        rw [Bool.eq_false_iff]
        intro hprefix
        obtain ⟨rest, hrest⟩ := List.isPrefixOf_iff_prefix.mp hprefix
        cases hrest
        exact hcut ⟨rfl, rfl⟩
      have hstar : escapeBehind (c = '*') text = escapeBehind false text := by
        by_cases hc : c = '*'
        · exact escapeBehind_congr fun hhead => hcut ⟨hc, hhead⟩
        · rw [decide_eq_false hc]
      rw [Text.replaceAll, Text.replaceFrom, hprefix, hstar, ← ih]
      rfl
termination_by text.length

/-- How the last character that a scan has read is related to the last two that were to be written. -/
structure IsBehind (s : Scan) (before last : Char) : Prop where
  slash : s.last = some '/' ↔ before ≠ '*' ∧ last = '/'
  star : s.last = some '*' → last = '*'

/-- A text without slashes leaves the depth as it is. -/
theorem run_of_notMem {text : List Char} (h : '/' ∉ text) {s : Scan} (hs : s.last ≠ some '/') :
    s.run text = ⟨s.depth, text.getLast?.or s.last⟩ := by
  induction text generalizing s with
  | nil => rfl
  | cons c text ih =>
    have hc : c ≠ '/' := by
      rintro rfl
      exact h List.mem_cons_self
    have hstep : s.step c = ⟨s.depth, some c⟩ := by simp [Scan.step, hs, hc]
    rw [Scan.run, List.foldl_cons, hstep]
    refine (ih (fun hmem => h (List.mem_cons_of_mem c hmem)) (by simpa using hc)).trans ?_
    rw [List.getLast?_cons]
    cases text.getLast? <;> rfl

/-- One character that is written as it is. -/
theorem IsBehind.step {s : Scan} {before last c : Char} (h : IsBehind s before last)
    (hc : last = '*' → c ≠ '/') :
    IsBehind (s.step c) last c
      ∧ (s.step c).depth = s.depth + if before ≠ '*' ∧ last = '/' ∧ c = '*' then 1 else 0 := by
  unfold Scan.step
  split
  · rename_i hopen
    obtain ⟨hslash, rfl⟩ := hopen
    obtain ⟨hbefore, hlast⟩ := h.slash.mp hslash
    exact ⟨⟨by simp, by simp⟩, by simp [hbefore, hlast]⟩
  · rename_i hopen
    have hnone : ¬ (before ≠ '*' ∧ last = '/' ∧ c = '*') := by
      rintro ⟨hbefore, hlast, hstar⟩
      exact hopen ⟨h.slash.mpr ⟨hbefore, hlast⟩, hstar⟩
    rw [if_neg hnone]
    split
    · rename_i hclose
      exact absurd hclose.2 (hc (h.star hclose.1))
    · refine ⟨⟨?_, ?_⟩, rfl⟩
      · simp only [Option.some.injEq]
        exact ⟨fun hslash => ⟨fun hlast => hc hlast hslash, hslash⟩, And.right⟩
      · simp

theorem run_escapeBehind {s : Scan} {before last : Char} (h : IsBehind s before last)
    (text : List Char) :
    (∀ start, start <+: escapeBehind (last = '*') text → s.depth ≤ (s.run start).depth)
      ∧ (s.run (escapeBehind (last = '*') text)).depth = s.depth + openingsBehind before last text := by
  induction text generalizing s before last with
  | nil =>
    refine ⟨?_, by simp [escapeBehind, Scan.run, openingsBehind]⟩
    intro start hstart
    rw [escapeBehind] at hstart
    rw [List.prefix_nil.mp hstart]
    exact le_rfl
  | cons c text ih =>
    by_cases hcut : last = '*' ∧ c = '/'
    · -- The end of a `*/`: an entity is written for the slash, and the asterisk stands there already.
      obtain ⟨rfl, rfl⟩ := hcut
      have hs : s.last ≠ some '/' := by
        intro hslash
        exact absurd (h.slash.mp hslash).2 (by decide)
      have hrun : s.run "&#47;".toList = ⟨s.depth, some ';'⟩ := run_of_notMem (by decide) hs
      have hbehind : IsBehind ⟨s.depth, some ';'⟩ ' ' ';' := ⟨by simp, by simp⟩
      obtain ⟨hle, heq⟩ := ih hbehind
      have hcount : openingsBehind before '*' ('/' :: text) = openingsBehind ' ' ';' text := by
        rw [openingsBehind, if_neg (by simp), Nat.zero_add]
        exact openingsBehind_congr (by simp) (by simp) text
      have hwritten : escapeBehind ('*' = '*') ('/' :: text)
          = "&#47;".toList ++ escapeBehind (';' = '*') text := rfl
      rw [hwritten, hcount]
      constructor
      · intro start hstart
        rcases prefix_append_cases hstart with hshort | ⟨more, hmore, rfl⟩
        · have hnone : '/' ∉ start := fun hmem => absurd (hshort.subset hmem) (by decide)
          rw [run_of_notMem hnone hs]
        · rw [Scan.run_append, hrun]
          exact hle more hmore
      · rw [Scan.run_append, hrun]
        exact heq
    · have hc : last = '*' → c ≠ '/' := fun hlast hslash => hcut ⟨hlast, hslash⟩
      have hwritten : escapeBehind (last = '*') (c :: text) = c :: escapeBehind (c = '*') text := by
        by_cases hslash : c = '/'
        · have hlast : last ≠ '*' := fun hlast => hc hlast hslash
          rw [decide_eq_false hlast, escapeBehind_false]
        · exact escapeBehind_of_ne hslash _ text
      obtain ⟨hbehind, hdepth⟩ := h.step hc
      obtain ⟨hle, heq⟩ := ih hbehind
      rw [hwritten]
      constructor
      · intro start hstart
        rcases List.prefix_cons_iff.mp hstart with rfl | ⟨more, rfl, hmore⟩
        · exact le_rfl
        · have hstep : s.depth ≤ (s.step c).depth := by omega
          exact hstep.trans (hle more hmore)
      · rw [Scan.run, List.foldl_cons, openingsBehind, ← Nat.add_assoc, ← hdepth]
        exact heq

/-! ### Lines and blocks -/

/-- A text without slashes opens nothing, if its last character is in no delimiter. -/
theorem opens_of_notMem {text : List Char} {c : Char} (h : '/' ∉ text) (hlast : text.getLast? = some c)
    (hc : IsNeutral c) : Opens 0 text where
  depth_le s hs start hstart := by
    have hslash : s.last ≠ some '/' := fun hslash => (hs '/' hslash).1 rfl
    rw [run_of_notMem (fun hmem => h (hstart.subset hmem)) hslash]
  depth_eq s hs := by
    have hslash : s.last ≠ some '/' := fun hslash => (hs '/' hslash).1 rfl
    rw [run_of_notMem h hslash, Nat.add_zero]
  last s hs d hd := by
    have hslash : s.last ≠ some '/' := fun hslash => (hs '/' hslash).1 rfl
    rw [run_of_notMem h hslash, hlast] at hd
    cases hd
    exact hc

/-- A line that is written with `*/` replaced, and its end. -/
theorem opens_escaped (line : List Char) :
    Opens (openings line) (escapeBehind false line ++ ['\n']) := by
  have hrun : ∀ s : Scan, (∀ c ∈ s.last, IsNeutral c) →
      (∀ start, start <+: escapeBehind false line → s.depth ≤ (s.run start).depth)
        ∧ (s.run (escapeBehind false line)).depth = s.depth + openings line := by
    intro s hs
    have hbehind : IsBehind s ' ' ' ' := by
      constructor
      · simpa using fun hslash => (hs '/' hslash).1 rfl
      · exact fun hstar => absurd rfl (hs '*' hstar).2
    exact run_escapeBehind hbehind line
  have hnewline : ∀ s : Scan, s.run ['\n'] = ⟨s.depth, some '\n'⟩ := by
    intro s
    simp [Scan.run, Scan.step]
  refine ⟨?_, ?_, ?_⟩
  · intro s hs start hstart
    rcases List.prefix_concat_iff.mp hstart with rfl | hshort
    · rw [Scan.run_append, hnewline, (hrun s hs).2]
      exact Nat.le_add_right _ _
    · exact (hrun s hs).1 start hshort
  · intro s hs
    rw [Scan.run_append, hnewline]
    exact (hrun s hs).2
  · intro s hs c hc
    rw [Scan.run_append, hnewline] at hc
    cases hc
    decide

theorem opens_commentLine (line : List Char) :
    Opens (openings line) (Documentation.commentLine line) := by
  rw [← openings_trimEnd, Documentation.commentLine, replaceAll_eq_escapeBehind]
  cases Text.trimEnd line with
  | nil => exact opens_of_notMem (c := '\n') (by decide) rfl (by decide)
  | cons c content =>
    have hstart : Opens 0 " * ".toList := opens_of_notMem (c := ' ') (by decide) rfl (by decide)
    have hline := hstart.append (opens_escaped (c :: content))
    rw [Nat.zero_add, ← List.append_assoc] at hline
    rwa [escapeBehind_false] at hline ⊢

theorem opens_lines (text : List Char) :
    Opens (openings text) ((Text.lines text).flatMap Documentation.commentLine) := by
  rw [← openings_lines]
  exact opens_flatMap opens_commentLine (Text.lines text)

theorem opens_summaryLines (summary : String) :
    Opens (openings summary.toList) (Documentation.summaryLines summary) := by
  rw [← openings_trim, Documentation.summaryLines]
  cases Text.trim summary.toList with
  | nil => exact opens_nil
  | cons c content =>
    have hend : Opens 0 " *\n".toList := opens_of_notMem (c := '\n') (by decide) rfl (by decide)
    exact (opens_lines (c :: content)).append hend

/-- A comment is left open once for each opening inside it. -/
theorem Opens.isComment {n : Nat} {body : List Char} (h : Opens n body) :
    IsComment n ("/**".toList ++ '\n' :: (body ++ " */".toList)) := by
  have hopen : Scan.run ⟨0, none⟩ "/**".toList = ⟨1, some '*'⟩ := rfl
  have hneutral : ∀ c ∈ some '\n', IsNeutral c := by
    intro c hc
    cases hc
    decide
  have hbody := h.depth_eq ⟨1, some '\n'⟩ hneutral
  have hslash : ((⟨1, some '\n'⟩ : Scan).run body).last ≠ some '/' :=
    fun hslash => (h.last ⟨1, some '\n'⟩ hneutral '/' hslash).1 rfl
  refine ⟨⟨_, rfl⟩, ⟨"/**".toList ++ '\n' :: (body ++ [' ']), by simp⟩, ?_, ?_⟩
  · intro text htext hlong hne
    obtain ⟨rest, rfl⟩ := hlong
    rw [depth, Scan.run_append, hopen]
    -- The text ends behind the opening, in the body, or in the closing but not behind it.
    have hrest := (List.prefix_append_right_inj _).mp htext
    rcases List.prefix_cons_iff.mp hrest with rfl | ⟨more, rfl, hmore⟩
    · exact Nat.one_pos
    · change 0 < ((⟨1, some '\n'⟩ : Scan).run more).depth
      rcases prefix_append_cases hmore with hshort | ⟨last, hlast, rfl⟩
      · exact h.depth_le ⟨1, some '\n'⟩ hneutral more hshort
      · have hlast : last <+: [' ', '*'] ++ ['/'] := hlast
        rcases List.prefix_concat_iff.mp hlast with rfl | hlast
        · exact absurd rfl hne
        · have hnone : '/' ∉ last := fun hmem => absurd (hlast.subset hmem) (by decide)
          rw [Scan.run_append, run_of_notMem hnone hslash, hbody]
          exact Nat.add_pos_left Nat.one_pos n
  · have hclose : ∀ s : Scan, s.last ≠ some '/' → (s.run " */".toList).depth = s.depth - 1 := by
      intro s hs
      simp [Scan.run, Scan.step]
    rw [depth, Scan.run_append, hopen]
    change ((⟨1, some '\n'⟩ : Scan).run (body ++ " */".toList)).depth = n
    rw [Scan.run_append, hclose _ hslash, hbody, Nat.add_sub_cancel_left]

theorem isCommentBlock_block (summary notice : String) :
    IsCommentBlock (openings summary.toList + openings notice.toList)
      (Documentation.block summary notice) := by
  have hbody := (opens_summaryLines summary).append (opens_lines notice.toList)
  refine ⟨_, ?_, hbody.isComment⟩
  have hblock : (Documentation.block summary notice).toList
      = "/**\n".toList ++ Documentation.summaryLines summary
        ++ (Text.lines notice.toList).flatMap Documentation.commentLine ++ " */\n".toList :=
    String.toList_ofList
  have hopen : "/**\n".toList = "/**".toList ++ ['\n'] := by decide
  have hclose : " */\n".toList = " */".toList ++ ['\n'] := by decide
  simp only [hblock, hopen, hclose, List.append_assoc, List.cons_append, List.nil_append]

theorem IsCommentBlock.unique {m n : Nat} {text : String} (hm : IsCommentBlock m text)
    (hn : IsCommentBlock n text) : m = n := by
  obtain ⟨comment, htext, hm⟩ := hm
  obtain ⟨comment', htext', hn⟩ := hn
  have hsame : comment = comment' := List.append_cancel_right (htext.symm.trans htext')
  rw [← hm.depth_eq, hsame, hn.depth_eq]

/-- A comment is closed if and only if nothing in its texts opens another one. -/
theorem isCommentBlock_zero_iff (summary notice : String) :
    IsCommentBlock 0 (Documentation.block summary notice)
      ↔ openings summary.toList = 0 ∧ openings notice.toList = 0 := by
  constructor
  · intro h
    have hsum := h.unique (isCommentBlock_block summary notice)
    omega
  · intro h
    have hblock := isCommentBlock_block summary notice
    rwa [h.1, h.2] at hblock

end Comment

/-- The documentation of a function, with links to its parameters. -/
def ExtensionFunction.summary (f : ExtensionFunction) : String :=
  match f.documentation with
  | some d => d.expand (f.parameters.map Parameter.name ++ [closureName])
  | none => ""

theorem ExtensionFunction.comment_eq (f : ExtensionFunction) :
    f.comment = Documentation.block f.summary f.notice := by
  unfold comment summary
  cases f.documentation <;> rfl

namespace Comment

/--
The block that is written for a summary and a notice is a comment that ends nowhere before its end, and
behind it one more comment is open for each `/*` in the two texts that is not directly behind an
asterisk. So just if there is none, it is a closed comment. The comments of functions are such blocks.
-/
theorem comments_closed_iff (summary notice : String) (f : ExtensionFunction) :
    IsCommentBlock (openings summary.toList + openings notice.toList)
        (Documentation.block summary notice)
      ∧ (IsCommentBlock 0 (Documentation.block summary notice)
        ↔ openings summary.toList = 0 ∧ openings notice.toList = 0)
      ∧ (IsCommentBlock 0 f.comment
        ↔ openings f.summary.toList = 0 ∧ openings f.notice.toList = 0) := by
  refine ⟨isCommentBlock_block summary notice, isCommentBlock_zero_iff summary notice, ?_⟩
  rw [f.comment_eq]
  exact isCommentBlock_zero_iff f.summary f.notice

/-- A pattern for paths leaves the comment open. -/
theorem path_pattern_unclosed :
    ¬ IsCommentBlock 0 (Documentation.block "Matches src/*.kt" "See Project.") := by
  rintro ⟨comment, htext, h⟩
  have hdepth : depth (Documentation.block "Matches src/*.kt" "See Project.").toList.dropLast = 1 := by
    decide +kernel
  have hcomment : depth comment = 1 := by
    rw [htext, List.dropLast_concat] at hdepth
    exact hdepth
  rw [h.depth_eq] at hcomment
  cases hcomment

end Comment

end DslBindings
