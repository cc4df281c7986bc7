import Mathlib.Data.List.Basic
import DslBindings.ClassPath.Scope

/-!
# Scopes by segments

A scope compares the characters of dotted names, but what it means is a comparison of their segments: a
start covers a name if its segments are the first ones of the name. The one fact behind this is that a
text goes on with a dot, or ends, behind another one just if the segments of the other are its first ones.
So a start has no say about a name in which it ends inside a segment.
-/

namespace DslBindings.Scope

/-- The segments of a dotted name. -/
def segments (name : List Char) : List (List Char) := name.splitOn '.'

/-- The name of a class file whose path is `stem` and whose class has the simple name `simple`, if a scope
covers it. -/
structure IsInScope (s : Scope) (entryName : String) (stem simple : List Char) : Prop where
  name_eq : entryName.toList = stem ++ ".class".toList
  not_metadata : ¬ "META-INF/".toList <+: stem
  simple_eq : (stem.splitOn '/').getLast? = some simple
  not_package : simple ≠ "package-info".toList
  not_module : simple ≠ "module-info".toList
  /-- No part behind a `$` starts with a digit, as it does in the names that the compiler gives. -/
  not_numbered : ∀ part ∈ (simple.splitOn '$').tail, ∀ c ∈ part.head?, ¬ ('0' ≤ c ∧ c ≤ '9')
  included : s.included = [] ∨
    ∃ start ∈ s.included, segments start.toList <+: segments (dotted stem)
  not_excluded : ∀ start ∈ s.excluded, ¬ segments start.toList <+: segments (dotted stem)

variable {s : Scope} {entryName : String} {stem name start : List Char}

/-! ### Segments -/

theorem intercalate_append {α : Type} {separator : List α} {pieces more : List (List α)}
    (hpieces : pieces ≠ []) (hmore : more ≠ []) :
    separator.intercalate (pieces ++ more)
      = separator.intercalate pieces ++ separator ++ separator.intercalate more := by
  induction pieces with
  | nil => exact absurd rfl hpieces
  | cons piece pieces ih =>
    cases pieces with
    | nil => rw [List.singleton_append, List.intercalate_cons_of_ne_nil hmore, List.intercalate_singleton]
    | cons next pieces =>
      rw [List.cons_append, List.cons_append, List.intercalate_cons_cons, List.intercalate_cons_cons,
        ← List.cons_append, ih (List.cons_ne_nil next pieces)]
      simp only [List.append_assoc]

theorem segments_inj (h : segments start = segments name) : start = name := by
  have hjoined := congrArg (['.'].intercalate) h
  rwa [segments, segments, List.intercalate_splitOn, List.intercalate_splitOn] at hjoined

theorem segments_prefix_iff :
    segments start <+: segments name ↔ name = start ∨ ∃ rest, name = start ++ '.' :: rest := by
  -- From left to right the segments are joined again, which gives the names themselves.
  constructor
  · rintro ⟨more, hmore⟩
    cases more with
    | nil =>
      rw [List.append_nil] at hmore
      exact .inl (segments_inj hmore).symm
    | cons piece more =>
      have hjoined := congrArg (['.'].intercalate) hmore
      rw [segments, segments, intercalate_append (List.splitOn_ne_nil '.' start)
        (List.cons_ne_nil piece more), List.intercalate_splitOn, List.intercalate_splitOn,
        List.append_assoc] at hjoined
      exact .inr ⟨_, hjoined.symm⟩
  · rintro (rfl | ⟨rest, rfl⟩)
    · exact List.prefix_refl _
    · rw [segments, segments, List.splitOn_append_cons_self]
      exact List.prefix_append _ _

theorem isUnder_iff : isUnder name start = true ↔ segments start <+: segments name := by
  rw [segments_prefix_iff, isUnder]
  constructor
  · intro h
    split at h
    · next hafter =>
      rw [Text.afterPrefix?_eq_some_iff, List.append_nil] at hafter
      exact .inl hafter
    · next rest hafter => exact .inr ⟨rest, Text.afterPrefix?_eq_some_iff.mp hafter⟩
    · cases h
  · rintro (rfl | ⟨rest, rfl⟩)
    · rw [Text.afterPrefix?_eq_some_iff.mpr (List.append_nil name).symm]
    · rw [Text.afterPrefix?_append]
      rfl

/-- A start that ends inside a segment of a name. -/
theorem isUnder_of_splits {c : Char} {rest : List Char} (hc : c ≠ '.')
    (hname : name = start ++ c :: rest) : isUnder name start = false := by
  rw [Bool.eq_false_iff]
  intro h
  rw [isUnder_iff, segments_prefix_iff, hname] at h
  obtain h | ⟨more, hmore⟩ := h
  · exact List.cons_ne_nil c rest (List.append_right_eq_self.mp h)
  · exact hc (List.cons.inj (List.append_cancel_left hmore)).1

example : isUnder "org.gradle.apiary".toList "org.gradle.api".toList = false := by decide

/-! ### The parts of the test -/

theorem covers_iff : s.covers name = true ↔
    (s.included = [] ∨ ∃ start ∈ s.included, segments start.toList <+: segments name)
      ∧ ∀ start ∈ s.excluded, ¬ segments start.toList <+: segments name := by
  simp only [covers, Bool.and_eq_true, Bool.or_eq_true, List.isEmpty_iff, List.any_eq_true, isUnder_iff,
    Bool.not_eq_true', List.any_eq_false]

theorem startsWithDigit_iff {part : List Char} :
    startsWithDigit part = true ↔ ∃ c ∈ part.head?, '0' ≤ c ∧ c ≤ '9' := by
  cases part with
  | nil => simp [startsWithDigit]
  | cons c part => simp [startsWithDigit, Char.isDigit, Char.le_def]

theorem isNameable_iff {simple : List Char} : isNameable simple = true ↔
    simple ≠ "package-info".toList ∧ simple ≠ "module-info".toList
      ∧ ∀ part ∈ (simple.splitOn '$').tail, ∀ c ∈ part.head?, ¬ ('0' ≤ c ∧ c ≤ '9') := by
  simp only [isNameable, Bool.and_eq_true, decide_eq_true_eq, Bool.not_eq_true', List.any_eq_false,
    startsWithDigit_iff, List.drop_one, and_assoc, not_exists, not_and]

theorem getLast?_splitOn_iff {separator : Char} {text piece : List Char} :
    (text.splitOn separator).getLast? = some piece ↔ Text.lastPiece separator text = piece := by
  rw [Text.lastPiece, List.getLastD_eq_getLast?,
    List.getLast?_eq_some_getLast (List.splitOn_ne_nil separator text), Option.getD_some,
    Option.some.injEq]

theorem accepts_of_name (hname : entryName.toList = stem ++ ".class".toList) :
    s.accepts entryName
      = (isNameable (Text.lastPiece '/' stem) && !"META-INF/".toList.isPrefixOf stem
        && s.covers (dotted stem)) := by
  rw [accepts, Text.beforeSuffix?_eq_some_iff.mpr hname]

theorem exists_stem_of_accepts (h : s.accepts entryName = true) :
    ∃ stem, entryName.toList = stem ++ ".class".toList := by
  rw [accepts] at h
  split at h
  · cases h
  · next stem hstem => exact ⟨stem, Text.beforeSuffix?_eq_some_iff.mp hstem⟩

theorem accepts_iff_isInScope (hname : entryName.toList = stem ++ ".class".toList) :
    s.accepts entryName = true ↔ s.IsInScope entryName stem (Text.lastPiece '/' stem) := by
  rw [accepts_of_name hname, Bool.and_eq_true, Bool.and_eq_true, isNameable_iff, covers_iff,
    Bool.not_eq_true', ← Bool.not_eq_true, List.isPrefixOf_iff_prefix]
  constructor
  · rintro ⟨⟨⟨hpackage, hmodule, hnumbered⟩, hmetadata⟩, hincluded, hexcluded⟩
    exact ⟨hname, hmetadata, getLast?_splitOn_iff.mpr rfl, hpackage, hmodule, hnumbered, hincluded,
      hexcluded⟩
  · intro h
    exact ⟨⟨⟨h.not_package, h.not_module, h.not_numbered⟩, h.not_metadata⟩, h.included, h.not_excluded⟩

/-! ### Other starts -/

theorem covers_of_subset {excluded : List String} (hsubset : s.excluded ⊆ excluded)
    (h : { s with excluded }.covers name = true) : s.covers name = true := by
  rw [covers_iff] at h ⊢
  exact ⟨h.1, fun start hstart => h.2 start (hsubset hstart)⟩

theorem covers_cons_excluded {start : String} (h : isUnder name start.toList = false) :
    { s with excluded := start :: s.excluded }.covers name = s.covers name := by
  rw [covers, covers, List.any_cons, h, Bool.false_or]

theorem covers_cons_included {start : String} (h : isUnder name start.toList = false) :
    { s with included := start :: s.included }.covers name
      = (s.covers name && !s.included.isEmpty) := by
  rw [covers, covers, List.any_cons, h, Bool.false_or]
  cases s.included with
  | nil => simp
  | cons other included => simp

/--
A scope accepts the names of class files that sources can name, outside the metadata of an archive, for
which the segments of a start to include, if there are any, and of no start to exclude are the first ones.
So excluding more never brings a name into scope. A start that ends inside a segment of the name has no say:
excluding it changes nothing, and including it neither, where something is included already.
-/
theorem accepts_iff_segments (s : Scope) (entryName : String) :
    (s.accepts entryName = true ↔ ∃ stem simple, s.IsInScope entryName stem simple)
      ∧ (∀ excluded, s.excluded ⊆ excluded →
        { s with excluded }.accepts entryName = true → s.accepts entryName = true)
      ∧ ∀ stem (start : String) (c : Char) rest, entryName.toList = stem ++ ".class".toList →
        dotted stem = start.toList ++ c :: rest → c ≠ '.' →
          { s with excluded := start :: s.excluded }.accepts entryName = s.accepts entryName
            ∧ { s with included := start :: s.included }.accepts entryName
              = (s.accepts entryName && !s.included.isEmpty) := by
  refine ⟨⟨?_, ?_⟩, ?_, ?_⟩
  · intro h
    obtain ⟨stem, hname⟩ := exists_stem_of_accepts h
    exact ⟨stem, _, (accepts_iff_isInScope hname).mp h⟩
  · rintro ⟨stem, simple, h⟩
    have hsimple := getLast?_splitOn_iff.mp h.simple_eq
    rw [accepts_iff_isInScope h.name_eq, hsimple]
    exact h
  · intro excluded hsubset h
    obtain ⟨stem, hname⟩ := exists_stem_of_accepts h
    rw [accepts_of_name hname, Bool.and_eq_true] at h ⊢
    exact ⟨h.1, covers_of_subset hsubset h.2⟩
  · intro stem start c rest hname hdotted hc
    have hunder := isUnder_of_splits hc hdotted
    constructor
    · rw [accepts_of_name hname, accepts_of_name hname, covers_cons_excluded hunder]
    · rw [accepts_of_name hname, accepts_of_name hname, covers_cons_included hunder, ← Bool.and_assoc]

end DslBindings.Scope
