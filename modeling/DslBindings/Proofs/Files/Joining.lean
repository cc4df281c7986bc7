import Mathlib.Data.List.Infix
import DslBindings.Proofs.Files.Growth

/-!
# Paths of what is in a directory

A name that is joined to the path of a directory leads to one place below where the directory is, and
passes nothing on the way that the directory does not. What is said of paths of two names in the same
directory is how to get from one to the other: where the first is located, so is the second, unless it
is too long.
-/

namespace DslBindings

theorem isProperName_of_length {name : String} (h : 2 < name.length) : IsProperName name := by
  rw [IsProperName, Path.isIdle]
  refine ⟨?_, ?_⟩
  · intro hidle
    simp only [Bool.or_eq_true, decide_eq_true_eq] at hidle
    rcases hidle with rfl | rfl <;> exact absurd h (by decide)
  · rintro rfl
    exact absurd h (by decide)

theorem IsProperName.ne_empty {name : String} (h : IsProperName name) : name ≠ "" := by
  rintro rfl
  exact h.1 rfl

namespace Path

theorem ofText_of_not_mem {name : String} (h : '/' ∉ name.toList) : ofText name = ⟨[name]⟩ := by
  rw [ofText, List.splitOn_eq_singleton h]
  simp

theorem joinText_eq {name : String} (h : '/' ∉ name.toList) (base : Path) :
    base.joinText name = ⟨base.stem ++ [name]⟩ := by
  rw [joinText, ofText_of_not_mem h, join]
  obtain ⟨segments⟩ := base
  match segments with
  | [] => simp [isAbsolute, isEmpty, stem]
  | [s] =>
    by_cases hs : s = ""
    · subst hs
      simp [isAbsolute, isEmpty, stem]
    · simp [isAbsolute, isEmpty, hs]
  | s :: t :: more => simp [isAbsolute, isEmpty]

theorem segments_eq_stem_append (p : Path) :
    p.segments = p.stem ∨ p.segments = p.stem ++ [""] := by
  rw [stem]
  split
  · next h =>
    right
    obtain ⟨front, hfront⟩ := List.getLast?_eq_some_iff.mp h
    rw [hfront, List.dropLast_concat]
  · exact .inl rfl

theorem stem_prefix_segments (p : Path) : p.stem <+: p.segments := by
  rcases segments_eq_stem_append p with h | h
  · rw [h]
  · rw [h]
    exact List.prefix_append _ _

theorem isAbsolute_stem_append {name : String} (h : name ≠ "") (p : Path) :
    isAbsolute ⟨p.stem ++ [name]⟩ = p.isAbsolute := by
  obtain ⟨segments⟩ := p
  match segments with
  | [] => simp [stem, isAbsolute]
  | [s] =>
    by_cases hs : s = ""
    · subst hs
      simp [stem, isAbsolute]
    · simp [stem, isAbsolute, hs]
  | [s, t] =>
    by_cases ht : t = ""
    · subst ht
      simp [stem]
    · simp [stem, ht]
  | s :: t :: u :: more =>
    rw [stem]
    split <;> simp

theorem stem_of_getLast {p : Path} (h : p.segments.getLast? ≠ some "") : p.stem = p.segments :=
  if_neg h

theorem stem_append {front segments : List String} (h : segments ≠ []) :
    stem ⟨front ++ segments⟩ = front ++ stem ⟨segments⟩ := by
  rw [stem, stem]
  simp only [List.getLast?_append_of_ne_nil front h]
  split
  · rw [List.dropLast_append_of_ne_nil h]
  · rfl

/-- With a shorter last name, and fewer names above, a text is no longer. -/
theorem utf8ByteSize_text_le {a b : String} (h : a.utf8ByteSize ≤ b.utf8ByteSize)
    (front stem : List String) :
    (text ⟨stem ++ [a]⟩).utf8ByteSize ≤ (text ⟨front ++ stem ++ [b]⟩).utf8ByteSize := by
  have hlast : (text ⟨stem ++ [a]⟩).utf8ByteSize ≤ (text ⟨stem ++ [b]⟩).utf8ByteSize := by
    rw [text, text]
    by_cases hstem : stem = []
    · subst hstem
      simpa using h
    · rw [String.intercalate_append_of_ne_nil hstem (List.cons_ne_nil a []),
        String.intercalate_append_of_ne_nil hstem (List.cons_ne_nil b []),
        String.utf8ByteSize_append, String.utf8ByteSize_append]
      simpa using h
  have hfront : (text ⟨stem ++ [b]⟩).utf8ByteSize ≤ (text ⟨front ++ (stem ++ [b])⟩).utf8ByteSize := by
    rw [text, text]
    by_cases hfront : front = []
    · subst hfront
      exact Nat.le_refl _
    · have hne : stem ++ [b] ≠ [] := List.append_ne_nil_of_right_ne_nil stem (List.cons_ne_nil b [])
      rw [String.intercalate_append_of_ne_nil hfront hne, String.utf8ByteSize_append]
      exact Nat.le_add_left _ _
  rw [List.append_assoc]
  exact Nat.le_trans hlast hfront

end Path

namespace FileSystem

open DslBindings.Path

variable {fs : FileSystem} {wd : Location}

theorem lead_stem (here : Location) (p : Path) : lead here p.stem = lead here p.segments := by
  rcases segments_eq_stem_append p with h | h
  · rw [h]
  · rw [h, lead_append]
    rfl

theorem start_stem_append {name : String} (h : name ≠ "") (wd : Location) (p : Path) :
    start wd ⟨p.stem ++ [name]⟩ = start wd p := by
  rw [start, start, isAbsolute_stem_append h]

/-- Where a path leads, whatever is there. -/
def destination (wd : Location) (p : Path) : Location := lead (start wd p) p.segments

theorem eq_destination_of_locate {p : Path} {l : Location} (h : fs.locate p = .ok l) :
    l = destination fs.workingDirectory p :=
  eq_lead_of_follow (locate_eq_ok.mp h).2.2.2

theorem destination_stem_append {name : String} (h : IsProperName name) (wd : Location) (p : Path) :
    destination wd ⟨p.stem ++ [name]⟩ = destination wd p ++ [name] := by
  rw [destination, start_stem_append h.ne_empty, lead_append, lead_stem, lead_cons,
    step_of_isProperName h, lead_nil, destination]

theorem passes_stem_append {name : String} (h : IsProperName name) {p : Path} {l : Location}
    (hl : Passes wd ⟨p.stem ++ [name]⟩ l) : l = destination wd p ++ [name] ∨ Passes wd p l := by
  obtain ⟨front, hfront, hl⟩ := hl
  rw [start_stem_append h.ne_empty] at hl
  rcases List.prefix_concat_iff.mp hfront with rfl | hfront
  · left
    rw [← hl, lead_append, lead_stem, lead_cons, step_of_isProperName h, lead_nil, destination]
  · exact .inr ⟨front, hfront.trans (stem_prefix_segments p), hl⟩

/-- A path that nowhere leads below where it ends. -/
def IsReachedFromOutside (wd : Location) (p : Path) : Prop :=
  ∀ l, Passes wd p l → ¬ IsBelow (destination wd p) l

theorem prefix_step {s : String} (h : s ≠ "..") (here : Location) : here <+: step here s := by
  rw [step, if_neg h]
  split
  · exact List.prefix_refl _
  · exact List.prefix_append _ _

theorem prefix_lead {ss : List String} (h : ∀ s ∈ ss, s ≠ "..") (here : Location) :
    here <+: lead here ss := by
  induction ss generalizing here with
  | nil => exact List.prefix_refl _
  | cons s ss ih =>
    have hstep : here <+: step here s := prefix_step (h s List.mem_cons_self) here
    exact hstep.trans (ih (fun t ht => h t (List.mem_cons_of_mem _ ht)) _)

theorem not_isBelow_of_prefix {here l : Location} (h : l <+: here) : ¬ IsBelow here l := by
  rintro ⟨name, rest, rfl⟩
  have hlength := h.length_le
  rw [List.length_append, List.length_cons] at hlength
  omega

/-- Every path is such that does not go up. -/
theorem isReachedFromOutside_of_forall_ne {p : Path} (h : ∀ s ∈ p.segments, s ≠ "..")
    (wd : Location) : IsReachedFromOutside wd p := by
  rintro l ⟨front, ⟨rest, hrest⟩, rfl⟩
  apply not_isBelow_of_prefix
  rw [destination, ← hrest, lead_append]
  apply prefix_lead
  intro s hs
  exact h s (hrest ▸ List.mem_append_right front hs)

/-- Where all that is below a directory is nothing, its path does not pass there. -/
theorem isReachedFromOutside_of_isDirectory {p : Path} (h : fs.isDirectory p = true)
    (hempty : ∀ l, IsBelow (destination fs.workingDirectory p) l → fs.at? l = none) :
    IsReachedFromOutside fs.workingDirectory p := by
  obtain ⟨here, hlocate, hhere⟩ := isDirectory_eq_true.mp h
  intro l hpasses hbelow
  have hnone := hempty l hbelow
  rcases isDirectory_or_eq_of_passes hlocate hpasses with hl | rfl
  · rw [hnone] at hl
    cases hl
  · rw [hnone] at hhere
    cases hhere

/-! ### Paths as seen from the root -/

theorem absolute_of_isAbsolute {p : Path} (hp : p.isAbsolute) : fs.absolute p = p := by
  simp [absolute, join, hp]

theorem absolute_of_not_isAbsolute (hwd : ∀ name ∈ fs.workingDirectory, IsProperName name) {p : Path}
    (hp : ¬ p.isAbsolute) : fs.absolute p = ⟨"" :: fs.workingDirectory ++ p.segments⟩ := by
  have hbase : (ofNames true fs.workingDirectory).isEmpty = false := by
    cases fs.workingDirectory <;> simp [ofNames, isEmpty]
  have hstem : (ofNames true fs.workingDirectory).stem = "" :: fs.workingDirectory := by
    cases hnames : fs.workingDirectory with
    | nil => rfl
    | cons n ns =>
      rw [stem_of_getLast]
      · rfl
      · intro hlast
        have hmem : "" ∈ fs.workingDirectory := by
          rw [hnames]
          exact List.mem_of_getLast? (by simpa [ofNames] using hlast)
        exact (hwd "" hmem).ne_empty rfl
  rw [absolute, join, hbase, hstem]
  simp [hp]

theorem start_absolute (hwd : ∀ name ∈ fs.workingDirectory, IsProperName name) {p : Path}
    (hp : ¬ p.isAbsolute) : start fs.workingDirectory (fs.absolute p) = [] := by
  rw [absolute_of_not_isAbsolute hwd hp, start]
  cases fs.workingDirectory <;> simp

/-- A path as seen from the root first leads to where the path starts. -/
theorem segments_absolute (hwd : ∀ name ∈ fs.workingDirectory, IsProperName name) (p : Path) :
    ∃ front, (fs.absolute p).segments = front ++ p.segments
      ∧ lead (start fs.workingDirectory (fs.absolute p)) front = start fs.workingDirectory p
      ∧ ∀ f, f <+: front →
        lead (start fs.workingDirectory (fs.absolute p)) f <+: start fs.workingDirectory p := by
  by_cases hp : p.isAbsolute
  · rw [absolute_of_isAbsolute hp]
    refine ⟨[], rfl, rfl, ?_⟩
    intro f hf
    rw [List.prefix_nil.mp hf]
    exact List.prefix_refl _
  · have hidle (f : List String) : lead [] ("" :: f) = lead [] f := by
      rw [lead_cons, step_of_isIdle rfl]
    refine ⟨"" :: fs.workingDirectory, by rw [absolute_of_not_isAbsolute hwd hp], ?_, ?_⟩
    · rw [start_absolute hwd hp, hidle, lead_of_isProperName hwd, start, if_neg hp, List.nil_append]
    · intro f hf
      rw [start_absolute hwd hp, start, if_neg hp]
      rcases List.prefix_cons_iff.mp hf with rfl | ⟨t, rfl, ht⟩
      · exact List.nil_prefix
      · rw [hidle, lead_of_isProperName fun n hn => hwd n (ht.subset hn)]
        exact ht

theorem stem_absolute (hwd : ∀ name ∈ fs.workingDirectory, IsProperName name) (p : Path) :
    ∃ front, (fs.absolute p).stem = front ++ p.stem
      ∧ lead (start fs.workingDirectory (fs.absolute p)) front = start fs.workingDirectory p := by
  obtain ⟨front, hsegments, hlead, -⟩ := segments_absolute hwd p
  by_cases hp : p.segments = []
  · refine ⟨(fs.absolute p).stem, ?_, ?_⟩
    · simp [stem, hp]
    · rw [lead_stem, hsegments, hp, List.append_nil]
      exact hlead
  · refine ⟨front, ?_, hlead⟩
    have hpath : fs.absolute p = ⟨front ++ p.segments⟩ := by rw [← hsegments]
    rw [hpath, stem_append hp]

theorem destination_absolute (hwd : ∀ name ∈ fs.workingDirectory, IsProperName name) (p : Path) :
    destination fs.workingDirectory (fs.absolute p) = destination fs.workingDirectory p := by
  obtain ⟨front, hsegments, hlead, -⟩ := segments_absolute hwd p
  rw [destination, hsegments, lead_append, hlead, destination]

theorem passes_absolute (hwd : ∀ name ∈ fs.workingDirectory, IsProperName name) {p : Path}
    {l : Location} (hl : Passes fs.workingDirectory (fs.absolute p) l) :
    l <+: start fs.workingDirectory p ∨ Passes fs.workingDirectory p l := by
  obtain ⟨front, hsegments, hlead, hfronts⟩ := segments_absolute hwd p
  obtain ⟨f, hf, rfl⟩ := hl
  rw [hsegments] at hf
  rcases List.prefix_or_prefix_of_prefix hf (List.prefix_append front _) with hfront | ⟨f', rfl⟩
  · exact .inl (hfronts f hfront)
  · right
    refine ⟨f', (List.prefix_append_right_inj front).mp hf, ?_⟩
    rw [lead_append, hlead]

end FileSystem

end DslBindings
