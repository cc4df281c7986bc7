import Mathlib.Data.List.Infix
import DslBindings.Proofs.Build.Running
import DslBindings.Proofs.Files.Leading

/-!
# Making directories

Making a directory and those above it only adds directories, and only where the path passes. So it
leaves alone whatever lies off the path, and it takes nothing away. It can fail halfway; what it has
made by then stays, so the statement is about every end.
-/

namespace DslBindings

namespace Path

theorem trimEnd_prefix_self (segments : List String) : trimEnd segments <+: segments := by
  have h := List.dropWhile_suffix (l := segments.reverse) isIdle
  simpa [trimEnd] using List.reverse_prefix.mpr h

@[simp] theorem isAbsolute_cons_cons (s t : String) (more : List String) :
    isAbsolute ⟨s :: t :: more⟩ = decide (s = "") := by
  by_cases hs : s = ""
  · subst hs
    rfl
  · simp [isAbsolute, hs]

theorem isAbsolute_iff {p : Path} : p.isAbsolute ↔ ∃ s ss, p.segments = "" :: s :: ss := by
  rw [isAbsolute.eq_def]
  split
  · next s ss => simp
  · next h => simpa using fun s ss heq => h s ss (by cases p; simpa using heq)

/-- The names of an absolute path stand behind its first slash. -/
theorem names_prefix_of_isAbsolute {p : Path} (h : p.isAbsolute) :
    ∃ rest, p.segments = "" :: rest ∧ p.names <+: rest := by
  obtain ⟨s, ss, hp⟩ := isAbsolute_iff.mp h
  refine ⟨s :: ss, hp, ?_⟩
  rw [names, hp]
  exact trimEnd_prefix_self _

theorem names_prefix_of_not_isAbsolute {p : Path} (h : ¬ p.isAbsolute) :
    p.names <+: p.segments := by
  rw [names]
  split
  · next rest hp =>
    cases rest with
    | nil => exact List.nil_prefix
    | cons s ss => exact absurd (isAbsolute_iff.mpr ⟨s, ss, hp⟩) h
  · next rest hp =>
    rw [hp]
    exact List.prefix_cons_inj _ |>.mpr (trimEnd_prefix_self rest)
  · exact trimEnd_prefix_self _

theorem head_ne_empty_of_not_isAbsolute {p : Path} (h : ¬ p.isAbsolute) {s : String}
    {ss : List String} (hnames : s :: ss <+: p.names) : s ≠ "" := by
  rintro rfl
  obtain ⟨more, hmore⟩ := hnames
  have hsegments : p.segments = "" :: p.segments.tail := by
    obtain ⟨rest, hrest⟩ := names_prefix_of_not_isAbsolute h
    rw [← hrest, ← hmore]
    rfl
  rw [names, hsegments] at hmore
  cases htail : p.segments.tail with
  | nil => simp [htail, trimEnd] at hmore
  | cons t ts => exact h (isAbsolute_iff.mpr ⟨t, ts, by rw [hsegments, htail]⟩)

theorem isAbsolute_ofNames {p : Path} {ns : List String} (h : ns <+: p.names) :
    (ofNames p.isAbsolute ns).isAbsolute = p.isAbsolute := by
  cases hp : p.isAbsolute with
  | true =>
    cases ns with
    | nil => rfl
    | cons n ns => rfl
  | false =>
    cases ns with
    | nil => rfl
    | cons n ns =>
      have hn := head_ne_empty_of_not_isAbsolute (by simp [hp]) h
      rw [Bool.eq_false_iff]
      intro habs
      obtain ⟨s, ss, hsegments⟩ := isAbsolute_iff.mp habs
      exact hn (List.cons.inj hsegments).1

/-- Names taken from the start of those of a path have no more names as a path. -/
theorem names_ofNames_prefix_names {p : Path} {ns : List String} (h : ns <+: p.names) :
    (ofNames p.isAbsolute ns).names <+: p.names := by
  have hself : (ofNames p.isAbsolute ns).names <+: ns := by
    cases hp : p.isAbsolute with
    | true =>
      cases ns with
      | nil => exact List.nil_prefix
      | cons n ns =>
        obtain ⟨rest, hrest, hnames⟩ := names_prefix_of_isAbsolute (p := ofNames true (n :: ns)) rfl
        cases hrest
        exact hnames
    | false =>
      cases ns with
      | nil => exact List.nil_prefix
      | cons n ns =>
        have habs := isAbsolute_ofNames h
        rw [hp] at habs
        exact names_prefix_of_not_isAbsolute (by simp [habs])
  exact hself.trans h

/-- What is left of a path without the slashes at its end starts as the path does. -/
theorem withoutTrailingSlashes_cases (p : Path) :
    p.withoutTrailingSlashes = p ∨
      ∃ front s more, s ≠ "" ∧ p.withoutTrailingSlashes = ⟨front ++ [s]⟩
        ∧ p.segments = front ++ [s] ++ more := by
  rw [withoutTrailingSlashes]
  have hsplit := List.takeWhile_append_dropWhile (p := (decide <| · = "")) (l := p.segments.reverse)
  cases h : p.segments.reverse.dropWhile (· = "") with
  | nil => exact .inl rfl
  | cons s rest =>
    refine .inr ⟨rest.reverse, s,
      (p.segments.reverse.takeWhile (decide <| · = "")).reverse, ?_, ?_, ?_⟩
    · have hs := List.head?_dropWhile_not (decide <| · = "") p.segments.reverse
      simpa [h] using hs
    · simp
    · rw [h] at hsplit
      have := congrArg List.reverse hsplit
      simpa using this.symm

theorem withoutTrailingSlashes_concat {s : String} (h : s ≠ "") (front : List String) :
    withoutTrailingSlashes ⟨front ++ [s]⟩ = ⟨front ++ [s]⟩ := by
  simp [withoutTrailingSlashes, h]

theorem segments_withoutTrailingSlashes_prefix_segments (p : Path) :
    p.withoutTrailingSlashes.segments <+: p.segments := by
  rcases withoutTrailingSlashes_cases p with h | ⟨front, s, more, -, h, hp⟩
  · rw [h]
  · rw [h, hp]
    exact List.prefix_append _ _

theorem isAbsolute_withoutTrailingSlashes (p : Path) :
    p.withoutTrailingSlashes.isAbsolute = p.isAbsolute := by
  rcases withoutTrailingSlashes_cases p with h | ⟨front, s, more, hs, h, hp⟩
  · rw [h]
  · obtain ⟨segments⟩ := p
    obtain rfl : segments = front ++ [s] ++ more := hp
    rw [h]
    cases front with
    | nil => simp [isAbsolute, hs]
    | cons t front => cases front <;> simp

end Path

namespace FileSystem

open DslBindings.Path

/-- A path made of the first names of another passes only what that passes. -/
theorem passes_of_ofNames {wd : Location} {p : Path} {ns : List String} (h : ns <+: p.names)
    {l : Location} (hl : Passes wd (ofNames p.isAbsolute ns) l) : Passes wd p l := by
  obtain ⟨front, hfront, hl⟩ := hl
  rw [start, isAbsolute_ofNames h] at hl
  cases hp : p.isAbsolute with
  | true =>
    rw [hp] at hfront hl
    obtain ⟨rest, hrest, hnames⟩ := names_prefix_of_isAbsolute hp
    have hroot : Passes wd p [] := ⟨[], List.nil_prefix, by simp [start, hp]⟩
    cases ns with
    | nil =>
      -- The root is all that a path without names passes.
      have : lead [] front = [] := by
        have hidle : ∀ s ∈ front, Path.isIdle s := by
          intro s hs
          have : s = "" := by simpa [ofNames] using hfront.subset hs
          rw [this]
          rfl
        clear hfront hl
        induction front with
        | nil => rfl
        | cons s front ih =>
          rw [lead_cons, step_of_isIdle (hidle s List.mem_cons_self)]
          exact ih fun t ht => hidle t (List.mem_cons_of_mem _ ht)
      rw [if_pos rfl, this] at hl
      exact hl ▸ hroot
    | cons n ns =>
      refine ⟨front, ?_, by rw [start, hp]; exact hl⟩
      rw [hrest]
      exact hfront.trans ((List.prefix_cons_inj "").mpr (h.trans hnames))
  | false =>
    rw [hp] at hfront hl
    cases ns with
    | nil =>
      refine ⟨[], List.nil_prefix, ?_⟩
      rw [start, hp, ← hl]
      rcases List.prefix_cons_iff.mp hfront with rfl | ⟨t, rfl, ht⟩
      · rfl
      · rw [List.prefix_nil.mp ht]
        rfl
    | cons n ns =>
      refine ⟨front, ?_, by rw [start, hp]; exact hl⟩
      exact hfront.trans (h.trans (names_prefix_of_not_isAbsolute (by simp [hp])))

theorem passes_of_parent {wd : Location} {p q : Path} (h : p.parent? = some q) {l : Location}
    (hl : Passes wd q l) : Passes wd p l := by
  rw [parent?] at h
  split at h
  · cases h
  · obtain rfl := Option.some.inj h
    exact passes_of_ofNames (names_ofNames_prefix_names (List.dropLast_prefix _)) hl

theorem passes_of_withoutTrailingSlashes {wd : Location} {p : Path} {l : Location}
    (hl : Passes wd p.withoutTrailingSlashes l) : Passes wd p l := by
  obtain ⟨front, hfront, hl⟩ := hl
  rw [start, isAbsolute_withoutTrailingSlashes] at hl
  exact ⟨front, hfront.trans (segments_withoutTrailingSlashes_prefix_segments p), hl⟩

/-! ### Growing -/

/-- A file system is another one with more directories, all at places of a kind. -/
structure Grows (places : Location → Prop) (fs fs' : FileSystem) : Prop where
  workingDirectory : fs'.workingDirectory = fs.workingDirectory
  at? (l : Location) :
    fs'.at? l = fs.at? l ∨ places l ∧ fs.at? l = none ∧ fs'.at? l = some .directory

namespace Grows

variable {places : Location → Prop} {fs fs' fs'' : FileSystem}

theorem refl (places : Location → Prop) (fs : FileSystem) : Grows places fs fs :=
  ⟨rfl, fun _ => .inl rfl⟩

theorem trans (h : Grows places fs fs') (h' : Grows places fs' fs'') : Grows places fs fs'' := by
  refine ⟨h'.workingDirectory.trans h.workingDirectory, fun l => ?_⟩
  rcases h'.at? l with hsame | ⟨hl, hnone, hdir⟩
  · rw [hsame]
    exact h.at? l
  · rcases h.at? l with hsame | ⟨-, -, hdir'⟩
    · exact .inr ⟨hl, hsame ▸ hnone, hdir⟩
    · rw [hdir'] at hnone
      cases hnone

theorem mono {places' : Location → Prop} (hplaces : ∀ l, places l → places' l)
    (h : Grows places fs fs') : Grows places' fs fs' :=
  ⟨h.workingDirectory, fun l => (h.at? l).imp_right fun ⟨hl, hat⟩ => ⟨hplaces l hl, hat⟩⟩

end Grows

theorem createDirectory_eq_ok {fs fs' : FileSystem} {p : Path} :
    fs.createDirectory p = .ok fs' ↔
      ∃ l, fs.locate p.withoutTrailingSlashes = .ok l ∧ fs.at? l = none
        ∧ fs' = fs.put l .directory := by
  rw [createDirectory]
  cases hl : fs.locate p.withoutTrailingSlashes with
  | error e => simp [bind, Except.bind]
  | ok l =>
    cases hat : fs.at? l with
    | none => simp [bind, Except.bind, hat, pure, Except.pure, eq_comm]
    | some entry => simp [bind, Except.bind, hat, throw, throwThe, MonadExceptOf.throw]

theorem exists_of_write {fs fs' : FileSystem} {p : Path} {content : List UInt8}
    (h : fs.write p content = .ok fs') :
    ∃ l, fs.locate p.withoutTrailingSlashes = .ok l ∧ fs' = fs.put l (.file content) := by
  rw [write] at h
  cases hl : fs.locate p.withoutTrailingSlashes with
  | error e => simp [hl, bind, Except.bind] at h
  | ok l =>
    refine ⟨l, rfl, ?_⟩
    rw [hl] at h
    simp only [bind, Except.bind] at h
    split at h
    · cases h
    · split at h
      · cases h
      · exact (Except.ok.inj h).symm

theorem grows_createDirectory {fs fs' : FileSystem} {p : Path}
    (h : fs.createDirectory p = .ok fs') : Grows (Passes fs.workingDirectory p) fs fs' := by
  obtain ⟨l, hlocate, hnone, rfl⟩ := createDirectory_eq_ok.mp h
  have hne : l ≠ [] := by
    rintro rfl
    cases hnone
  refine ⟨rfl, fun m => ?_⟩
  rw [at?_put hne]
  split
  · next hm =>
    subst hm
    exact .inr ⟨passes_of_withoutTrailingSlashes (passes_of_locate hlocate), hnone, rfl⟩
  · exact .inl rfl

end FileSystem

namespace Work

open FileSystem

theorem files_runAt_unlessDirectory (p : Path) (e : IoError) (w : Workspace) :
    ((unlessDirectory p e).runAt w).2 = w := by
  rw [unlessDirectory, runAt_files_bind]
  split <;> rfl

/-- A piece of work only adds directories to the files, at places of a kind, however it ends. -/
def OnlyGrows (places : Location → Prop) (work : Work ε α) (w : Workspace) : Prop :=
  Grows places w.files (work.runAt w).2.files ∧ (work.runAt w).2.events = w.events

theorem onlyGrows_ensureDirectory (p : Path) (w : Workspace) :
    OnlyGrows (Passes w.files.workingDirectory p) (ensureDirectory p) w := by
  rw [OnlyGrows, ensureDirectory, runAt_files_bind]
  cases h : w.files.createDirectory p with
  | ok fs => exact ⟨grows_createDirectory h, rfl⟩
  | error e =>
    rw [files_runAt_unlessDirectory]
    exact ⟨Grows.refl _ _, rfl⟩

theorem onlyGrows_createDirectories (p : Path) (w : Workspace) :
    OnlyGrows (Passes w.files.workingDirectory p) (createDirectories p) w := by
  induction hn : p.names.length using Nat.strongRecOn generalizing p w with
  | _ n ih =>
    rw [OnlyGrows, createDirectories]
    split
    · exact ⟨Grows.refl _ _, rfl⟩
    · rw [runAt_files_bind]
      split
      · next fs h => exact ⟨grows_createDirectory h, rfl⟩
      · split
        · next q hq =>
          have hlength : q.names.length < n := hn ▸ Path.length_names_parent hq
          obtain ⟨hgrows, hevents⟩ := ih _ hlength q w rfl
          have habove := hgrows.mono fun l => passes_of_parent hq
          rw [runAt_bind]
          split
          · next w' hrun =>
            rw [hrun] at habove hevents
            obtain ⟨hgrows', hevents'⟩ := onlyGrows_ensureDirectory p w'
            rw [habove.workingDirectory] at hgrows'
            exact ⟨habove.trans hgrows', hevents'.trans hevents⟩
          · next w' hrun =>
            rw [hrun] at habove hevents
            exact ⟨habove, hevents⟩
        · exact ⟨Grows.refl _ _, rfl⟩
      · rw [files_runAt_unlessDirectory]
        exact ⟨Grows.refl _ _, rfl⟩

end Work

end DslBindings
