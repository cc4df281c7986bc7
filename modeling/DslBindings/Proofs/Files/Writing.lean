import Mathlib.Data.List.Infix
import DslBindings.Proofs.Files.Joining

/-!
# Reading what was written

A file that could be written holds what was written, under the path that it was written with. The path
cannot end with a slash or a dot then, so it is located as a whole, and what is written is no directory
on the way to itself.
-/

namespace DslBindings

namespace Path

theorem withoutTrailingSlashes_of_endsIdle {p : Path} (h : FileSystem.endsIdle p = false) :
    p.withoutTrailingSlashes = p := by
  obtain ⟨segments⟩ := p
  cases hlast : segments.getLast? with
  | none =>
    rw [List.getLast?_eq_none_iff.mp hlast]
    rfl
  | some s =>
    obtain ⟨front, rfl⟩ := List.getLast?_eq_some_iff.mp hlast
    have hs : isIdle s = false := by
      rw [FileSystem.endsIdle, hlast] at h
      exact h
    apply withoutTrailingSlashes_concat
    rintro rfl
    cases hs

end Path

namespace FileSystem

variable {fs fs' : FileSystem} {p : Path} {l : Location} {content : List UInt8}

theorem find_of_locate (h : fs.locate p = .ok l) :
    fs.find p = match fs.at? l with
      | some entry => .ok entry
      | none => .error .notFound := by
  rw [find, visit, h]
  simp only [bind, Except.bind]
  cases fs.at? l <;> rfl

theorem find_of_locate_error {e : IoError} (h : fs.locate p = .error e) : fs.find p = .error e := by
  rw [find, visit, h]
  rfl

theorem read_of_locate (hlocate : fs.locate p = .ok l) (hat : fs.at? l = some (.file content)) :
    fs.read p = .ok content := by
  rw [read, find_of_locate hlocate, hat]
  rfl

/-! ### What a reading depends on -/

theorem follow_congr {here : Location} {ss : List String}
    (h : ∀ front, front <+: ss → fs'.at? (lead here front) = fs.at? (lead here front)) :
    fs'.follow here ss = fs.follow here ss := by
  induction ss generalizing here with
  | nil => rfl
  | cons s ss ih =>
    have hhere : fs'.at? here = fs.at? here := h [] List.nil_prefix
    have htail : fs'.follow (step here s) ss = fs.follow (step here s) ss :=
      ih fun front hfront => h (s :: front) ((List.prefix_cons_inj s).mpr hfront)
    rw [follow, follow, hhere, htail]

/-- What a path leads to depends on what is at the places that it passes, and on nothing else. -/
theorem find_congr (hwd : fs'.workingDirectory = fs.workingDirectory)
    (h : ∀ l, Passes fs.workingDirectory p l → fs'.at? l = fs.at? l) : fs'.find p = fs.find p := by
  have hlocate : fs'.locate p = fs.locate p := by
    have hfollow : fs'.follow (start fs.workingDirectory p) p.segments
        = fs.follow (start fs.workingDirectory p) p.segments :=
      follow_congr fun front hfront => h _ ⟨front, hfront, rfl⟩
    rw [start] at hfollow
    rw [locate, locate, hwd, hfollow]
  cases hl : fs.locate p with
  | error e => rw [find_of_locate_error hl, find_of_locate_error (hlocate.trans hl)]
  | ok l => rw [find_of_locate hl, find_of_locate (hlocate.trans hl), h l (passes_of_locate hl)]

theorem read_congr (h : fs'.find p = fs.find p) : fs'.read p = fs.read p := by
  rw [read, read, h]

theorem isFile_congr (h : fs'.find p = fs.find p) : fs'.isFile p = fs.isFile p := by
  rw [isFile, isFile, h]

/-- All that a path passes is there if what it leads to is. -/
theorem at?_ne_none_of_find {entry : FileEntry} (h : fs.find p = .ok entry)
    (hl : Passes fs.workingDirectory p l) : fs.at? l ≠ none := by
  cases hlocate : fs.locate p with
  | error e =>
    rw [find_of_locate_error hlocate] at h
    cases h
  | ok m =>
    rcases isDirectory_or_eq_of_passes hlocate hl with hdir | rfl
    · rw [hdir]
      exact Option.some_ne_none _
    · intro hnone
      rw [find_of_locate hlocate, hnone] at h
      cases h

/-! ### Writing -/

theorem write_eq_ok :
    fs.write p content = .ok fs' ↔
      ∃ l, fs.locate p = .ok l ∧ endsIdle p = false ∧ fs.at? l ≠ some .directory
        ∧ fs' = fs.put l (.file content) := by
  cases hidle : endsIdle p with
  | true =>
    rw [write, hidle]
    cases fs.locate p.withoutTrailingSlashes <;>
      simp [bind, Except.bind, throw, throwThe, MonadExceptOf.throw]
  | false =>
    rw [write, hidle, Path.withoutTrailingSlashes_of_endsIdle hidle]
    cases fs.locate p with
    | error e => simp [bind, Except.bind]
    | ok l =>
      simp only [bind, Except.bind, Bool.false_eq_true, if_false, pure, Except.pure, Except.ok.injEq,
        exists_eq_left', true_and]
      cases hat : fs.at? l with
      | none => simp [eq_comm]
      | some entry =>
        cases entry with
        | directory => simp [throw, throwThe, MonadExceptOf.throw]
        | file old => simp [eq_comm]

theorem locate_put_of_locate {entry : FileEntry} {q : Path} {m : Location}
    (hl : fs.at? l ≠ some .directory) (hlocate : fs.locate q = .ok m) :
    (fs.put l entry).locate q = .ok m := by
  have hne : l ≠ [] := by
    rintro rfl
    exact hl rfl
  refine locate_mono (workingDirectory_put l entry) (fun n _ hn => ?_) hlocate
  rw [at?_put hne, if_neg, hn]
  rintro rfl
  exact hl hn

theorem read_of_write (h : fs.write p content = .ok fs') : fs'.read p = .ok content := by
  obtain ⟨l, hlocate, -, hat, rfl⟩ := write_eq_ok.mp h
  have hne : l ≠ [] := by
    rintro rfl
    exact hat rfl
  refine read_of_locate (locate_put_of_locate hat hlocate) ?_
  rw [at?_put hne, if_pos rfl]

end FileSystem

end DslBindings
