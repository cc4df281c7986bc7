import Mathlib.Data.List.Infix
import DslBindings.Proofs.Files.Entries

/-!
# Where paths lead

`lead` is where segments lead from a location, whatever is there. A path that is located leads there,
through directories, and `locate_mono` says that nothing else counts: as long as these directories are
there, the path leads where it did. `Passes` names the places on the way.
-/

namespace DslBindings

/-- A name that a file or directory can have. -/
def IsProperName (name : String) : Prop := ¬ Path.isIdle name ∧ name ≠ ".."

instance (name : String) : Decidable (IsProperName name) := instDecidableAnd

namespace FileSystem

variable {fs fs' : FileSystem}

/-- Where segments lead from a location, whatever is there. -/
def lead (here : Location) (segments : List String) : Location := segments.foldl step here

@[simp] theorem lead_nil (here : Location) : lead here [] = here := rfl

@[simp] theorem lead_cons (here : Location) (s : String) (ss : List String) :
    lead here (s :: ss) = lead (step here s) ss := rfl

theorem lead_append (here : Location) (a b : List String) :
    lead here (a ++ b) = lead (lead here a) b := List.foldl_append

theorem step_of_isIdle {s : String} (h : Path.isIdle s) (here : Location) : step here s = here :=
  if_pos h

theorem step_of_isProperName {name : String} (h : IsProperName name) (here : Location) :
    step here name = here ++ [name] := by
  rw [step, if_neg h.1, if_neg h.2]

theorem lead_of_isProperName {names : List String} (h : ∀ name ∈ names, IsProperName name)
    (here : Location) : lead here names = here ++ names := by
  induction names generalizing here with
  | nil => simp
  | cons name names ih =>
    rw [lead_cons, step_of_isProperName (h name List.mem_cons_self),
      ih fun n hn => h n (List.mem_cons_of_mem _ hn)]
    simp

/-! ### Following segments -/

theorem follow_cons_eq_ok {here l : Location} {s : String} {ss : List String} :
    fs.follow here (s :: ss) = .ok l ↔
      fs.at? here = some .directory ∧ s.utf8ByteSize ≤ nameLimit
        ∧ fs.follow (step here s) ss = .ok l := by
  rw [follow]
  split
  · next hhere => simp [hhere]
  · next hhere => simp [hhere]
  · next hhere =>
    by_cases hs : nameLimit < s.utf8ByteSize
    · simp [hhere, hs, Nat.not_le_of_lt hs]
    · simp [hhere, hs, Nat.le_of_not_lt hs]

theorem eq_lead_of_follow {here l : Location} {ss : List String} (h : fs.follow here ss = .ok l) :
    l = lead here ss := by
  induction ss generalizing here with
  | nil => exact (Except.ok.inj h).symm
  | cons s ss ih => exact ih (follow_cons_eq_ok.mp h).2.2

theorem follow_append_eq_ok {here l : Location} {a b : List String} :
    fs.follow here (a ++ b) = .ok l ↔
      fs.follow here a = .ok (lead here a) ∧ fs.follow (lead here a) b = .ok l := by
  induction a generalizing here with
  | nil => simp [follow]
  | cons s a ih =>
    rw [List.cons_append, follow_cons_eq_ok, follow_cons_eq_ok, ih, lead_cons]
    tauto

theorem follow_singleton_eq_ok {here l : Location} {s : String} :
    fs.follow here [s] = .ok l ↔
      fs.at? here = some .directory ∧ s.utf8ByteSize ≤ nameLimit ∧ step here s = l := by
  rw [follow_cons_eq_ok, follow, Except.ok.injEq]

/-- A way stays open as long as its directories are there. -/
theorem follow_mono {here l : Location} {ss : List String}
    (h : ∀ front, front <+: ss → fs.at? (lead here front) = some .directory →
      fs'.at? (lead here front) = some .directory)
    (hfollow : fs.follow here ss = .ok l) : fs'.follow here ss = .ok l := by
  induction ss generalizing here with
  | nil => exact hfollow
  | cons s ss ih =>
    obtain ⟨hhere, hs, htail⟩ := follow_cons_eq_ok.mp hfollow
    have hhere' : fs'.at? here = some .directory := h [] List.nil_prefix hhere
    have htail' : fs'.follow (step here s) ss = .ok l :=
      ih (fun front hfront => h (s :: front) (List.prefix_cons_inj s |>.mpr hfront)) htail
    exact follow_cons_eq_ok.mpr ⟨hhere', hs, htail'⟩

/-! ### Locating paths -/

/-- Where a path starts. -/
def start (wd : Location) (p : Path) : Location := if p.isAbsolute then [] else wd

theorem locate_eq_ok {p : Path} {l : Location} :
    fs.locate p = .ok l ↔
      p.holdsNul = false ∧ p.isEmpty = false ∧ p.text.utf8ByteSize ≤ pathLimit
        ∧ fs.follow (start fs.workingDirectory p) p.segments = .ok l := by
  rw [locate]
  by_cases hnul : p.holdsNul
  · simp [hnul]
  · by_cases hempty : p.isEmpty
    · simp [hnul, hempty]
    · by_cases hlong : pathLimit < p.text.utf8ByteSize
      · simp [hnul, hempty, hlong, Nat.not_le_of_lt hlong]
      · simp [hnul, hempty, hlong, Nat.le_of_not_lt hlong, start]

/-- The places that a path passes: where its initial segments lead. -/
def Passes (wd : Location) (p : Path) (l : Location) : Prop :=
  ∃ front, front <+: p.segments ∧ lead (start wd p) front = l

theorem locate_mono {p : Path} {l : Location} (hwd : fs'.workingDirectory = fs.workingDirectory)
    (h : ∀ m, Passes fs.workingDirectory p m → fs.at? m = some .directory →
      fs'.at? m = some .directory)
    (hlocate : fs.locate p = .ok l) : fs'.locate p = .ok l := by
  obtain ⟨hnul, hempty, hlong, hfollow⟩ := locate_eq_ok.mp hlocate
  refine locate_eq_ok.mpr ⟨hnul, hempty, hlong, ?_⟩
  rw [hwd]
  exact follow_mono (fun front hfront => h _ ⟨front, hfront, rfl⟩) hfollow

theorem passes_of_locate {p : Path} {l : Location} (h : fs.locate p = .ok l) :
    Passes fs.workingDirectory p l :=
  ⟨p.segments, List.prefix_refl _, (eq_lead_of_follow (locate_eq_ok.mp h).2.2.2).symm⟩

/-- All that a located path passes before its end is directories. -/
theorem isDirectory_or_eq_of_passes {p : Path} {l m : Location} (h : fs.locate p = .ok l)
    (hm : Passes fs.workingDirectory p m) : fs.at? m = some .directory ∨ m = l := by
  obtain ⟨front, ⟨rest, hrest⟩, rfl⟩ := hm
  have hfollow := (locate_eq_ok.mp h).2.2.2
  rw [← hrest] at hfollow
  cases rest with
  | nil =>
    right
    rw [eq_lead_of_follow hfollow, List.append_nil]
  | cons s rest => exact .inl (follow_cons_eq_ok.mp (follow_append_eq_ok.mp hfollow).2).1

theorem isDirectory_eq_true {p : Path} :
    fs.isDirectory p = true ↔ ∃ l, fs.locate p = .ok l ∧ fs.at? l = some .directory := by
  rw [isDirectory, find, visit]
  cases hl : fs.locate p with
  | error e => simp [bind, Except.bind, Functor.map, Except.map]
  | ok l =>
    cases hat : fs.at? l with
    | none => simp [bind, Except.bind, hat, Functor.map, Except.map, throw, throwThe, MonadExceptOf.throw]
    | some entry =>
      cases entry <;> simp [bind, Except.bind, hat, Functor.map, Except.map, pure, Except.pure]

end FileSystem

end DslBindings
