import DslBindings.Build.Workspace

/-!
# How work ends

Work that is carried out in a workspace ends with a result and with the workspace that it leaves. The
equations here say what each piece of work and each way to put pieces together come to, so that the
rest of the theory never opens the monad. What a workspace or its owner keeps by name is looked up in a
list, and the last entry for a name is the one that counts.
-/

namespace DslBindings

theorem lookup_cons_eq_ite {κ ν : Type} [BEq κ] [LawfulBEq κ] [DecidableEq κ] (k k' : κ) (v : ν)
    (entries : List (κ × ν)) :
    ((k', v) :: entries).lookup k = if k = k' then some v else entries.lookup k := by
  rw [List.lookup_cons]
  by_cases h : k = k'
  · simp [h]
  · simp [h, beq_eq_false_iff_ne.mpr h]

namespace Work

variable {ε δ α β : Type}

/-- The result of work in a workspace, and the workspace that it leaves. -/
def runAt (work : Work ε α) (w : Workspace) : Except ε α × Workspace := work.run w

@[simp] theorem runAt_pure (a : α) (w : Workspace) : (pure a : Work ε α).runAt w = (.ok a, w) := rfl

@[simp] theorem runAt_throw (e : ε) (w : Workspace) :
    (throw e : Work ε α).runAt w = (.error e, w) := rfl

theorem runAt_bind (work : Work ε α) (next : α → Work ε β) (w : Workspace) :
    (work >>= next).runAt w = match work.runAt w with
      | (.ok a, w') => (next a).runAt w'
      | (.error e, w') => (.error e, w') := by
  change (ExceptT.bindCont next (work w).1) (work w).2 = _
  rw [runAt, ExceptT.run]
  rcases work w with ⟨_ | _, w'⟩ <;> rfl

theorem runAt_bind_ok {work : Work ε α} {next : α → Work ε β} {w w' : Workspace} {a : α}
    (h : work.runAt w = (.ok a, w')) : (work >>= next).runAt w = (next a).runAt w' := by
  rw [runAt_bind, h]

theorem runAt_bind_error {work : Work ε α} {next : α → Work ε β} {w w' : Workspace} {e : ε}
    (h : work.runAt w = (.error e, w')) : (work >>= next).runAt w = (.error e, w') := by
  rw [runAt_bind, h]

/-- Work succeeds only if all of it does. -/
theorem runAt_bind_eq_ok {work : Work ε α} {next : α → Work ε β} {w w'' : Workspace} {b : β} :
    (work >>= next).runAt w = (.ok b, w'') ↔
      ∃ a w', work.runAt w = (.ok a, w') ∧ (next a).runAt w' = (.ok b, w'') := by
  rw [runAt_bind]
  rcases work.runAt w with ⟨_ | a, w'⟩
  · simp
  · constructor
    · exact fun h => ⟨a, w', rfl, h⟩
    · rintro ⟨_, _, ⟨⟩, h⟩
      exact h

@[simp] theorem runAt_files_bind (next : FileSystem → Work ε β) (w : Workspace) :
    (files >>= next).runAt w = (next w.files).runAt w := rfl

@[simp] theorem runAt_record (event : BuildEvent) (w : Workspace) :
    (record event : Work ε Unit).runAt w = (.ok (), { w with events := w.events ++ [event] }) := rfl

theorem runAt_change (f : FileSystem → Except ε FileSystem) (w : Workspace) :
    (change f).runAt w = match f w.files with
      | .ok fs => (.ok (), { w with files := fs })
      | .error e => (.error e, w) := by
  rw [change, runAt_files_bind]
  cases f w.files <;> rfl

/-- A change that succeeds leaves the files that it gives. -/
theorem runAt_change_mapError_eq_ok {f : FileSystem → Except δ FileSystem} {g : δ → ε} {w w' : Workspace} :
    (change fun fs => (f fs).mapError g).runAt w = (.ok (), w') ↔
      ∃ fs, f w.files = .ok fs ∧ w' = { w with files := fs } := by
  rw [runAt_change]
  cases f w.files with
  | error e =>
    constructor
    · intro h
      cases h
    · rintro ⟨fs, h, -⟩
      cases h
  | ok fs =>
    constructor
    · intro h
      cases h
      exact ⟨fs, rfl, rfl⟩
    · rintro ⟨_, ⟨⟩, rfl⟩
      rfl

theorem runAt_look (f : FileSystem → Except ε α) (w : Workspace) :
    (look f).runAt w = (f w.files, w) := by
  rw [look, runAt_files_bind]
  cases f w.files <;> rfl

theorem runAt_failingWith (f : ε → δ) (work : Work ε α) (w : Workspace) :
    (work.failingWith f).runAt w = ((work.runAt w).1.mapError f, (work.runAt w).2) := rfl

theorem runAt_failingWith_eq_ok {f : ε → δ} {work : Work ε α} {w w' : Workspace} {a : α} :
    (work.failingWith f).runAt w = (.ok a, w') ↔ work.runAt w = (.ok a, w') := by
  rw [runAt_failingWith]
  rcases work.runAt w with ⟨e | b, w''⟩
  · constructor <;> rintro ⟨⟩
  · change ((Except.ok b : Except δ α), w'') = (.ok a, w') ↔ _
    simp only [Prod.mk.injEq, Except.ok.injEq]

theorem runAt_outcome (work : Work ε α) (w : Workspace) :
    (work.outcome : Work δ _).runAt w = (.ok (work.runAt w).1, (work.runAt w).2) := rfl

end Work

end DslBindings
