import DslBindings.Command.Run
import DslBindings.Proofs.Build.Running

/-!
# How runs end

What a command and a command line come to, once it is known how their work ends. A run is a directory
for the log and then a command, so all that can be said of a command holds of a run in the workspace
that has this directory.
-/

namespace DslBindings

theorem Work.run_run_bind {ε α β : Type} (work : Work ε α) (next : Except ε α → StateM Workspace β)
    (w : Workspace) :
    (work.run >>= next).run w = (next (work.runAt w).1).run (work.runAt w).2 := rfl

theorem Command.run_eq (env : Environment) (c : Command) (w : Workspace) :
    (c.run env).run w = match (c.perform env).runAt w with
      | (.ok report, left) => (report, left)
      | (.error e, left) => (⟨"", some e⟩, left) := by
  rw [Command.run, Work.run_run_bind]
  rcases (c.perform env).runAt w with ⟨_ | _, left⟩ <;> rfl

namespace Invocation

variable {env : Environment} {i : Invocation} {w w₁ : Workspace}

theorem run_of_error {e : IoError}
    (h : (Work.createDirectories (i.logDirectoryIn env)).runAt w = (.error e, w₁)) :
    (i.run env).run w = (.noLog (i.logDirectoryIn env), w₁) := by
  rw [Invocation.run, Work.run_run_bind, h]
  rfl

theorem run_of_ok (h : (Work.createDirectories (i.logDirectoryIn env)).runAt w = (.ok (), w₁)) :
    (i.run env).run w
      = (.ofCommand ((i.command.run env).run w₁).1, ((i.command.run env).run w₁).2) := by
  rw [Invocation.run, Work.run_run_bind, h]
  rfl

end Invocation

theorem runWords_of_ok {words : List String} {i : Invocation} (h : Invocation.ofWords words = .ok i)
    (env : Environment) : runWords env words = i.run env := by
  rw [runWords, h]

end DslBindings
