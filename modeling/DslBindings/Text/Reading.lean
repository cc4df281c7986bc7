/-!
# What a reader gives back

A reader takes the characters that are left. When it has to use at least one of them, its result
says so, and a loop that calls it ends because of that.
-/

namespace DslBindings.Text

/-- A value read from the front of `s`, with the characters behind it. -/
structure Reading (α : Type) (s : List Char) where
  value : α
  rest : List Char
  shorter : rest.length < s.length

theorem length_dropWhile_le (p : Char → Bool) (s : List Char) :
    (s.dropWhile p).length ≤ s.length := by
  induction s with
  | nil => exact Nat.le_refl _
  | cons c r ih =>
    rw [List.dropWhile_cons]
    split
    · exact Nat.le_succ_of_le ih
    · exact Nat.le_refl _

end DslBindings.Text
