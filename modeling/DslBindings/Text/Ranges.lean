/-!
# Ranges of characters

Tables of characters as ranges of code points, both ends included, in ascending order.
-/

namespace DslBindings.Text

/-- Ranges of code points, both ends included. -/
abbrev Ranges := List (Nat × Nat)

/-- Whether a character is in one of these ranges. -/
def Ranges.has (ranges : Ranges) (c : Char) : Bool :=
  ranges.any fun (first, last) => first ≤ c.toNat && c.toNat ≤ last

end DslBindings.Text
