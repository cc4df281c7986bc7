/-!
# Fresh names
-/

namespace DslBindings.Text

/--
The name, or the name with as many underscores behind it as it takes to be none of `used`. A name
that was tried need not be looked out for again: those that follow are longer.
-/
def freshName (used : List String) (name : String) : String :=
  if _ : name ∈ used then freshName (used.erase name) (name ++ "_") else name
termination_by used.length
decreasing_by
  rw [List.length_erase_of_mem ‹name ∈ used›]
  exact Nat.sub_lt (List.length_pos_of_mem ‹name ∈ used›) Nat.zero_lt_one

end DslBindings.Text
