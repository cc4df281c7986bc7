import DslBindings.Sink

/-!
# What a sink takes

A row of pieces is taken piece by piece, up to the first one that is refused. What a sink holds
afterwards is a beginning of the row behind what it held before.
-/

namespace DslBindings.Sink

variable {sink : Sink}

theorem write_of_takes {piece : String} (h : sink.takes sink.offered piece = true) :
    sink.write piece
      = (true, { sink with offered := sink.offered ++ [piece], taken := sink.taken ++ [piece] }) := by
  rw [write, if_pos h]

theorem write_of_refuses {piece : String} (h : sink.takes sink.offered piece = false) :
    sink.write piece = (false, { sink with offered := sink.offered ++ [piece] }) := by
  rw [write, if_neg (Bool.eq_false_iff.mp h)]

/-- A sink that takes everything takes a list of pieces. -/
theorem writeAll_of_takes (hs : ∀ offered piece, sink.takes offered piece = true)
    (pieces : List String) :
    sink.writeAll pieces
      = (true, { sink with offered := sink.offered ++ pieces, taken := sink.taken ++ pieces }) := by
  induction pieces generalizing sink with
  | nil => simp [writeAll]
  | cons p ps ih =>
    rw [writeAll, write_of_takes (hs sink.offered p)]
    refine (ih ?_).trans ?_
    · exact hs
    · simp

/-- A sink takes all pieces, or some first ones and not the next. -/
theorem writeAll_cases (sink : Sink) (pieces : List String) :
    ((sink.writeAll pieces).1 = true ∧ (sink.writeAll pieces).2.taken = sink.taken ++ pieces)
      ∨ ((sink.writeAll pieces).1 = false
        ∧ ∃ k < pieces.length, (sink.writeAll pieces).2.taken = sink.taken ++ pieces.take k) := by
  induction pieces generalizing sink with
  | nil => exact .inl ⟨rfl, (List.append_nil _).symm⟩
  | cons p ps ih =>
    rw [writeAll]
    cases htakes : sink.takes sink.offered p with
    | false =>
      rw [write_of_refuses htakes]
      exact .inr ⟨rfl, 0, Nat.zero_lt_succ _, (List.append_nil _).symm⟩
    | true =>
      rw [write_of_takes htakes]
      dsimp only
      obtain ⟨hok, htaken⟩ | ⟨hrefused, k, hk, htaken⟩ :=
        ih { sink with offered := sink.offered ++ [p], taken := sink.taken ++ [p] }
      · exact .inl ⟨hok, by rw [htaken, List.append_assoc, List.singleton_append]⟩
      · refine .inr ⟨hrefused, k + 1, Nat.succ_lt_succ hk, ?_⟩
        rw [htaken, List.append_assoc, List.singleton_append, List.take_succ_cons]

theorem exists_taken_writeAll (sink : Sink) (pieces : List String) :
    ∃ n, (sink.writeAll pieces).2.taken = sink.taken ++ pieces.take n := by
  obtain ⟨-, htaken⟩ | ⟨-, k, -, htaken⟩ := sink.writeAll_cases pieces
  · exact ⟨pieces.length, by rw [htaken, List.take_length]⟩
  · exact ⟨k, htaken⟩

/-- Pieces are offered in two parts, the second one only if the first one was taken. -/
theorem writeAll_append (sink : Sink) (pieces others : List String) :
    sink.writeAll (pieces ++ others) =
      match sink.writeAll pieces with
      | (true, sink') => sink'.writeAll others
      | (false, sink') => (false, sink') := by
  induction pieces generalizing sink with
  | nil => rfl
  | cons p ps ih =>
    rw [List.cons_append, writeAll, writeAll]
    split
    · exact ih _
    · rfl

end DslBindings.Sink
