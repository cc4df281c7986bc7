/-!
# Sinks

Where generated text goes. A sink takes each piece of text whole or refuses it whole, and it may
decide by everything that it was offered before.
-/

namespace DslBindings

/-- A sink, with what it was offered and what it took so far. -/
structure Sink where
  /-- Whether a piece is taken after these have been offered. -/
  takes : (offered : List String) → (piece : String) → Bool
  offered : List String := []
  taken : List String := []

namespace Sink

/-- A sink that takes everything. -/
def unlimited : Sink := { takes := fun _ _ => true }

/-- The number of bytes of these pieces that fit below a limit, each taken only if it fits whole. -/
def fill (limit : Nat) (pieces : List String) : Nat :=
  pieces.foldl (fun size p => if size + p.utf8ByteSize ≤ limit then size + p.utf8ByteSize else size) 0

/-- A sink that takes a piece if it then holds no more bytes than `limit`. -/
def limited (limit : Nat) : Sink :=
  { takes := fun offered piece => fill limit offered + piece.utf8ByteSize ≤ limit }

/-- The text that a sink holds. -/
def text (s : Sink) : String := String.join s.taken

/-- Offers a piece of text. The answer says whether it was taken. -/
def write (s : Sink) (piece : String) : Bool × Sink :=
  if s.takes s.offered piece then
    (true, { s with offered := s.offered ++ [piece], taken := s.taken ++ [piece] })
  else (false, { s with offered := s.offered ++ [piece] })

/-- Offers pieces of text one after the other, up to the first that is refused. -/
def writeAll (s : Sink) : (pieces : List String) → Bool × Sink
  | [] => (true, s)
  | p :: ps =>
    match s.write p with
    | (true, s') => s'.writeAll ps
    | (false, s') => (false, s')

end Sink

end DslBindings
