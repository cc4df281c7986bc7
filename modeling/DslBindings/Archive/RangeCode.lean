import DslBindings.Archive.Decompression
import Std.Data.HashMap

/-!
# Range codes

Decisions in a range code: a range of numbers is split by the chances of a decision, and a number of
which the bytes tell more and more tells which part is meant. A chance adapts to the decisions that
are made in its context. Bytes that are not there are zeros.
-/

namespace DslBindings.RangeCode

open Decompression

/-- What decisions are taken from. -/
structure Source (Context : Type) [BEq Context] [Hashable Context] where
  /-- The bytes that are left. -/
  bytes : List UInt8
  /-- How many numbers are possible. -/
  range : UInt32
  /-- The number, less the first one that is possible. -/
  code : UInt32
  /-- How many of 2048 decisions are zeros, by what has come up in each context. -/
  chances : Std.HashMap Context UInt32

variable {Context : Type} [BEq Context] [Hashable Context]

/-- The chance of a context that has not come up. -/
def evenChance : UInt32 := 1024

/-- Bytes to take decisions from, with these chances. The first one is a zero, and the next four
begin the number. -/
def Source.start (chances : Std.HashMap Context UInt32) :
    List UInt8 → Except Stop (Source Context)
  | [] => .error .truncated
  | first :: rest =>
    if first ≠ 0 then .error .corrupt
    else
      match rest with
      | a :: b :: c :: d :: bytes =>
        let code := UInt32.ofNat (value [d, c, b, a])
        .ok { bytes, range := 0xFFFFFFFF, code, chances }
      | _ => .error .truncated

/-- Makes the range large enough for another decision. -/
def Source.normalize (s : Source Context) : Source Context :=
  if s.range < 0x1000000 then
    { s with
      bytes := s.bytes.tail
      range := s.range <<< 8
      code := (s.code <<< 8) ||| (s.bytes.headD 0).toUInt32 }
  else s

/-- Takes the decision of a context. -/
def Source.decide (s : Source Context) (context : Context) : Nat × Source Context :=
  let s := s.normalize
  let chance := s.chances.getD context evenChance
  let bound := (s.range >>> 11) * chance
  if s.code < bound then
    (0, { s with
      range := bound
      chances := s.chances.insert context (chance + ((2048 - chance) >>> 5)) })
  else
    (1, { s with
      range := s.range - bound
      code := s.code - bound
      chances := s.chances.insert context (chance - (chance >>> 5)) })

/-- Takes a decision with even chances that do not adapt. -/
def Source.toss (s : Source Context) : Nat × Source Context :=
  let s := s.normalize
  let half := s.range >>> 1
  if s.code < half then (0, { s with range := half })
  else (1, { s with range := half, code := s.code - half })

end DslBindings.RangeCode
