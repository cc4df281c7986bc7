import DslBindings.Archive.RangeCode

/-!
# Undoing chain coding

Data that are bytes and references to what was put out before, in a range code. The context of a
decision is where in a number it stands, and what came up before: the phase tells what the last few
were, bytes or references.
-/

namespace DslBindings.ChainCoding

open Decompression RangeCode

/-- What decisions are about. -/
inductive Context
  /-- Whether there is a reference and not a byte. -/
  | reference (phase place : Nat)
  /-- Whether its distance is one of the last four. -/
  | recent (phase : Nat)
  /-- Whether it is not the last one. -/
  | second (phase : Nat)
  /-- Whether it is not the second last one. -/
  | third (phase : Nat)
  /-- Whether it is not the third last one. -/
  | fourth (phase : Nat)
  /-- Whether a reference with the last distance is longer than a byte. -/
  | longer (phase place : Nat)
  /-- A bit of a byte. The bit that the last distance leads to can stand beside it. -/
  | byte (before : Nat) (beside : Option Nat) (node : Nat)
  /-- Whether a length is not a short one. -/
  | middle (isRecent : Bool)
  /-- Whether it is not a middle one. -/
  | long (isRecent : Bool)
  | shortLength (isRecent : Bool) (place node : Nat)
  | middleLength (isRecent : Bool) (place node : Nat)
  | longLength (isRecent : Bool) (node : Nat)
  /-- A bit of how many bits a distance has. -/
  | slot (length node : Nat)
  /-- A bit of a small distance. -/
  | small (slot node : Nat)
  /-- One of the lowest bits of a large distance. -/
  | low (node : Nat)
  deriving DecidableEq, Hashable, Repr, Inhabited

/-- How contexts are made. -/
structure Properties where
  /-- How many bits of the byte before count. -/
  byteBits : Nat
  /-- How many bits of the place of a byte count. -/
  bytePlaceBits : Nat
  /-- How many bits of the place count elsewhere. -/
  placeBits : Nat
  deriving DecidableEq, Repr, Inhabited

/-- The properties that a byte stands for. -/
def Properties.ofByte? (b : Nat) : Option Properties :=
  if b < 225 then some ⟨b % 9, b / 9 % 5, b / 45⟩ else none

/-- What undoing goes on with. -/
structure State where
  source : Source Context
  /-- What came last: below seven a byte, else a reference. -/
  phase : Nat
  /-- The last four distances, the last one first. -/
  recent : List Nat
  output : Array UInt8

/-- A step of undoing. -/
abbrev Step := StateT State (Except Stop)

/-- Takes the decision of a context. -/
def decide (context : Context) : Step Nat := modifyGet fun s =>
  let (bit, source) := s.source.decide context
  (bit, { s with source })

/-- Takes decisions with even chances, the highest bit first. -/
def tosses (high : Nat) : (width : Nat) → Step Nat
  | 0 => return high
  | n + 1 => do
    let bit ← modifyGet fun s =>
      let (bit, source) := s.source.toss
      (bit, { s with source })
    tosses (2 * high + bit) n

/-- Takes a number, the highest bit first. The node of a bit is a one and the bits before. -/
def treeBelow (context : (node : Nat) → Context) (node : Nat) : (width : Nat) → Step Nat
  | 0 => return node
  | n + 1 => do treeBelow context (2 * node + (← decide (context node))) n

/-- Takes a number of some bits, the highest one first. -/
def tree (context : (node : Nat) → Context) (width : Nat) : Step Nat := do
  return (← treeBelow context 1 width) - (1 <<< width)

/-- Takes a number of some bits, the lowest one first, and the rest of the node behind it. -/
def treeUpwards (context : (node : Nat) → Context) (node : Nat) : (width : Nat) → Step Nat
  | 0 => return 0
  | n + 1 => do
    let bit ← decide (context node)
    return bit + 2 * (← treeUpwards context (2 * node + bit) n)

/-- Takes the rest of a byte. The bits beside it count as long as they are the same. -/
def byteBeside (before : Nat) (node : Nat) : (beside : List Nat) → Step Nat
  | [] => return node
  | b :: rest => do
    let bit ← decide (.byte before (some b) node)
    let node := 2 * node + bit
    if bit = b then byteBeside before node rest
    else treeBelow (.byte before none) node rest.length

/-- The eight bits of a byte, the highest one first. -/
def bitsOf (b : UInt8) : List Nat := (bitsOfByte b).reverse.map Bool.toNat

/-- The phase after a byte. -/
def phaseAfterByte (phase : Nat) : Nat :=
  if phase < 4 then 0 else if phase < 10 then phase - 3 else phase - 6

/-- Takes a byte. -/
def byte (p : Properties) : Step Unit := do
  let s ← get
  let size := s.output.size
  let last := if size = 0 then 0 else s.output.getD (size - 1) 0
  let before :=
    (last.toNat >>> (8 - p.byteBits)) + ((size % (1 <<< p.bytePlaceBits)) <<< p.byteBits)
  let node ←
    if s.phase < 7 then treeBelow (.byte before none) 1 8
    else byteBeside before 1 (bitsOf (s.output.getD (size - s.recent.headD 0) 0))
  modify fun s =>
    { s with phase := phaseAfterByte s.phase, output := s.output.push (UInt8.ofNat node) }

/-- Takes a length. -/
def length (isRecent : Bool) (place : Nat) : Step Nat := do
  if (← decide (.middle isRecent)) = 0 then
    return 2 + (← tree (.shortLength isRecent place) 3)
  else if (← decide (.long isRecent)) = 0 then
    return 10 + (← tree (.middleLength isRecent place) 3)
  else return 18 + (← tree (.longLength isRecent) 8)

/-- Takes a distance of a reference with this length. -/
def distance (length : Nat) : Step Nat := do
  let slot ← tree (.slot (min (length - 2) 3)) 6
  if slot < 4 then return slot + 1
  else
    let width := slot / 2 - 1
    let least := (2 + slot % 2) <<< width
    if slot < 14 then return least + (← treeUpwards (.small slot) 1 width) + 1
    else
      let high ← tosses 0 (width - 4)
      return least + (high <<< 4) + (← treeUpwards .low 1 4) + 1

/-- Takes which of the last four distances is meant. -/
def recentPlace (phase : Nat) : Step Nat := do
  if (← decide (.third phase)) = 0 then return 1
  else if (← decide (.fourth phase)) = 0 then return 2
  else return 3

/-- Puts out a reference, with the last distance. -/
def refer (window length : Nat) : Step Unit := do
  let s ← get
  let distance := s.recent.headD 0
  if min s.output.size window < distance then throw .corrupt
  modify fun s => { s with output := repeated distance length s.output }

/-- Makes a distance the last one. -/
def useRecent (place : Nat) : Step Unit := do
  match movedToFront (← get).recent place with
  | some (_, recent) => modify fun s => { s with recent }
  | none => throw .corrupt

/-- Takes a byte or a reference, and puts out what it stands for, with no more bytes than `room`. -/
def item (p : Properties) (window room : Nat) : Step Unit := do
  let s ← get
  let phase := s.phase
  let place := s.output.size % (1 <<< p.placeBits)
  let put (phase length : Nat) : Step Unit := do
    if room < length then throw .corrupt
    modify fun s => { s with phase }
    refer window length
  if (← decide (.reference phase place)) = 0 then byte p
  else if (← decide (.recent phase)) = 0 then
    let length ← length false place
    let distance ← distance length
    modify fun s => { s with recent := distance :: s.recent.take 3 }
    put (if phase < 7 then 7 else 10) length
  else if (← decide (.second phase)) = 0 then
    if (← decide (.longer phase place)) = 0 then put (if phase < 7 then 9 else 11) 1
    else put (if phase < 7 then 8 else 11) (← length true place)
  else
    useRecent (← recentPlace phase)
    put (if phase < 7 then 8 else 11) (← length true place)

/-- Takes bytes and references up to a size. Each puts out a byte, so the limit is never met. -/
def items (p : Properties) (window size : Nat) : (limit : Nat) → Step Unit
  | 0 => throw .corrupt
  | limit + 1 => do
    let room := size - (← get).output.size
    if room = 0 then return ()
    item p window room
    items p window size limit

/-- The state at the start. -/
def State.start (source : Source Context) : State :=
  { source, phase := 0, recent := [1, 1, 1, 1], output := #[] }

/-- The largest dictionary that can be asked for. -/
def mostWindow : Nat := 0xFFFFFFF0

/-- The size of the dictionary that a number asks for. -/
def windowOf (size : Nat) : Nat := (max size 4096 + 15) / 16 * 16

/-- Takes a header with a version, the length of the properties, and the properties, and then this
many bytes. -/
def stream (size : Nat) : ByteStep (List UInt8) := do
  ByteStep.require ((← ByteStep.number 4) >>> 16 = 5)
  let properties ← ByteStep.number 5
  match Properties.ofByte? (properties % 256) with
  | none => throw .corrupt
  | some p =>
    let window := properties / 256
    ByteStep.require (window ≤ mostWindow)
    let source ← Source.start ∅ (← get)
    let (_, s) ← (items p (windowOf (min window size)) size (size + 1)).run (State.start source)
    return s.output.toList

/-- What bytes decompress to, which are this many. -/
def decompress (size : Nat) (bytes : List UInt8) : Except Stop (List UInt8) :=
  (stream size).run' bytes

end DslBindings.ChainCoding
