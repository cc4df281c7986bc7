import DslBindings.Archive.LaneDigest
import DslBindings.Archive.StateMachine

/-!
# Undoing state coding

Data that are frames of blocks. A block has literal bytes, mostly in a prefix code, and commands,
each of which puts out some of the literals and a reference to what was put out before. The numbers
in commands come from three machines that take turns. Bits of literals and commands are read from
the last one to the first.
-/

namespace DslBindings.StateCoding

open Decompression

/-! ### Bits backwards -/

/-- What is left of a list behind its first `true`. -/
def behindMark : List Bool → Option (List Bool)
  | [] => none
  | true :: rest => some rest
  | false :: rest => behindMark rest

/-- The bits of bytes from the last one to the first. The last byte has a one that marks the end. -/
def backwards (bytes : List UInt8) : Except Stop (List Bool) :=
  if bytes.getLastD 0 = 0 then .error .corrupt
  else
    match behindMark (bitsDownwards bytes.reverse) with
    | some bits => .ok bits
    | none => .error .corrupt

/-- The result of a step that uses up these bits, and what it puts out. -/
def usingUp (step : Step α) (bits : List Bool) (output : Array UInt8) :
    Except Stop (α × Array UInt8) := do
  let (a, s) ← step.run { bits, output }
  if s.bits.isEmpty then return (a, s.output) else throw .corrupt

/-- Takes bits of bytes, in each the lowest one first, and leaves out the rest of the last byte. -/
def ofBits (step : Step α) : ByteStep α := fun bytes => do
  let (a, s) ← step.run { bits := bitsUpwards bytes, output := #[] }
  return (a, bytes.drop (bytes.length - s.bits.length / 8))

/-! ### Literals -/

/-- A prefix code: for each sequence of `width` bits the symbol it starts with, and its length. -/
structure LiteralCode where
  width : Nat
  entries : Array (UInt8 × Nat)

namespace LiteralCode

/-- The most bits of a code word. -/
def mostWidth : Nat := 12

/-- How many sequences of bits start with the code word of a symbol of some weight. -/
def share (weight : Nat) : Nat := if weight = 0 then 0 else 1 <<< (weight - 1)

/-- The entries of the symbols of a weight. -/
def entriesOf (width : Nat) (weights : List Nat) (weight : Nat) : List (UInt8 × Nat) :=
  (weights.zipIdx.filter (·.1 = weight)).flatMap fun (_, symbol) =>
    List.replicate (share weight) (UInt8.ofNat symbol, width + 1 - weight)

/-- The code of weights. The last symbol has the weight that makes it complete. -/
def ofWeights (weights : List Nat) : Except Stop LiteralCode :=
  let sum := weights.foldl (fun sum weight => sum + share weight) 0
  let width := sum.log2 + 1
  let left := (1 <<< width) - sum
  let weights := weights ++ [left.log2 + 1]
  let isComplete := left = 1 <<< left.log2
  if sum = 0 || mostWidth < width || !isComplete || weights.count 1 < 2 then .error .corrupt
  else .ok ⟨width, ((List.range width).flatMap fun i => entriesOf width weights (i + 1)).toArray⟩

/-- Takes weights from a machine, in two states that take turns, as long as there are bits. -/
def machineWeights (m : StateMachine) :
    (limit : Nat) → (current other : MachineState) → Step (List Nat)
  | 0, _, _ => throw .corrupt
  | limit + 1, current, other => do
    if ((← get).bits.take current.width).length < current.width then
      modify fun s => { s with bits := [] }
      return [current.symbol, other.symbol]
    else
      let next ← m.next current
      return current.symbol :: (← machineWeights m limit other next)

/-- Takes the weights of symbols. -/
def weights : ByteStep (List Nat) := do
  let first ← ByteStep.number 1
  if first < 128 then
    let (m, bytes) ← (ofBits (StateMachine.written 6 256)).run (← ByteStep.bytes first)
    let (weights, _) ← usingUp
      (do machineWeights m 254 (← m.start) (← m.start)) (← backwards bytes) #[]
    return weights
  else
    let count := first - 127
    let bytes ← ByteStep.bytes ((count + 1) / 2)
    return (bytes.flatMap fun b => [b.toNat / 16, b.toNat % 16]).take count

/-- Takes a code. -/
def written : ByteStep LiteralCode := do
  let code ← ofWeights (← weights)
  return code

/-- The number that the bits at the front are, with zeros for those that are not there. -/
def ahead : (width : Nat) → List Bool → Nat
  | 0, _ => 0
  | _, [] => 0
  | n + 1, b :: rest => (b.toNat <<< n) + ahead n rest

/-- Takes a number of symbols. -/
def symbols (code : LiteralCode) : (count : Nat) → Step Unit
  | 0 => return ()
  | n + 1 => do
    let (symbol, width) := code.entries.getD (ahead code.width (← get).bits) (0, 0)
    let _ ← word width
    put symbol
    symbols code n

/-- The symbols that bytes stand for, behind others. -/
def decode (code : LiteralCode) (output : Array UInt8) (count : Nat) (bytes : List UInt8) :
    Except Stop (Array UInt8) := do
  let (_, output) ← usingUp (code.symbols count) (← backwards bytes) output
  return output

/-- The symbols that bytes stand for, which begin with the sizes of three of four parts. -/
def decodeParts (code : LiteralCode) (count : Nat) (bytes : List UInt8) :
    Except Stop (Array UInt8) := do
  let part := (count + 3) / 4
  if count < 6 || bytes.length < 6 || count < 3 * part then throw .corrupt
  let a := value (bytes.take 2)
  let b := value ((bytes.drop 2).take 2)
  let c := value ((bytes.drop 4).take 2)
  let bytes := bytes.drop 6
  let output ← code.decode #[] part (bytes.take a)
  let output ← code.decode output part ((bytes.drop a).take b)
  let output ← code.decode output part ((bytes.drop (a + b)).take c)
  code.decode output (count - 3 * part) (bytes.drop (a + b + c))

end LiteralCode

/-! ### Commands -/

/-- The machines of commands. -/
structure Machines where
  literals : StateMachine
  distances : StateMachine
  lengths : StateMachine

/-- What a frame keeps from one block to the next. -/
structure Memory where
  code : Option LiteralCode
  machines : Option Machines
  /-- The last three distances, the last one first. -/
  recent : List Nat
  output : Array UInt8

/-- The least number of literals for each symbol, and how many bits add to it. -/
def literalCounts : List (Nat × Nat) :=
  (List.range 16).map (·, 0) ++
  [(16, 1), (18, 1), (20, 1), (22, 1), (24, 2), (28, 2), (32, 3), (40, 3), (48, 4), (64, 6), (128, 7),
   (256, 8), (512, 9), (1024, 10), (2048, 11), (4096, 12), (8192, 13), (16384, 14), (32768, 15),
   (65536, 16)]

/-- The least length of a reference for each symbol, and how many bits add to it. -/
def referenceLengths : List (Nat × Nat) :=
  (List.range 32).map (fun i => (i + 3, 0)) ++
  [(35, 1), (37, 1), (39, 1), (41, 1), (43, 2), (47, 2), (51, 3), (59, 3), (67, 4), (83, 4), (99, 5),
   (131, 7), (259, 8), (515, 9), (1027, 10), (2051, 11), (4099, 12), (8195, 13), (16387, 14),
   (32771, 15), (65539, 16)]

/-- The numbers of a kind in commands. -/
structure Numbers where
  mostSymbols : Nat
  mostLog : Nat
  /-- The machine that need not be written. -/
  usual : StateMachine

/-- Shares of states, with a minus for a rare symbol. -/
def shares (counts : List Int) : List StateMachine.Share :=
  counts.map fun n => if n < 0 then .rare else .states n.toNat

/-- Numbers of literals. -/
def Numbers.literals : Numbers where
  mostSymbols := 36
  mostLog := 9
  usual := StateMachine.ofShares 6 <| shares
    [4, 3, 2, 2, 2, 2, 2, 2, 2, 2, 2, 2, 2, 1, 1, 1, 2, 2, 2, 2, 2, 2, 2, 2, 2, 3, 2, 1, 1, 1, 1, 1,
     -1, -1, -1, -1]

/-- Numbers of bits of distances. -/
def Numbers.distances : Numbers where
  mostSymbols := 32
  mostLog := 8
  usual := StateMachine.ofShares 5 <| shares
    [1, 1, 1, 1, 1, 1, 2, 2, 2, 1, 1, 1, 1, 1, 1, 1, 1, 1, 1, 1, 1, 1, 1, 1, -1, -1, -1, -1, -1]

/-- Lengths of references. -/
def Numbers.lengths : Numbers where
  mostSymbols := 53
  mostLog := 9
  usual := StateMachine.ofShares 6 <| shares <|
    [1, 4, 3, 2, 2, 2, 2, 2, 2] ++ List.replicate 37 1 ++ List.replicate 7 (-1)

/-- Takes the machine of a kind of numbers. -/
def Numbers.machine (n : Numbers) (previous : Option StateMachine) :
    (mode : Nat) → ByteStep StateMachine
  | 0 => return n.usual
  | 1 => do
    let symbol ← ByteStep.number 1
    ByteStep.require (symbol < n.mostSymbols)
    return StateMachine.single symbol
  | 2 => ofBits (StateMachine.written n.mostLog n.mostSymbols)
  | _ =>
    match previous with
    | some m => return m
    | none => throw .corrupt

/-- The states of the three machines. -/
structure States where
  literals : MachineState
  distance : MachineState
  length : MachineState

/-- Takes what adds to the least number of a symbol. -/
def extended (table : List (Nat × Nat)) (symbol : Nat) : Step Nat := do
  match table[symbol]? with
  | some (least, width) => return least + (← word width)
  | none => throw .corrupt

/--
The distance that a number stands for, and the last three distances then. The numbers 1 to 3 stand
for the last ones, from the one on that comes next if there are no literals, and what would be the
fourth one is a bit less than the last one.
-/
def distanceOf (recent : List Nat) (hasLiterals : Bool) (n : Nat) : Nat × List Nat :=
  if 3 < n then (n - 3, (n - 3) :: recent.take 2)
  else
    let place := if hasLiterals then n - 1 else n
    if place = 3 then
      let d := recent.headD 0 - 1
      (d, d :: recent.take 2)
    else ((movedToFront recent place).getD (0, recent))

/-- Puts out some of the literals, and gives the others. -/
def putLiterals (literals : List UInt8) : (count : Nat) → Step (List UInt8)
  | 0 => return literals
  | n + 1 =>
    match literals with
    | [] => throw .corrupt
    | b :: rest => do
      put b
      putLiterals rest n

/-- Takes a command, and does what it says. It gives the last distances and the literals left. -/
def command (states : States) (recent : List Nat) (literals : List UInt8) :
    Step (List Nat × List UInt8) := do
  let width := states.distance.symbol
  let n := (1 <<< width) + (← word width)
  let length ← extended referenceLengths states.length.symbol
  let count ← extended literalCounts states.literals.symbol
  let (distance, recent) := distanceOf recent (count ≠ 0) n
  let literals ← putLiterals literals count
  if distance = 0 then throw .corrupt
  copy distance length
  return (recent, literals)

/-- Takes a number of commands. In front of each but the first one the machines go on. -/
def commandsFrom (m : Machines) (states : States) (recent : List Nat) (literals : List UInt8) :
    (more : Nat) → Step (List Nat × List UInt8)
  | 0 => command states recent literals
  | more + 1 => do
    let (recent, rest) ← command states recent literals
    let literals ← m.literals.next states.literals
    let length ← m.lengths.next states.length
    let distance ← m.distances.next states.distance
    commandsFrom m { literals, distance, length } recent rest more

/-- Takes `more + 1` commands. -/
def commands (m : Machines) (recent : List Nat) (literals : List UInt8) (more : Nat) :
    Step (List Nat × List UInt8) := do
  let states : States := {
    literals := ← m.literals.start
    distance := ← m.distances.start
    length := ← m.lengths.start }
  commandsFrom m states recent literals more

/-! ### Blocks -/

/-- The most bytes of a block. -/
def mostBlock : Nat := 1 <<< 17

/-- Takes the literals of a block, and the code that is kept. -/
def literals (known : Option LiteralCode) : ByteStep (List UInt8 × Option LiteralCode) := do
  let first ← ByteStep.number 1
  let kind := first % 4
  let format := first / 4 % 4
  if kind < 2 then
    let size ←
      if format = 1 then pure (first / 16 + 16 * (← ByteStep.number 1))
      else if format = 3 then pure (first / 16 + 16 * (← ByteStep.number 2))
      else pure (first / 8)
    ByteStep.require (size ≤ mostBlock)
    if kind = 0 then return (← ByteStep.bytes size, known)
    else return ((← ByteStep.bytes 1).flatMap (List.replicate size), known)
  else
    let width := if format < 2 then 10 else if format = 2 then 14 else 18
    let sizes := first / 16 + 16 * (← ByteStep.number ((2 * width + 4) / 8 - 1))
    let size := sizes % (1 <<< width)
    ByteStep.require (size ≤ mostBlock)
    let bytes ← ByteStep.bytes (sizes >>> width)
    let (code, bytes) ←
      if kind = 2 then LiteralCode.written.run bytes
      else
        match known with
        | some code => pure (code, bytes)
        | none => throw .corrupt
    let output ← if format = 0 then code.decode #[] size bytes else code.decodeParts size bytes
    return (output.toList, some code)

/-- Takes how many commands there are. -/
def commandCount : ByteStep Nat := do
  let first ← ByteStep.number 1
  if first < 128 then return first
  else if first < 255 then return (first - 128) * 256 + (← ByteStep.number 1)
  else return 0x7F00 + (← ByteStep.number 2)

/-- Takes the machines of a block. -/
def machines (previous : Option Machines) : ByteStep Machines := do
  let modes ← ByteStep.number 1
  ByteStep.require (modes % 4 = 0)
  let literals ← Numbers.literals.machine (previous.map (·.literals)) (modes / 64)
  let distances ← Numbers.distances.machine (previous.map (·.distances)) (modes / 16 % 4)
  let lengths ← Numbers.lengths.machine (previous.map (·.lengths)) (modes / 4 % 4)
  return { literals, distances, lengths }

/-- Takes all of a block, and puts out what it stands for. -/
def codedBlock (m : Memory) : ByteStep Memory := do
  let (literals, code) ← literals m.code
  match ← commandCount with
  | 0 =>
    ByteStep.require (← get).isEmpty
    return { m with code, output := m.output ++ literals.toArray }
  | more + 1 =>
    let machines ← machines m.machines
    let bytes ← ByteStep.bytes (← get).length
    let ((recent, rest), output) ←
      usingUp (commands machines m.recent literals more) (← backwards bytes) m.output
    return { code, machines := some machines, recent, output := output ++ rest.toArray }

/-- A failure within a block is one of what it holds. -/
def within (result : Except Stop α) : Except Stop α := result.mapError fun _ => .corrupt

/-- Takes a block with its header, and tells whether it is the last one. -/
def block (most : Nat) (m : Memory) : ByteStep (Bool × Memory) := do
  let header ← ByteStep.number 3
  let size := header / 8
  ByteStep.require (size ≤ most)
  let bytes ← ByteStep.bytes (if header / 2 % 4 = 1 then 1 else size)
  let next ←
    match header / 2 % 4 with
    | 0 => pure { m with output := m.output ++ bytes.toArray }
    | 1 => pure { m with output := m.output ++ Array.replicate size (bytes.headD 0) }
    | 2 => within ((codedBlock m).run' bytes)
    | _ => throw .corrupt
  ByteStep.require (next.output.size ≤ m.output.size + most)
  return (header % 2 = 1, next)

/-- Takes blocks up to the last one. Each uses a byte, so the limit is never met. -/
def blocks (most : Nat) : (limit : Nat) → Memory → ByteStep (Array UInt8)
  | 0, _ => throw .truncated
  | limit + 1, m => do
    let (isLast, m) ← block most m
    if isLast then return m.output else blocks most limit m

/-! ### Frames -/

/-- The number in front of a frame. -/
def frameMark : Nat := 0xFD2FB528

/-- The numbers in front of what is passed over are sixteen from this one on. -/
def skipMark : Nat := 0x184D2A50

/-- The largest window that can be asked for. -/
def mostWindow : Nat := (1 <<< 27) + 1

/-- Takes the size of the window, in steps of an eighth between powers of two. -/
def window : ByteStep Nat := do
  let b ← ByteStep.number 1
  let power := 1 <<< (10 + b / 8)
  return power + power / 8 * (b % 8)

/-- Takes the size of what a frame stands for, if it is there. -/
def contentSize (isSingle : Bool) : (flag : Nat) → ByteStep (Option Nat)
  | 0 => if isSingle then some <$> ByteStep.number 1 else return none
  | 1 => (fun n => some (n + 256)) <$> ByteStep.number 2
  | 2 => some <$> ByteStep.number 4
  | _ => some <$> ByteStep.number 8

/-- The memory at the start of a frame. -/
def Memory.start : Memory := ⟨none, none, [1, 4, 8], #[]⟩

/-- Takes a frame behind its mark. There is no dictionary that it can ask for. -/
def frame : ByteStep (Array UInt8) := do
  let flags ← ByteStep.number 1
  ByteStep.require (flags / 8 % 2 = 0)
  let isSingle := flags.testBit 5
  let window ← if isSingle then pure none else some <$> window
  let dictionary ← ByteStep.number ([0, 1, 2, 4].getD (flags % 4) 0)
  let size ← contentSize isSingle (flags / 64)
  let window := (window <|> size).getD 0
  ByteStep.require (window ≤ mostWindow && dictionary = 0)
  let output ← blocks (min window mostBlock) ((← get).length + 1) Memory.start
  ByteStep.require (size.all (· = output.size))
  if flags.testBit 2 then
    let sum ← ByteStep.number 4
    ByteStep.require (sum = (LaneDigest.ofBytes output).toNat % (1 <<< 32))
  return output

/-- Whether bytes can begin like this number. -/
def canBegin (mark : Nat) (bytes : List UInt8) : Bool :=
  (bytes.take 4).zipIdx.all fun (b, i) => b.toNat = (mark >>> (8 * i)) % 256

/-- Takes frames. Each uses a byte, so the limit is never met. -/
def frames : (limit : Nat) → (output : Array UInt8) → ByteStep (Array UInt8)
  | 0, _ => throw .truncated
  | limit + 1, output => do
    let bytes ← get
    ByteStep.require
      (canBegin frameMark bytes || (List.range 16).any fun i => canBegin (skipMark + i) bytes)
    let output ←
      if (← ByteStep.number 4) = frameMark then pure (output ++ (← frame))
      else
        let _ ← ByteStep.bytes (← ByteStep.number 4)
        pure output
    if (← get).isEmpty then return output else frames limit output

/-- What bytes decompress to. -/
def decompress (bytes : List UInt8) : Except Stop (List UInt8) :=
  (fun output => output.toList) <$> (frames (bytes.length + 1) #[]).run' bytes

end DslBindings.StateCoding
