import DslBindings.Archive.PrefixCode

/-!
# Undoing the sorting of blocks

Data in blocks, each of which is the last column of its sorted rotations. A column is written as
places in a list of bytes in which the byte of each place moves to the front, with runs of the first
place written as numbers, in several prefix codes that take turns.
-/

namespace DslBindings.BlockSorting

open Decompression PrefixCode

/-- The longest length of a code word. -/
def longest : Nat := 20

/-- How many symbols are taken in one code before the next one has its turn. -/
def groupSize : Nat := 50

/-- The most groups that a block can have. -/
def mostGroups : Nat := 18002

/-- How many bytes of a block stay as they are, if some of them are changed. -/
def unchanged : Nat := 617

/-- The number of bytes that the sizes of blocks are multiples of. -/
def blockUnit : Nat := 100000

/-! ### Checksums -/

/-- Divides by the polynomial, one bit further. -/
def shiftSum (sum : UInt32) : UInt32 :=
  if sum &&& 0x80000000 = 0 then sum <<< 1 else (sum <<< 1) ^^^ 0x04C11DB7

/-- The checksum with one more byte. -/
def sumStep (sum : UInt32) (b : UInt8) : UInt32 :=
  Nat.repeat shiftSum 8 (sum ^^^ (b.toUInt32 <<< 24))

/-- The checksum of a block. It starts with the highest bit of each byte. -/
def checksum (block : Array UInt8) : UInt32 := ~~~ block.foldl sumStep 0xFFFFFFFF

/-- The checksum of all blocks with one more. -/
def addSum (all block : UInt32) : UInt32 := ((all <<< 1) ||| (all >>> 31)) ^^^ block

/-! ### Sorted rotations -/

/-- The places of a column in the order of their bytes, and of equal bytes in their own order. -/
def sortedPlaces (column : Array UInt8) : Array Nat :=
  ((List.range column.size).mergeSort fun i j => column.getD i 0 ≤ column.getD j 0).toArray

/-- The bytes of a column in the order in which the sorted places lead from one to the next. -/
def walk (column : Array UInt8) (places : Array Nat) :
    (count : Nat) → (place : Nat) → (done : Array UInt8) → Array UInt8
  | 0, _, done => done
  | n + 1, place, done =>
    let next := places.getD place 0
    walk column places n next (done.push (column.getD next 0))

/-- The bytes of which the rotation in a row has this last column when all are sorted. -/
def ofColumn (column : Array UInt8) (row : Nat) : Array UInt8 :=
  walk column (sortedPlaces column) column.size row #[]

/-! ### Runs -/

/-- How many equal bytes are followed by the number of more such bytes. -/
def runStart : Nat := 4

/--
Writes runs out. `equal` bytes that are the same as `last` come before. A block that ends where a
number is due is none.
-/
def writeRuns (last : UInt8) (equal : Nat) (done : Array UInt8) :
    List UInt8 → Option (Array UInt8)
  | [] => if equal = runStart then none else some done
  | b :: rest =>
    if equal = runStart then
      writeRuns last 0 (done ++ Array.replicate b.toNat last) rest
    else
      writeRuns b (if b = last then equal + 1 else 1) (done.push b) rest

/-! ### Symbols -/

/-- Takes bits that tell which of so many things are there. -/
def flags : (count : Nat) → Step (List Bool)
  | 0 => return []
  | n + 1 => do
    let isThere := (← bit) = 1
    return isThere :: (← flags n)

/-- Takes the bytes that occur in a block. -/
def alphabet : Step (List UInt8) := do
  let rows ← flags 16
  let used ← rows.mapM fun isThere => if isThere then flags 16 else return List.replicate 16 false
  return (used.flatten.zipIdx.filter (·.1)).map fun (_, i) => UInt8.ofNat i

/-- Takes the number of ones up to a zero. It has to be smaller than the limit. -/
def ones : (limit : Nat) → Step Nat
  | 0 => throw .corrupt
  | limit + 1 => do
    if (← bit) = 0 then return 0
    return (← ones limit) + 1

/-- Takes the numbers of the codes that take turns. -/
def turns : (count : Nat) → (order : List Nat) → (done : Array Nat) → Step (List Nat)
  | 0, _, done => return done.toList
  | n + 1, order, done => do
    match movedToFront order (← ones order.length) with
    | some (code, order) => turns n order (done.push code)
    | none => throw .corrupt

/-- Takes steps that change a length. Each uses a bit, so the limit is never met. -/
def lengthFrom (length : Nat) : (limit : Nat) → Step Nat
  | 0 => throw .truncated
  | limit + 1 => do
    if length < 1 || longest < length then throw .corrupt
    if (← bit) = 0 then return length
    if (← bit) = 0 then lengthFrom (length + 1) limit else lengthFrom (length - 1) limit

/-- Takes a number of lengths, each by its difference from the one before. -/
def lengthsFrom (length : Nat) : (count : Nat) → Step (List Nat)
  | 0 => return []
  | n + 1 => do
    let length ← lengthFrom length ((← get).bits.length + 1)
    return length :: (← lengthsFrom length n)

/-- Takes a prefix code for so many symbols. That no word fits shows one bit behind the longest. -/
def prefixCode (symbols : Nat) : Step PrefixCode := do
  return ofLengths (← lengthsFrom (← word 5) symbols) (longest + 1)

/-- Takes a number of prefix codes for so many symbols each. -/
def prefixCodes (symbols : Nat) : (count : Nat) → Step (List PrefixCode)
  | 0 => return []
  | n + 1 => do
    let code ← prefixCode symbols
    return code :: (← prefixCodes symbols n)

/-- A block while its column is taken. -/
structure Column where
  /-- The codes of the groups from the current one on. -/
  codes : List PrefixCode
  /-- How many symbols of the current group are left. -/
  left : Nat
  /-- The bytes that occur, the last one first. -/
  order : List UInt8
  /-- The length of the run that is being taken. -/
  run : Nat
  /-- What the next symbol of the run counts for. -/
  weight : Nat
  bytes : Array UInt8

namespace Column

/-- The column with the run behind the bytes, if this leaves it small enough. -/
def endRun (c : Column) (most : Nat) : Step Column :=
  if most < c.bytes.size + c.run then throw .corrupt
  else
    return { c with
      bytes := c.bytes ++ Array.replicate c.run (c.order.headD 0), run := 0, weight := 1 }

/-- Takes a symbol in the code that has its turn. -/
def takeSymbol (c : Column) : Step (Nat × Column) := do
  let codes := if c.left = 0 then c.codes.tail else c.codes
  match codes with
  | [] => throw .corrupt
  | code :: _ =>
    return (← symbol code, { c with codes, left := (if c.left = 0 then groupSize else c.left) - 1 })

/-- The column with a longer run. Each symbol of a run counts for twice as much as the one before. -/
def extendRun (c : Column) (bit : Nat) : Step Column :=
  if 1 <<< 21 ≤ c.weight then throw .corrupt
  else return { c with run := c.run + (1 + bit) * c.weight, weight := 2 * c.weight }

/-- Takes symbols up to the end of the block. Each uses a bit, so the limit is never met. -/
def take (most symbolCount : Nat) : (limit : Nat) → Column → Step (Array UInt8)
  | 0, _ => throw .truncated
  | limit + 1, c => do
    let (s, c) ← c.takeSymbol
    if s < 2 then take most symbolCount limit (← c.extendRun s)
    else
      let c ← c.endRun most
      if s = symbolCount - 1 then return c.bytes
      match movedToFront c.order (s - 1) with
      | none => throw .corrupt
      | some (b, order) =>
        if most ≤ c.bytes.size then throw .corrupt
        take most symbolCount limit { c with order, bytes := c.bytes.push b }

end Column

/-- Takes the column of a block of at most so many bytes. -/
def column (most : Nat) : Step (Array UInt8) := do
  let bytes ← alphabet
  if bytes.isEmpty then throw .corrupt
  let symbolCount := bytes.length + 2
  let codeCount ← word 3
  if codeCount < 2 || 6 < codeCount then throw .corrupt
  let turnCount ← word 15
  if turnCount = 0 then throw .corrupt
  let turns ← turns turnCount (List.range codeCount) #[]
  let codes ← prefixCodes symbolCount codeCount
  let codes := (turns.take mostGroups).map fun i => codes.getD i []
  let start : Column :=
    { codes := [] :: codes, left := 0, order := bytes, run := 0, weight := 1, bytes := #[] }
  start.take most symbolCount ((← get).bits.length + 1)

/--
Takes a block, and gives its checksum. A block can have some of its bytes changed from the first
place of a change on. Longer blocks of this kind are not known.
-/
def block (most : Nat) : Step UInt32 := do
  let sum ← word 32
  let isChanged := (← bit) = 1
  let row ← word 24
  if most + 10 < row then throw .corrupt
  let column ← column most
  if column.size ≤ row then throw .corrupt
  if isChanged && unchanged < column.size then throw .corrupt
  match writeRuns 0 0 #[] (ofColumn column row).toList with
  | none => throw .corrupt
  | some bytes =>
    if (checksum bytes).toNat ≠ sum then throw .corrupt
    modify fun s => { s with output := s.output ++ bytes }
    return UInt32.ofNat sum

/-- Takes blocks up to the end, which has the checksum of all. The limit is never met. -/
def blocks (most : Nat) : (limit : Nat) → (sum : UInt32) → Step Unit
  | 0, _ => throw .truncated
  | limit + 1, sum => do
    match ← word 8 with
    | 0x31 =>
      mark [0x41, 0x59, 0x26, 0x53, 0x59]
      blocks most limit (addSum sum (← block most))
    | 0x17 =>
      mark [0x72, 0x45, 0x38, 0x50, 0x90]
      if (← word 32) ≠ sum.toNat then throw .corrupt
    | _ => throw .corrupt

/-- Takes the header and the blocks. -/
def stream : Step Unit := do
  mark [0x42, 0x5A, 0x68]
  let size ← word 8
  if size < 0x31 || 0x39 < size then throw .corrupt
  blocks ((size - 0x30) * blockUnit) ((← get).bits.length + 1) 0

/-- What bytes decompress to. What follows the last block does not matter. -/
def decompress (bytes : List UInt8) : Except Stop (List UInt8) :=
  stream.outputOf (bitsDownwards bytes)

end DslBindings.BlockSorting
