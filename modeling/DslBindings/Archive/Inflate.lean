import DslBindings.Archive.PrefixCode

/-!
# Inflating

Data that are blocks of literal bytes and of references to what was put out before, either as they
are or in prefix codes.
-/

namespace DslBindings.Inflate

open Decompression PrefixCode

/-- What the symbols for references stand for. -/
structure References where
  /-- The least length of each symbol, and how many bits add to it. -/
  lengths : List (Nat × Nat)
  /-- The least distance of each symbol, and how many bits add to it. -/
  distances : List (Nat × Nat)

/-- The least distances up to 24577, and how many bits add to them. -/
def nearDistances : List (Nat × Nat) :=
  [(1, 0), (2, 0), (3, 0), (4, 0), (5, 1), (7, 1), (9, 2), (13, 2), (17, 3), (25, 3), (33, 4),
   (49, 4), (65, 5), (97, 5), (129, 6), (193, 6), (257, 7), (385, 7), (513, 8), (769, 8), (1025, 9),
   (1537, 9), (2049, 10), (3073, 10), (4097, 11), (6145, 11), (8193, 12), (12289, 12), (16385, 13),
   (24577, 13)]

/-- The least lengths up to 227, and how many bits add to them. -/
def shortLengths : List (Nat × Nat) :=
  [(3, 0), (4, 0), (5, 0), (6, 0), (7, 0), (8, 0), (9, 0), (10, 0), (11, 1), (13, 1), (15, 1),
   (17, 1), (19, 2), (23, 2), (27, 2), (31, 2), (35, 3), (43, 3), (51, 3), (59, 3), (67, 4), (83, 4),
   (99, 4), (115, 4), (131, 5), (163, 5), (195, 5), (227, 5)]

/-- The references to a window of 32 KiB. The last length has a symbol of its own. -/
def References.near : References := ⟨shortLengths ++ [(258, 0)], nearDistances⟩

/-- The references to a window of 64 KiB. The last symbol is for lengths of 16 bits. -/
def References.far : References :=
  ⟨shortLengths ++ [(3, 16)], nearDistances ++ [(32769, 14), (49153, 14)]⟩

/-- The longest length of a code word. -/
def longest : Nat := 15

/-- The code in which the symbols have these lengths, up to the longest one that there is. -/
def codeOfLengths (lengths : List Nat) : PrefixCode := ofLengths lengths (lengths.foldl max 0)

/-- Whether a code leaves no sequence of bits without a meaning, and none with two. -/
def isComplete (code : PrefixCode) : Bool := covered longest code = 1 <<< longest

/--
A code with no code word but one of a single bit, or with none at all, can do without a meaning for
the rest, as long as no bit asks for it.
-/
def isSingle (code : PrefixCode) : Bool :=
  match code with
  | [] => true
  | [symbols] => symbols.length = 1
  | _ => false

/-- Takes what adds to the least value of a symbol. -/
def extended (table : List (Nat × Nat)) (symbol : Nat) : Step Nat := do
  match table[symbol]? with
  | some (least, width) => return least + (← number width)
  | none => throw .corrupt

/-- The symbol that ends a block. -/
def endOfBlock : Nat := 256

/-- Takes symbols up to the end of a block. Each uses a bit, so the limit is never met. -/
def symbols (r : References) (literalCode distanceCode : PrefixCode) : (limit : Nat) → Step Unit
  | 0 => throw .truncated
  | limit + 1 => do
    let s ← symbol literalCode
    if s < endOfBlock then
      put (UInt8.ofNat s)
      symbols r literalCode distanceCode limit
    else if s = endOfBlock then return ()
    else
      let length ← extended r.lengths (s - endOfBlock - 1)
      let distance ← extended r.distances (← symbol distanceCode)
      copy distance length
      symbols r literalCode distanceCode limit

/-- Takes a block of code words. -/
def codedBlock (r : References) (literalCode distanceCode : PrefixCode) : Step Unit := do
  symbols r literalCode distanceCode ((← get).bits.length + 1)

/-- Takes a number of bytes. -/
def literalBytes : (count : Nat) → Step Unit
  | 0 => return ()
  | n + 1 => do
    put (UInt8.ofNat (← number 8))
    literalBytes n

/-- Takes a block of bytes as they are. -/
def plainBlock : Step Unit := do
  align
  let length ← number 16
  let complement ← number 16
  if length + complement = 0xFFFF then literalBytes length else throw .corrupt

/-- The lengths of the code words for literals in a block with the fixed codes. -/
def fixedLiterals : List Nat :=
  List.replicate 144 8 ++ List.replicate 112 9 ++ List.replicate 24 7 ++ List.replicate 8 8

/-- Takes a block in the fixed codes. -/
def fixedBlock (r : References) : Step Unit :=
  codedBlock r (codeOfLengths fixedLiterals) (codeOfLengths (List.replicate 32 5))

/-- The order in which the lengths of the code for lengths are written. -/
def lengthOrder : List Nat := [16, 17, 18, 0, 8, 7, 9, 6, 10, 5, 11, 4, 12, 3, 13, 2, 14, 1, 15]

/-- Takes the code for lengths, of which so many are written. If none is used, any bit is a zero. -/
def lengthCode (count : Nat) : Step PrefixCode := do
  let written ← (lengthOrder.take count).mapM fun s => return (s, ← number 3)
  let code := codeOfLengths ((List.range 19).map fun s => (written.lookup s).getD 0)
  if code.isEmpty then return [[0, 0]]
  else if isComplete code then return code
  else throw .corrupt

/-- Takes lengths until there are `count` of them. Those that there are come last one first. -/
def lengthsUpTo (code : PrefixCode) (count : Nat) :
    (limit : Nat) → (done : List Nat) → Step (List Nat)
  | 0, _ => throw .corrupt
  | limit + 1, done => do
    if count < done.length then throw .corrupt
    if done.length = count then return done.reverse
    let s ← symbol code
    if s < 16 then lengthsUpTo code count limit (s :: done)
    else if s = 16 then
      let repetitions := 3 + (← number 2)
      match done with
      | [] => throw .corrupt
      | last :: _ => lengthsUpTo code count limit (List.replicate repetitions last ++ done)
    else
      let zeros ← if s = 17 then (3 + ·) <$> number 3 else (11 + ·) <$> number 7
      lengthsUpTo code count limit (List.replicate zeros 0 ++ done)

/-- The code in which symbols have written lengths. If none is used, no bit makes sense. -/
def writtenCode (lengths : List Nat) : Step PrefixCode :=
  let code := codeOfLengths lengths
  if code.isEmpty then return [[]]
  else if isComplete code || isSingle code then return code
  else throw .corrupt

/-- Takes a block with codes of its own. There has to be a code word that ends it. -/
def dynamicBlock (r : References) : Step Unit := do
  let literals := 257 + (← number 5)
  let distances := 1 + (← number 5)
  let lengthCount := 4 + (← number 4)
  if 286 < literals || r.distances.length < distances then throw .corrupt
  let code ← lengthCode lengthCount
  let all ← lengthsUpTo code (literals + distances) (literals + distances + 1) []
  if all.getD endOfBlock 0 = 0 then throw .corrupt
  codedBlock r (← writtenCode (all.take literals)) (← writtenCode (all.drop literals))

/-- Takes blocks up to the last one. Each uses a bit, so the limit is never met. -/
def blocks (r : References) : (limit : Nat) → Step Unit
  | 0 => throw .truncated
  | limit + 1 => do
    let isLast ← bit
    match ← number 2 with
    | 0 => plainBlock
    | 1 => fixedBlock r
    | 2 => dynamicBlock r
    | _ => throw .corrupt
    if isLast = 1 then return () else blocks r limit

/-- What bytes decompress to. What follows the last block does not matter. -/
def decompress (r : References) (bytes : List UInt8) : Except Stop (List UInt8) :=
  let bits := bitsUpwards bytes
  (blocks r (bits.length + 1)).outputOf bits

end DslBindings.Inflate
