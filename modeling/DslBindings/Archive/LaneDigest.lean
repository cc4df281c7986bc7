import DslBindings.Digest

/-!
# Digests in four lanes

The 64-bit digest with which data in an archive can be checked. Stripes of 32 bytes run through four
accumulators, and what is left is mixed in piece by piece.
-/

namespace DslBindings.LaneDigest

open Digest

/-- Rotates a number to the left. -/
def rotate (x n : UInt64) : UInt64 := (x <<< n) ||| (x >>> (64 - n))

/-- An accumulator with one more word. -/
def round (lane word : UInt64) : UInt64 := rotate (lane + word * prime64B) 31 * prime64A

/-- The accumulators before anything is mixed in. -/
def startLanes : Lanes := #[prime64A + prime64B, prime64B, 0, 0 - prime64A]

/-- The accumulators with one more stripe. -/
def addStripe (bytes : Bytes) (lanes : Lanes) (stripe : Nat) : Lanes :=
  lanes.mapIdx fun i lane => round lane (word bytes (32 * stripe + 8 * i))

/-- The digest of the accumulators. -/
def merge (lanes : Lanes) : UInt64 :=
  let lane (i : Nat) : UInt64 := lanes.getD i 0
  let sum := rotate (lane 0) 1 + rotate (lane 1) 7 + rotate (lane 2) 12 + rotate (lane 3) 18
  lanes.foldl (fun sum lane => (sum ^^^ round 0 lane) * prime64A + prime64D) sum

/-- The digest of the stripes alone. -/
def ofStripes (bytes : Bytes) : UInt64 :=
  if bytes.size < 32 then prime64E
  else merge ((List.range (bytes.size / 32)).foldl (addStripe bytes) startLanes)

/-- The digest with one more word. -/
def addWord (sum word : UInt64) : UInt64 := rotate (sum ^^^ round 0 word) 27 * prime64A + prime64D

/-- The digest with half a word. -/
def addHalf (sum half : UInt64) : UInt64 :=
  rotate (sum ^^^ (half * prime64A)) 23 * prime64B + prime64C

/-- The digest with one more byte. -/
def addByte (sum : UInt64) (b : UInt8) : UInt64 :=
  rotate (sum ^^^ (b.toUInt64 * prime64E)) 11 * prime64A

/-- The digest of a byte sequence. -/
def ofBytes (bytes : Bytes) : UInt64 :=
  let words := bytes.size / 8
  let sum := ofStripes bytes + length bytes
  let sum := (List.range' (words / 4 * 4) (words % 4)).foldl
    (fun sum i => addWord sum (word bytes (8 * i))) sum
  let start := 8 * words
  let hasHalf := start + 4 ≤ bytes.size
  let sum := if hasHalf then addHalf sum (half bytes start) else sum
  let start := if hasHalf then start + 4 else start
  avalancheShort ((bytes.toList.drop start).foldl addByte sum)

end DslBindings.LaneDigest
