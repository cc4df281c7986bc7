import DslBindings.CacheKey

/-!
# Digests of cache keys

The 128-bit digest XXH3 of a byte sequence, without a seed. Short sequences are mixed in whole; long
ones run through eight accumulators, in stripes of 64 bytes and blocks of 16 stripes.
-/

namespace DslBindings

namespace Digest

/-- A byte sequence with a position for each byte. -/
abbrev Bytes := Array UInt8

/-- The constants that input bytes are mixed with. -/
def secret : Bytes :=
  #[
    0xb8, 0xfe, 0x6c, 0x39, 0x23, 0xa4, 0x4b, 0xbe, 0x7c, 0x01, 0x81, 0x2c, 0xf7, 0x21, 0xad, 0x1c,
    0xde, 0xd4, 0x6d, 0xe9, 0x83, 0x90, 0x97, 0xdb, 0x72, 0x40, 0xa4, 0xa4, 0xb7, 0xb3, 0x67, 0x1f,
    0xcb, 0x79, 0xe6, 0x4e, 0xcc, 0xc0, 0xe5, 0x78, 0x82, 0x5a, 0xd0, 0x7d, 0xcc, 0xff, 0x72, 0x21,
    0xb8, 0x08, 0x46, 0x74, 0xf7, 0x43, 0x24, 0x8e, 0xe0, 0x35, 0x90, 0xe6, 0x81, 0x3a, 0x26, 0x4c,
    0x3c, 0x28, 0x52, 0xbb, 0x91, 0xc3, 0x00, 0xcb, 0x88, 0xd0, 0x65, 0x8b, 0x1b, 0x53, 0x2e, 0xa3,
    0x71, 0x64, 0x48, 0x97, 0xa2, 0x0d, 0xf9, 0x4e, 0x38, 0x19, 0xef, 0x46, 0xa9, 0xde, 0xac, 0xd8,
    0xa8, 0xfa, 0x76, 0x3f, 0xe3, 0x9c, 0x34, 0x3f, 0xf9, 0xdc, 0xbb, 0xc7, 0xc7, 0x0b, 0x4f, 0x1d,
    0x8a, 0x51, 0xe0, 0x4b, 0xcd, 0xb4, 0x59, 0x31, 0xc8, 0x9f, 0x7e, 0xc9, 0xd9, 0x78, 0x73, 0x64,
    0xea, 0xc5, 0xac, 0x83, 0x34, 0xd3, 0xeb, 0xc3, 0xc5, 0x81, 0xa0, 0xff, 0xfa, 0x13, 0x63, 0xeb,
    0x17, 0x0d, 0xdd, 0x51, 0xb7, 0xf0, 0xda, 0x49, 0xd3, 0x16, 0x55, 0x26, 0x29, 0xd4, 0x68, 0x9e,
    0x2b, 0x16, 0xbe, 0x58, 0x7d, 0x47, 0xa1, 0xfc, 0x8f, 0xf8, 0xb8, 0xd1, 0x7a, 0xd0, 0x31, 0xce,
    0x45, 0xcb, 0x3a, 0x8f, 0x95, 0x16, 0x04, 0x28, 0xaf, 0xd7, 0xfb, 0xca, 0xbb, 0x4b, 0x40, 0x7e
  ]

def prime32A : UInt64 := 0x9E3779B1
def prime32B : UInt64 := 0x85EBCA77
def prime32C : UInt64 := 0xC2B2AE3D
def prime64A : UInt64 := 0x9E3779B185EBCA87
def prime64B : UInt64 := 0xC2B2AE3D27D4EB4F
def prime64C : UInt64 := 0x165667B19E3779F9
def prime64D : UInt64 := 0x85EBCA77C2B2AE63
def prime64E : UInt64 := 0x27D4EB2F165667C5
def primeMixA : UInt64 := 0x165667919E3779F9
def primeMixB : UInt64 := 0x9FB21C651E98DF25

/-- The number whose little-endian form is the `count` bytes at a position. -/
def number (bytes : Bytes) (start : Nat) : (count : Nat) → UInt64
  | 0 => 0
  | count + 1 => (bytes.getD start 0).toUInt64 ||| (number bytes (start + 1) count <<< 8)

/-- The 64-bit number at a position. -/
def word (bytes : Bytes) (start : Nat) : UInt64 := number bytes start 8

/-- The 32-bit number at a position. -/
def half (bytes : Bytes) (start : Nat) : UInt64 := number bytes start 4

/-- The exclusive or of two neighbouring words of the secret. -/
def secretPair (start : Nat) : UInt64 := word secret start ^^^ word secret (start + 8)

/-- The first `count` bytes of a number in the opposite order. -/
def reverseBytes (x : UInt64) : (count : Nat) → UInt64
  | 0 => 0
  | count + 1 => ((x &&& 0xFF) <<< UInt64.ofNat (8 * count)) ||| reverseBytes (x >>> 8) count

/-- The low 32 bits of a number. -/
def lowHalf (x : UInt64) : UInt64 := x &&& 0xFFFFFFFF

/-- The high 32 bits of a number. -/
def highHalf (x : UInt64) : UInt64 := x >>> 32

/-- Rotates a 32-bit number to the left. -/
def rotate32 (x : UInt64) (n : UInt64) : UInt64 := lowHalf ((x <<< n) ||| (x >>> (32 - n)))

/-- Mixes the high bits of a number into its low ones. -/
def shiftMix (x n : UInt64) : UInt64 := x ^^^ (x >>> n)

/-- Spreads every bit of a number over all. -/
def avalanche (x : UInt64) : UInt64 :=
  let x := shiftMix x 37 * primeMixA
  shiftMix x 32

/-- Spreads every bit of the state of a very short input over all. -/
def avalancheShort (x : UInt64) : UInt64 :=
  let x := shiftMix x 33 * prime64B
  let x := shiftMix x 29 * prime64C
  shiftMix x 32

/-- A 128-bit number. -/
structure Wide where
  low : UInt64
  high : UInt64
  deriving DecidableEq, Repr, Inhabited

/-- The whole product of two numbers. -/
def product (a b : UInt64) : Wide :=
  let p := a.toNat * b.toNat
  ⟨UInt64.ofNat p, UInt64.ofNat (p >>> 64)⟩

/-- The exclusive or of both halves of a product. -/
def foldedProduct (a b : UInt64) : UInt64 :=
  let p := product a b
  p.low ^^^ p.high

/-- The length of a sequence. -/
def length (bytes : Bytes) : UInt64 := UInt64.ofNat bytes.size

/-- The digest of no byte. -/
def ofNone : Wide := ⟨avalancheShort (secretPair 64), avalancheShort (secretPair 80)⟩

/-- The digest of 1 to 3 bytes. -/
def ofUpTo3 (bytes : Bytes) : Wide :=
  let at' (i : Nat) : UInt64 := (bytes.getD i 0).toUInt64
  let low := (at' 0 <<< 16) ||| (at' (bytes.size / 2) <<< 24) ||| at' (bytes.size - 1)
    ||| (length bytes <<< 8)
  let high := rotate32 (reverseBytes low 4) 13
  ⟨avalancheShort (low ^^^ (half secret 0 ^^^ half secret 4)),
    avalancheShort (high ^^^ (half secret 8 ^^^ half secret 12))⟩

/-- The digest of 4 to 8 bytes. -/
def ofUpTo8 (bytes : Bytes) : Wide :=
  let input := half bytes 0 + (half bytes (bytes.size - 4) <<< 32)
  let p := product (input ^^^ secretPair 16) (prime64A + (length bytes <<< 2))
  let high := p.high + (p.low <<< 1)
  let low := p.low ^^^ (high >>> 3)
  let low := shiftMix low 35 * primeMixB
  ⟨shiftMix low 28, avalanche high⟩

/-- The digest of 9 to 16 bytes. -/
def ofUpTo16 (bytes : Bytes) : Wide :=
  let first := word bytes 0
  let last := word bytes (bytes.size - 8)
  let p := product (first ^^^ last ^^^ secretPair 32) prime64A
  let low := p.low + ((length bytes - 1) <<< 54)
  let last := last ^^^ secretPair 48
  let high := p.high + last + lowHalf last * (prime32B - 1)
  let q := product (low ^^^ reverseBytes high 8) prime64B
  ⟨avalanche q.low, avalanche (q.high + high * prime64B)⟩

/-- Mixes 16 bytes with 16 bytes of the secret. -/
def mix16 (bytes : Bytes) (start key : Nat) : UInt64 :=
  foldedProduct (word bytes start ^^^ word secret key) (word bytes (start + 8) ^^^ word secret (key + 8))

/-- Mixes twice 16 bytes into the state, with 32 bytes of the secret. -/
def mix32 (bytes : Bytes) (state : Wide) (first second key : Nat) : Wide :=
  ⟨(state.low + mix16 bytes first key) ^^^ (word bytes second + word bytes (second + 8)),
    (state.high + mix16 bytes second (key + 16)) ^^^ (word bytes first + word bytes (first + 8))⟩

/-- The digest that the state of a middle-sized input gives. -/
def finish (bytes : Bytes) (state : Wide) : Wide :=
  ⟨avalanche (state.low + state.high),
    0 - avalanche (state.low * prime64A + state.high * prime64D + length bytes * prime64B)⟩

/-- The state before anything is mixed in. -/
def start (bytes : Bytes) : Wide := ⟨length bytes * prime64A, 0⟩

/-- The digest of 17 to 128 bytes, mixed in from the middle to both ends. -/
def ofUpTo128 (bytes : Bytes) : Wide :=
  let rounds := (bytes.size - 1) / 32 + 1
  finish bytes <| (List.range rounds).reverse.foldl
    (fun state i => mix32 bytes state (16 * i) (bytes.size - 16 * (i + 1)) (32 * i)) (start bytes)

/-- The digest of 129 to 240 bytes. -/
def ofUpTo240 (bytes : Bytes) : Wide :=
  let state := (List.range 4).foldl
    (fun state i => mix32 bytes state (32 * i) (32 * i + 16) (32 * i)) (start bytes)
  let state : Wide := ⟨avalanche state.low, avalanche state.high⟩
  let state := (List.range (bytes.size / 32 - 4)).foldl
    (fun state i => mix32 bytes state (32 * (i + 4)) (32 * (i + 4) + 16) (3 + 32 * i)) state
  finish bytes (mix32 bytes state (bytes.size - 16) (bytes.size - 32) 103)

/-- The state of a long input: eight accumulators. -/
abbrev Lanes := Array UInt64

/-- The accumulators before anything is mixed in. -/
def startLanes : Lanes :=
  #[prime32C, prime64A, prime64B, prime64C, prime64D, prime32B, prime64E, prime32A]

/-- Mixes a stripe of 64 bytes into the accumulators. Each word also goes to the other of its pair. -/
def accumulate (bytes : Bytes) (position key : Nat) (lanes : Lanes) : Lanes :=
  let value (i : Nat) : UInt64 := word bytes (position + 8 * i)
  lanes.mapIdx fun i x =>
    let mixed := value i ^^^ word secret (key + 8 * i)
    x + value (i ^^^ 1) + lowHalf mixed * highHalf mixed

/-- Stirs the accumulators at the end of a block. -/
def scramble (lanes : Lanes) : Lanes :=
  lanes.mapIdx fun i x => (shiftMix x 47 ^^^ word secret (128 + 8 * i)) * prime32A

/-- The number of stripes of a block. -/
def blockStripes : Nat := 16

/-- Mixes `count` stripes from a position on into the accumulators. -/
def accumulateMany (bytes : Bytes) (position count : Nat) (lanes : Lanes) : Lanes :=
  (List.range count).foldl (fun lanes i => accumulate bytes (position + 64 * i) (8 * i) lanes) lanes

/-- One half of a digest: the accumulators folded together. -/
def merge (lanes : Lanes) (key : Nat) (first : UInt64) : UInt64 :=
  avalanche <| (List.range 4).foldl (fun sum i =>
    sum + foldedProduct (lanes.getD (2 * i) 0 ^^^ word secret (key + 16 * i))
      (lanes.getD (2 * i + 1) 0 ^^^ word secret (key + 16 * i + 8))) first

/-- The digest of more than 240 bytes. -/
def ofLong (bytes : Bytes) : Wide :=
  let blockSize := 64 * blockStripes
  let blocks := (bytes.size - 1) / blockSize
  let lanes := (List.range blocks).foldl
    (fun lanes b => scramble (accumulateMany bytes (blockSize * b) blockStripes lanes)) startLanes
  let stripes := (bytes.size - 1 - blockSize * blocks) / 64
  let lanes := accumulateMany bytes (blockSize * blocks) stripes lanes
  let lanes := accumulate bytes (bytes.size - 64) 121 lanes
  ⟨merge lanes 11 (length bytes * prime64A),
    merge lanes 117 ((length bytes * prime64B) ^^^ 0xFFFFFFFFFFFFFFFF)⟩

/-- The digest of a byte sequence. -/
def ofBytes (bytes : Bytes) : Wide :=
  if bytes.size = 0 then ofNone
  else if bytes.size ≤ 3 then ofUpTo3 bytes
  else if bytes.size ≤ 8 then ofUpTo8 bytes
  else if bytes.size ≤ 16 then ofUpTo16 bytes
  else if bytes.size ≤ 128 then ofUpTo128 bytes
  else if bytes.size ≤ 240 then ofUpTo240 bytes
  else ofLong bytes

/-- A number in `count` hexadecimal digits. -/
def hex (x : Nat) : (count : Nat) → List Char
  | 0 => []
  | count + 1 => hex (x / 16) count ++ [Nat.digitChar (x % 16)]

/-- A digest in 32 hexadecimal digits. -/
def Wide.toHex (d : Wide) : String :=
  String.ofList (hex d.high.toNat 16 ++ hex d.low.toNat 16)

end Digest

/-- The name of the directory of a cache key: its label and the digest of the whole key. -/
def CacheKey.directoryName (key : CacheKey) : String :=
  key.label ++ "-" ++ (Digest.ofBytes (Text.utf8 key.toText).toArray).toHex

end DslBindings
