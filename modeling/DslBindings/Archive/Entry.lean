import DslBindings.Archive.Checksum
import DslBindings.ByteReader
import DslBindings.Text.Lossy

/-!
# Entries of archives

What the directory of an archive says of an entry: a header of fixed fields, and behind the name
extra fields, each of which has a kind and a length. Extra fields of some kinds replace what the
header says: sizes and places that need 64 bits, texts in UTF-8, the method under encryption. Those
of a known kind have to be well formed, and are read by their structure and not by their length.
-/

namespace DslBindings.Archive

/-- How the data of an entry are encrypted. -/
inductive Encryption
  | none
  /-- By the flag in the header. -/
  | simple
  /-- By the extra field that tells how strong it is. -/
  | strong
  deriving DecidableEq, Repr, Inhabited

/-- What the directory says of an entry. -/
structure Entry where
  /-- The bytes of the name, by which entries are told apart. -/
  spelling : List UInt8
  name : String
  comment : String
  encryption : Encryption
  /-- The number of the method of compression. -/
  method : Nat
  checksum : UInt32
  size : Nat
  compressedSize : Nat
  /-- Where the header of the entry starts in the file. -/
  offset : Nat
  deriving DecidableEq, Repr, Inhabited

/-- Reads the number that marks a header. -/
def mark (number : Nat) : ByteReader Unit := do
  ByteReader.require ((← ByteReader.u32le) = number)

/-- The number that marks the header of an entry in the directory. -/
def directoryMark : Nat := 0x02014B50

/-- The text that these bytes are, in UTF-8 or else in the code page 437. -/
def textOf (isUtf8 : Bool) (bytes : List UInt8) : String :=
  if isUtf8 then Text.ofUtf8Lossy bytes else String.ofList (bytes.map Text.ofCodePage437)

namespace Entry

/-- The number in a header whose place an extra field takes. -/
def wideMark : Nat := 0xFFFFFFFF

/-- Reads a number in 64 bits, if the field has all of them or the header has none in its place. -/
def readWide (length narrow : Nat) : ByteReader Nat :=
  if 24 ≤ length || narrow = wideMark then ByteReader.u64le else pure narrow

/-- Reads the sizes and the place of an entry. -/
def readWideNumbers (length : Nat) (e : Entry) : ByteReader Entry := do
  let before := (← get).length
  let size ← readWide length e.size
  let compressedSize ← readWide length e.compressedSize
  let offset ← readWide length e.offset
  let used := before - (← get).length
  ByteReader.require (used ≤ length)
  ByteReader.skip (length - used)
  return { e with size, compressedSize, offset }

/-- Passes over three times of 64 bits. -/
def skipWideTimes (length : Nat) : ByteReader Unit := do
  ByteReader.require (length = 32)
  ByteReader.skip 4
  ByteReader.require ((← ByteReader.u16le) = 1)
  ByteReader.require ((← ByteReader.u16le) = 24)
  ByteReader.skip 24

/-- How many of the eight lowest bits of a number are set. -/
def bitCount (flags : Nat) : Nat := ((List.range 8).filter flags.testBit).length

/--
Passes over the times that are there by the flags. The length fits the flags, or else is that of one
time, and then this is the first one.
-/
def skipTimes (length : Nat) : ByteReader Unit := do
  let flags ← ByteReader.u8
  ByteReader.require (length = 5 || length = 1 + 4 * bitCount flags)
  if length = 5 then ByteReader.skip 4
  else ByteReader.skip (4 * bitCount (flags % 8))

/-- Reads a text in UTF-8 that takes the place of one with a certain checksum. -/
def readUnicode (length : Nat) (replaced : List UInt8) : ByteReader (List UInt8 × String) := do
  ByteReader.skip 1
  let checksum ← ByteReader.u32le
  ByteReader.require (5 ≤ length && Checksum.ofBytes replaced = UInt32.ofNat checksum)
  let bytes ← ByteReader.bytes (length - 5)
  let text ← Text.ofUtf8? bytes
  return (bytes, text)

/-- Reads the name in UTF-8. -/
def readName (length : Nat) (e : Entry) : ByteReader Entry := do
  let (spelling, name) ← readUnicode length e.spelling
  return { e with spelling, name }

/-- Reads the comment in UTF-8. -/
def readComment (length : Nat) (e : Entry) : ByteReader Entry := do
  let (_, comment) ← readUnicode length (Text.utf8 e.comment)
  return { e with comment }

/-- Reads the method of compression under the encryption. -/
def readEncryption (length : Nat) (e : Entry) : ByteReader Entry := do
  ByteReader.require (length = 7)
  let version ← ByteReader.u16le
  ByteReader.require (version = 1 || version = 2)
  ByteReader.require ((← ByteReader.u16le) = 0x4541)
  let strength ← ByteReader.u8
  ByteReader.require (1 ≤ strength && strength ≤ 3)
  let method ← ByteReader.u16le
  return { e with encryption := .strong, method }

/-- Reads an extra field of an entry. -/
def readField (e : Entry) : ByteReader Entry := do
  let kind ← ByteReader.u16le
  let length ← ByteReader.u16le
  match kind with
  | 0x0001 => readWideNumbers length e
  | 0x000A =>
    skipWideTimes length
    return e
  | 0x5455 =>
    skipTimes length
    return e
  | 0x6375 => readComment length e
  | 0x7075 => readName length e
  | 0x9901 => readEncryption length e
  | _ =>
    ByteReader.skip length
    return e

/--
Reads extra fields as long as there are bytes for the kind of another one. A field uses four bytes at
least, so the number of bytes is a limit that is never met.
-/
def readFields : (limit : Nat) → Entry → ByteReader Entry
  | 0, e => return e
  | limit + 1, e => do
    if (← get).length < 2 then return e
    readFields limit (← readField e)

/-- The number of the method that stands for an encrypted entry. -/
def encryptedMethod : Nat := 99

/-- Reads an entry of the directory of an archive that starts `start` bytes behind its file. -/
def read (start : Nat) : ByteReader Entry := do
  mark directoryMark
  ByteReader.skip 4
  let flags ← ByteReader.u16le
  let method ← ByteReader.u16le
  ByteReader.skip 4
  let checksum ← ByteReader.u32le
  let compressedSize ← ByteReader.u32le
  let size ← ByteReader.u32le
  let nameLength ← ByteReader.u16le
  let extraLength ← ByteReader.u16le
  let commentLength ← ByteReader.u16le
  ByteReader.skip 8
  let offset ← ByteReader.u32le
  let spelling ← ByteReader.bytes nameLength
  let extra ← ByteReader.bytes extraLength
  let comment ← ByteReader.bytes commentLength
  let isUtf8 := flags.testBit 11
  let header : Entry :=
    { spelling
      name := textOf isUtf8 spelling
      comment := textOf isUtf8 comment
      encryption := if flags.testBit 0 then .simple else .none
      method
      checksum := UInt32.ofNat checksum
      size
      compressedSize
      offset }
  let (e, _) ← (readFields extraLength header).run extra
  ByteReader.require (e.method ≠ encryptedMethod || e.encryption = .strong)
  ByteReader.require (start + e.offset < 1 <<< 64)
  return { e with offset := start + e.offset }

/-- Whether an entry stands for a directory. -/
def isDirectory (e : Entry) : Bool :=
  match e.name.toList.getLast? with
  | some c => c = '/' || c = '\\'
  | none => false

end Entry

end DslBindings.Archive
