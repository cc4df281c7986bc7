import DslBindings.Archive.Entry

/-!
# The end of an archive

An archive ends with a record that says where its directory is. Where the numbers of this record are
too narrow, another record in front of it has them in 64 bits, and a locator between the two leads to
it. Archives can have something in front of them in their file: a place is first looked for where the
record says, and then behind that; how much later it turns up is where the archive starts.
-/

namespace DslBindings.Archive

/-- The record at the end of an archive. -/
structure EndRecord where
  /-- Where the record starts in the file. -/
  position : Nat
  disk : Nat
  directoryDisk : Nat
  /-- The number of entries on the disk of the record. -/
  count : Nat
  /-- The number of entries on all disks. -/
  total : Nat
  /-- Where the directory starts in the archive. -/
  directory : Nat
  deriving DecidableEq, Repr, Inhabited

/-- The locator of the record with numbers of 64 bits. -/
structure Locator where
  /-- Where the locator starts in the file. -/
  position : Nat
  directoryDisk : Nat
  /-- Where the record starts in the archive. -/
  record : Nat
  disks : Nat
  deriving DecidableEq, Repr, Inhabited

/-- The record with numbers of 64 bits. -/
structure WideEndRecord where
  /-- Where the record starts in the file. -/
  position : Nat
  /-- The version of the format that the archive is written in. -/
  written : Nat
  /-- The version of the format that it takes to read the archive. -/
  needed : Nat
  disk : Nat
  directoryDisk : Nat
  count : Nat
  total : Nat
  directory : Nat
  deriving DecidableEq, Repr, Inhabited

/-- Where the directory of an archive is. -/
structure Directory where
  /-- Where the archive starts in its file. -/
  archive : Nat
  /-- Where the directory starts in the archive. -/
  start : Nat
  /-- How many entries it lists. -/
  count : Nat
  deriving DecidableEq, Repr, Inhabited

/-- A file from each of its bytes on, and from its end on. -/
def suffixes : (file : List UInt8) → List (List UInt8)
  | [] => [[]]
  | b :: rest => (b :: rest) :: suffixes rest

/-- Whether a header with this mark could stand here. -/
def startsWith (number : Nat) (rest : List UInt8) : Bool := ((mark number).run rest).isSome

namespace EndRecord

/-- Reads the record at the end of an archive. Its comment has to be there as a whole. -/
def read (position : Nat) : ByteReader EndRecord := do
  mark 0x06054B50
  let disk ← ByteReader.u16le
  let directoryDisk ← ByteReader.u16le
  let count ← ByteReader.u16le
  let total ← ByteReader.u16le
  ByteReader.skip 4
  let directory ← ByteReader.u32le
  ByteReader.skip (← ByteReader.u16le)
  return { position, disk, directoryDisk, count, total, directory }

/-- The records in a file that look like the one at the end, the last one first. -/
def all (file : List UInt8) : List EndRecord :=
  ((suffixes file).zipIdx.filterMap fun (rest, position) =>
    ((read position).run rest).map (·.1)).reverse

/-- Whether the numbers of a record may be those that are too wide for it. -/
def isNarrow (r : EndRecord) : Bool := r.total = 0xFFFF || r.directory = 0xFFFFFFFF

/-- How many bytes a locator has. -/
def locatorLength : Nat := 20

/-- Reads a locator. -/
def readLocator (position : Nat) : ByteReader Locator := do
  mark 0x07064B50
  let directoryDisk ← ByteReader.u32le
  let record ← ByteReader.u64le
  let disks ← ByteReader.u32le
  return { position, directoryDisk, record, disks }

/-- The locator right in front of a record that needs one. -/
def locator? (file : List UInt8) (r : EndRecord) : Option Locator :=
  if r.isNarrow && locatorLength ≤ r.position then
    let position := r.position - locatorLength
    ((readLocator position).run (file.drop position)).map (·.1)
  else none

/-- Where the directory is by a record without a locator. -/
def directory? (file : List UInt8) (r : EndRecord) : Option Directory :=
  if r.disk ≠ r.directoryDisk then none
  else if r.total = 0 then some ⟨r.position - r.directory, r.directory, r.count⟩
  else if r.position ≤ r.directory then none
  else
    let places := suffixes ((file.take r.position).drop r.directory)
    (places.findIdx? (startsWith directoryMark)).map fun i => ⟨i, r.directory, r.count⟩

end EndRecord

namespace Locator

/-- Reads the record that a locator leads to. It ends where the locator starts. -/
def readRecord (l : Locator) (position : Nat) : ByteReader WideEndRecord := do
  mark 0x06064B50
  let length ← ByteReader.u64le
  ByteReader.require (44 ≤ length && position + 12 + length = l.position)
  let written ← ByteReader.u16le
  let needed ← ByteReader.u16le
  let disk ← ByteReader.u32le
  let directoryDisk ← ByteReader.u32le
  let count ← ByteReader.u64le
  let total ← ByteReader.u64le
  ByteReader.skip 8
  let directory ← ByteReader.u64le
  ByteReader.require (directoryDisk = l.directoryDisk && directory + total * 46 ≤ position)
  return { position, written, needed, disk, directoryDisk, count, total, directory }

/-- The record that a locator leads to: the first good one that is not in front of its place. -/
def record? (file : List UInt8) (l : Locator) : Option WideEndRecord :=
  if l.position ≤ l.record || 1 < l.disks then none
  else
    (suffixes ((file.take l.position).drop l.record)).zipIdx.findSome? fun (rest, i) =>
      ((l.readRecord (l.record + i)).run rest).map (·.1)

/-- Where the directory is by a locator. -/
def directory? (file : List UInt8) (l : Locator) : Option Directory := do
  let r ← l.record? file
  if r.total < r.count || r.written < r.needed || r.disk ≠ r.directoryDisk then none
  else some ⟨r.position - l.record, r.directory, r.total⟩

end Locator

namespace Directory

/-- Where the directory is that a record at the end leads to. -/
def find? (file : List UInt8) (r : EndRecord) : Option Directory :=
  match r.locator? file with
  | some l => l.directory? file
  | none => r.directory? file

/-- The entries of a directory, as it lists them. -/
def listed? (file : List UInt8) (d : Directory) : Option (List Entry) :=
  ((ByteReader.times (Entry.read d.archive) d.count).run (file.drop (d.archive + d.start))).map (·.1)

end Directory

end DslBindings.Archive
