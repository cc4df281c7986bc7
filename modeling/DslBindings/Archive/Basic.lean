import DslBindings.Archive.BlockSorting
import DslBindings.Archive.Chunked
import DslBindings.Archive.EndRecord
import DslBindings.Archive.Inflate
import DslBindings.Archive.Method
import DslBindings.Archive.StateCoding

/-!
# Archives

The entries of an archive, and the data of an entry. The last record at the end of an archive that
leads to a directory without faults decides which entries there are. To open an entry takes only that
its header is there, that its method is a known one, and that it is not encrypted; what its data are
shows when they are read.
-/

namespace DslBindings

/--
What data that are compressed with a method stand for, if these are so many bytes. How data are
`predicted` is not known.
-/
def Compression.decompress (method : Compression) (size : Nat) (data : List UInt8) :
    Except Decompression.Stop (List UInt8) :=
  match method with
  | .stored => .ok data
  | .deflated => Inflate.decompress .near data
  | .deflated64 => Inflate.decompress .far data
  | .blockSorted => BlockSorting.decompress data
  | .rangeCoded => ChainCoding.decompress size data
  | .stateCoded => StateCoding.decompress data
  | .chunked => Chunked.decompress data
  | .predicted => if data.length < 2 then .error .truncated else .error .corrupt

namespace Archive

/-- Entries with one more. An entry takes the place of the one that has its name. -/
def addEntry (entries : List Entry) (e : Entry) : List Entry :=
  if entries.any (·.spelling = e.spelling) then
    entries.map fun f => if f.spelling = e.spelling then e else f
  else entries ++ [e]

/-- The entries of an archive. -/
def entries? (file : List UInt8) : Option (List Entry) :=
  ((EndRecord.all file).findSome? fun r => do (← Directory.find? file r).listed? file).map
    (·.foldl addEntry [])

namespace Entry

/-- Reads the header in front of the data of an entry. It tells how much lies between the two. -/
def readHeader : ByteReader Nat := do
  mark 0x04034B50
  ByteReader.skip 22
  let nameLength ← ByteReader.u16le
  let extraLength ← ByteReader.u16le
  return nameLength + extraLength

/-- The method of an entry and its compressed data, if it can be opened. They can end with the file. -/
def data? (file : List UInt8) (e : Entry) : Option (Compression × List UInt8) := do
  guard (e.encryption = .none)
  let method ← Compression.ofNumber? e.method
  let (between, rest) ← readHeader.run (file.drop e.offset)
  return (method, (rest.drop between).take e.compressedSize)

/-- Why the data of an entry cannot be had. -/
inductive DataError
  /-- The data end too early. -/
  | truncated
  /-- The data are not what the method makes. -/
  | corrupt (method : Compression)
  /-- The data do not have the checksum of the entry. -/
  | checksum
  deriving DecidableEq, Repr, Inhabited

/-- The failure of a method. The end of data in a window of 64 KiB is as bad as any other fault. -/
def DataError.ofStop (method : Compression) : Decompression.Stop → DataError
  | .truncated => if method = .deflated64 then .corrupt method else .truncated
  | .corrupt => .corrupt method

/-- What compressed data of an entry stand for. -/
def content (e : Entry) (method : Compression) (data : List UInt8) :
    Except DataError (List UInt8) := do
  let bytes ← (method.decompress e.size data).mapError (DataError.ofStop method)
  if Checksum.ofBytes bytes = e.checksum then return bytes else throw .checksum

end Entry

end Archive

end DslBindings
