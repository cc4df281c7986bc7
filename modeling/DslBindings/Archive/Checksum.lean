/-!
# Checksums

The cyclic redundancy check of 32 bits with which archives check what they hold, and the one of 64
bits with which data within them can be checked.
-/

namespace DslBindings.Checksum

/-- Divides by the polynomial, one bit further. -/
def shift (crc : UInt32) : UInt32 :=
  if crc &&& 1 = 1 then (crc >>> 1) ^^^ 0xEDB88320 else crc >>> 1

/-- The checksum with one more byte. -/
def step (crc : UInt32) (b : UInt8) : UInt32 :=
  Nat.repeat shift 8 (crc ^^^ b.toUInt32)

/-- The checksum of bytes. -/
def ofBytes (bytes : List UInt8) : UInt32 := ~~~ bytes.foldl step 0xFFFFFFFF

/-- Divides by the polynomial of the wide check, one bit further. -/
def wideShift (crc : UInt64) : UInt64 :=
  if crc &&& 1 = 1 then (crc >>> 1) ^^^ 0xC96C5795D7870F42 else crc >>> 1

/-- The wide checksum with one more byte. -/
def wideStep (crc : UInt64) (b : UInt8) : UInt64 :=
  Nat.repeat wideShift 8 (crc ^^^ b.toUInt64)

/-- The wide checksum of bytes. -/
def wide (bytes : List UInt8) : UInt64 := ~~~ bytes.foldl wideStep 0xFFFFFFFFFFFFFFFF

end DslBindings.Checksum
