/-!
# Methods of compression

The methods that data in archives can be compressed with, and the numbers that stand for them.
-/

namespace DslBindings

/-- How data in an archive are compressed. -/
inductive Compression
  /-- Not at all. -/
  | stored
  /-- By references to a window of 32 KiB, in prefix codes. -/
  | deflated
  /-- The same with a window of 64 KiB. -/
  | deflated64
  /-- By sorting blocks, in prefix codes. -/
  | blockSorted
  /-- By references to a dictionary, in a range code with chances that adapt. -/
  | rangeCoded
  /-- By references to a window, in state machines for the chances of symbols. -/
  | stateCoded
  /-- As `rangeCoded`, in chunks within a container with checksums of its own. -/
  | chunked
  /-- By the chances of a byte after those in front of it. -/
  | predicted
  deriving DecidableEq, Repr, Inhabited

/-- The method that a number stands for. -/
def Compression.ofNumber? : Nat → Option Compression
  | 0 => some .stored
  | 8 => some .deflated
  | 9 => some .deflated64
  | 12 => some .blockSorted
  | 14 => some .rangeCoded
  | 93 => some .stateCoded
  | 95 => some .chunked
  | 98 => some .predicted
  | _ => none

/-- What is wrong with data that this method cannot have made, in words. -/
def Compression.fault : Compression → String
  | .stored => "invalid stored data"
  | .deflated => "corrupt deflate stream"
  | .deflated64 => "invalid deflate64"
  | .blockSorted => "invalid data"
  | .rangeCoded => "corrupted input data"
  | .stateCoded => "Data corruption detected"
  | .chunked => "invalid XZ data"
  | .predicted => "Invalid PPMd parameter"

end DslBindings
