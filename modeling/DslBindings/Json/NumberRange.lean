/-!
# Numbers in the range of double precision

Whether a decimal number can be held in double precision. Its digits are gathered into a significand
of at most 64 bits and a power of ten; the number is their product, each factor and the product
rounded to 53 bits.
-/

namespace DslBindings.Json

/-- The greatest significand. -/
def maxSignificand : Nat := UInt64.size - 1

/-- A significand and a power of ten. -/
structure Scaled where
  significand : Nat
  exponent : Int
  deriving DecidableEq, Repr, Inhabited

/-- The value of a decimal digit. -/
def digitValue (c : Char) : Nat := c.toNat - '0'.toNat

/-- Gathers the digits of an integer part. Once a digit does not fit, it and all others only scale. -/
def Scaled.ofInteger (digits : List Char) : Scaled :=
  go 0 digits
where
  go (significand : Nat) : List Char → Scaled
    | [] => ⟨significand, 0⟩
    | d :: ds =>
      let more := significand * 10 + digitValue d
      if more ≤ maxSignificand then go more ds else ⟨significand, (d :: ds).length⟩

/-- Gathers the digits of a fraction. Once a digit does not fit, it and all others are dropped. -/
def Scaled.addFraction (s : Scaled) : (digits : List Char) → Scaled
  | [] => s
  | d :: ds =>
    let more := s.significand * 10 + digitValue d
    if more ≤ maxSignificand then addFraction ⟨more, s.exponent - 1⟩ ds else s

/-- Rounds to 53 significant bits, a half to the even neighbour. -/
def roundToDouble (n : Nat) : Nat :=
  let excess := n.log2 + 1 - 53
  let unit := 1 <<< excess
  let quotient := n / unit
  let twice := 2 * (n % unit)
  if unit < twice || (twice = unit && quotient % 2 = 1) then (quotient + 1) * unit
  else quotient * unit

/-- The least number that does not round to a double. -/
def doubleLimit : Nat := ((1 <<< 54) - 1) <<< 970

/-- The greatest power of ten that is a factor. -/
def maxExponent : Nat := 308

/-- Whether a number is in the range of double precision. -/
def Scaled.isInRange (s : Scaled) : Bool :=
  if s.significand = 0 || s.exponent < 0 then true
  else
    s.exponent.toNat ≤ maxExponent
      && roundToDouble s.significand * roundToDouble (Nat.pow 10 s.exponent.toNat) < doubleLimit

end DslBindings.Json
