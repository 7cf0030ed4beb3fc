/-!
# Binary floating point of 64 bits

A word has a sign bit, an exponent field of 11 bits and a fraction of 52 bits. All arithmetic on it
is exact arithmetic on naturals, counted in units of the least positive value, `2 ^ (-1074)`.
-/

namespace GameLang.Decimal

/-- A number in binary floating point, as its 64 bits. -/
structure Binary64 where
  bits : UInt64
  deriving DecidableEq

namespace Binary64

/-- Bits of the fraction. -/
def fractionWidth : Nat := 52

/-- The exponent field of the numbers that are not finite. -/
def topField : Nat := 2047

/-- Units are `2 ^ (-unitExponent)`. -/
def unitExponent : Nat := 1074

def isNegative (x : Binary64) : Bool := x.bits.toNat / Nat.pow 2 63 == 1

def field (x : Binary64) : Nat := x.bits.toNat / Nat.pow 2 fractionWidth % Nat.pow 2 11

/-- The fraction, without the leading bit of a normal number. -/
def fraction (x : Binary64) : Nat := x.bits.toNat % Nat.pow 2 fractionWidth

/-- Neither infinite nor a not-a-number word. -/
def isFinite (x : Binary64) : Bool := x.field != topField

/-- A word that stands for no number. -/
def isNaN (x : Binary64) : Bool := x.field == topField && x.fraction != 0

/-- A zero of either sign. -/
def isZero (x : Binary64) : Bool := x.field == 0 && x.fraction == 0

/-- The significand of a finite number; its magnitude is `significand * 2 ^ scale` units. -/
def significand (x : Binary64) : Nat :=
  if x.field = 0 then x.fraction else Nat.pow 2 fractionWidth + x.fraction

/-- The power of two that the significand is scaled by, in units. -/
def scale (x : Binary64) : Nat := x.field - 1

/-- The quotient of two naturals as the nearest natural, a half going to the even one. -/
def roundedQuotient (num den : Nat) : Nat :=
  let below := num / den
  let twice := 2 * (num % den)
  if twice < den then below
  else if den < twice then below + 1
  else if below % 2 = 0 then below else below + 1

/-- The nearest number to `num / den`, a half going to the even significand. Values beyond the
largest finite number become infinite. A significand that rounds up to the next power of two carries
into the exponent field, which is then right too. -/
def ofRatio (num den : Nat) : Binary64 :=
  let units := num * Nat.pow 2 unitExponent / den
  let shift := units.log2 - fractionWidth
  let significand := roundedQuotient (num * Nat.pow 2 unitExponent) (den * Nat.pow 2 shift)
  let word := shift * Nat.pow 2 fractionWidth + significand
  ⟨UInt64.ofNat (min word (topField * Nat.pow 2 fractionWidth))⟩

end Binary64

end GameLang.Decimal
