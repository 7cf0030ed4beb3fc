/-!
# Decimal digits

Naturals and integers as text in base ten, and back.
-/

namespace GameLang.Decimal

/-- The decimal digits of a natural, leading digit first. -/
def digitsOf (n : Nat) : List Char := Nat.toDigits 10 n

/-- The natural that some decimal digits stand for; leading zeros are allowed. -/
def ofDigits (digits : List Char) : Nat := Nat.ofDigitChars 10 digits 0

theorem ofDigits_digitsOf (n : Nat) : ofDigits (digitsOf n) = n :=
  Nat.ofDigitChars_toDigits (by decide) (by decide)

def shownNat (n : Nat) : String := String.ofList (digitsOf n)

/-- The decimal text of an integer, with a minus sign if it is negative. -/
def shownInt (n : Int) : String := if n < 0 then "-" ++ shownNat n.natAbs else shownNat n.natAbs

end GameLang.Decimal
