import GameLang.Decimal.Digits
import GameLang.Decimal.Shortest

/-!
# Number styles

How the digits of a number are laid out: with a point at its place, or as a power of ten. A style is
a record of the few decisions in which outputs differ.
-/

namespace GameLang.Decimal

/-- The decisions of one way to write numbers. -/
structure Style where
  /-- Which of two equally near decimals is written. -/
  tie : Tie
  /-- Exponents of the leading digit from here on are written with the point at its place. -/
  leastPositional : Int
  /-- Exponents of the leading digit from here on are written as a power of ten. -/
  leastScientific : Int
  /-- What stands before an exponent that is not negative. -/
  exponentPlus : String

/-- Digits with the point at its place; `lead` is the exponent of the first digit. -/
def positional (digits : List Char) (lead : Int) : List Char :=
  if lead < 0 then '0' :: '.' :: List.replicate (-lead - 1).toNat '0' ++ digits
  else
    let whole := (lead + 1).toNat
    if digits.length ≤ whole then digits ++ List.replicate (whole - digits.length) '0' ++ ['.', '0']
    else digits.take whole ++ '.' :: digits.drop whole

/-- Digits with a point after the first, and the exponent of the first. -/
def scientific (style : Style) (digits : List Char) (lead : Int) : List Char :=
  let tail := digits.drop 1
  digits.take 1 ++ (if tail.isEmpty then [] else '.' :: tail) ++ 'e' ::
    (if lead < 0 then ['-'] else style.exponentPlus.toList) ++ digitsOf lead.natAbs

def Style.write (style : Style) (d : Scientific) : List Char :=
  let digits := digitsOf d.digits
  let lead := d.exponent + digits.length - 1
  if style.leastPositional ≤ lead && lead < style.leastScientific then positional digits lead
  else scientific style digits lead

/-- A finite number in a style, with its sign. -/
def Style.finite (style : Style) (x : Binary64) : String :=
  let magnitude := if x.isZero then ['0', '.', '0'] else style.write (x.shortest style.tie)
  String.ofList (if x.isNegative then '-' :: magnitude else magnitude)

end GameLang.Decimal
