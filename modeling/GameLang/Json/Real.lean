import GameLang.Decimal.Style
import GameLang.Json.Value

/-!
# Real numbers in JSON

How the program writes real numbers as JSON, and with them the two forms of a value.
-/

namespace GameLang.Json

/-- From `0.00001` up to sixteen digits before the point a number is written out, an exponent has a
sign, and of two equally near decimals the even one is written. -/
def realStyle : Decimal.Style :=
  { tie := .even, leastPositional := -5, leastScientific := 16, exponentPlus := "+" }

/-- A real number; JSON has no text for one that is not finite. -/
def realText (x : Decimal.Binary64) : String :=
  if x.isFinite then realStyle.finite x else "null"

def Value.compact (v : Value) : String := v.compactWith realText

def Value.inLines (v : Value) : String := v.inLinesWith realText

end GameLang.Json
