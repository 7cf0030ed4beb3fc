import GameLang.Decimal.Digits
import GameLang.Decimal.Binary64

/-!
# JSON values

JSON values whose objects keep the order of their members, and their two written forms: compact, and
with a line for each element. How real numbers are written is left open.
-/

namespace GameLang.Json

/-- JSON values. -/
inductive Value where
  | null
  | bool (value : Bool)
  | int (value : Int)
  | real (value : Decimal.Binary64)
  | string (text : String)
  | array (elements : List Value)
  | object (members : List (String × Value))

/-- A control character by its code point, in four hexadecimal digits. -/
def controlEscape (c : Char) : List Char :=
  let digits := Nat.toDigits 16 c.toNat
  '\\' :: 'u' :: List.replicate (4 - digits.length) '0' ++ digits

/-- A character inside a string. -/
def escaped (c : Char) : List Char :=
  if c = '"' then ['\\', '"']
  else if c = '\\' then ['\\', '\\']
  else if c = '\x08' then ['\\', 'b']
  else if c = '\x0c' then ['\\', 'f']
  else if c = '\n' then ['\\', 'n']
  else if c = '\r' then ['\\', 'r']
  else if c = '\t' then ['\\', 't']
  else if c.toNat < 32 then controlEscape c
  else [c]

def quoted (s : String) : List Char := '"' :: s.toList.flatMap escaped ++ ['"']

def boolText (b : Bool) : String := if b then "true" else "false"

variable (reals : Decimal.Binary64 → String)

/-! ### The compact form -/

mutual

/-- The compact text of a value, in front of `rest`. -/
def Value.compactOnto : Value → List Char → List Char
  | .null, rest => "null".toList ++ rest
  | .bool b, rest => (boolText b).toList ++ rest
  | .int n, rest => (Decimal.shownInt n).toList ++ rest
  | .real x, rest => (reals x).toList ++ rest
  | .string s, rest => quoted s ++ rest
  | .array [], rest => '[' :: ']' :: rest
  | .array (v :: vs), rest => '[' :: v.compactOnto (compactElements vs (']' :: rest))
  | .object [], rest => '\x7b' :: '\x7d' :: rest
  | .object ((key, v) :: members), rest =>
    '\x7b' :: (quoted key ++ ':' :: v.compactOnto (compactMembers members ('\x7d' :: rest)))

/-- The elements after the first, each after a comma. -/
def compactElements : List Value → List Char → List Char
  | [], rest => rest
  | v :: vs, rest => ',' :: v.compactOnto (compactElements vs rest)

def compactMembers : List (String × Value) → List Char → List Char
  | [], rest => rest
  | (key, v) :: members, rest =>
    ',' :: (quoted key ++ ':' :: v.compactOnto (compactMembers members rest))

end

def Value.compactWith (v : Value) : String := String.ofList (v.compactOnto reals [])

/-! ### The form with lines -/

/-- A new line at some depth, two spaces for each level. -/
def lineOnto (depth : Nat) (rest : List Char) : List Char :=
  '\n' :: List.replicate (2 * depth) ' ' ++ rest

mutual

/-- The text of a value in lines at some depth, in front of `rest`. -/
def Value.linesOnto (depth : Nat) : Value → List Char → List Char
  | .null, rest => "null".toList ++ rest
  | .bool b, rest => (boolText b).toList ++ rest
  | .int n, rest => (Decimal.shownInt n).toList ++ rest
  | .real x, rest => (reals x).toList ++ rest
  | .string s, rest => quoted s ++ rest
  | .array [], rest => '[' :: ']' :: rest
  | .array (v :: vs), rest =>
    '[' :: lineOnto (depth + 1) (v.linesOnto (depth + 1)
      (lineElements (depth + 1) vs (lineOnto depth (']' :: rest))))
  | .object [], rest => '\x7b' :: '\x7d' :: rest
  | .object ((key, v) :: members), rest =>
    '\x7b' :: lineOnto (depth + 1) (quoted key ++ ':' :: ' ' :: v.linesOnto (depth + 1)
      (lineMembers (depth + 1) members (lineOnto depth ('\x7d' :: rest))))

/-- The elements after the first, each after a comma and in a line of its own. -/
def lineElements (depth : Nat) : List Value → List Char → List Char
  | [], rest => rest
  | v :: vs, rest => ',' :: lineOnto depth (v.linesOnto depth (lineElements depth vs rest))

def lineMembers (depth : Nat) : List (String × Value) → List Char → List Char
  | [], rest => rest
  | (key, v) :: members, rest =>
    ',' :: lineOnto depth (quoted key ++ ':' :: ' ' ::
      v.linesOnto depth (lineMembers depth members rest))

end

def Value.inLinesWith (v : Value) : String := String.ofList (v.linesOnto reals 0 [])

end GameLang.Json
