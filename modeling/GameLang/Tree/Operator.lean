import GameLang.Token.Kind

/-!
# Operators

The operators of expressions and how tightly they bind.
-/

namespace GameLang

inductive BinOp where
  | add
  | sub
  | mul
  | div
  | mod
  | eq
  | ne
  | lt
  | le
  | gt
  | ge
  | and
  | or
  deriving DecidableEq

/-- How tightly an operator with two operands binds, from the loosest on. -/
inductive Precedence where
  | disjunction
  | conjunction
  | equality
  | comparison
  | sum
  | product
  deriving DecidableEq

namespace Precedence

/-- The levels from the loosest to the tightest. -/
def all : List Precedence := [disjunction, conjunction, equality, comparison, sum, product]

/-- The number of looser levels. -/
def rank : Precedence → Nat
  | disjunction => 0
  | conjunction => 1
  | equality => 2
  | comparison => 3
  | sum => 4
  | product => 5

end Precedence

namespace BinOp

def ofKind? : Kind → Option BinOp
  | .plus => some add
  | .minus => some sub
  | .star => some mul
  | .slash => some div
  | .percent => some mod
  | .equal => some eq
  | .notEqual => some ne
  | .less => some lt
  | .lessEqual => some le
  | .greater => some gt
  | .greaterEqual => some ge
  | .andWord => some and
  | .orWord => some or
  | _ => none

/-- The level of an operator. -/
def precedence : BinOp → Precedence
  | or => .disjunction
  | and => .conjunction
  | eq | ne => .equality
  | lt | le | gt | ge => .comparison
  | add | sub => .sum
  | mul | div | mod => .product

def name : BinOp → String
  | add => "Add"
  | sub => "Sub"
  | mul => "Mul"
  | div => "Div"
  | mod => "Mod"
  | eq => "Eq"
  | ne => "Ne"
  | lt => "Lt"
  | le => "Le"
  | gt => "Gt"
  | ge => "Ge"
  | and => "And"
  | or => "Or"

end BinOp

/-- Operators with one operand. -/
inductive UnOp where
  | neg
  | not
  deriving DecidableEq

namespace UnOp

def ofKind? : Kind → Option UnOp
  | .minus => some neg
  | .bang => some not
  | _ => none

def name : UnOp → String
  | neg => "Neg"
  | not => "Not"

end UnOp

end GameLang
