import GameLang.Reader.Basic
import GameLang.Tree.Basic

/-!
# Reading expressions

Operands are read first, then chains of operators, level by level from the tightest to the loosest.
The first argument of `operand` and `expression` is the number of levels that may still be opened;
it bounds the recursion.
-/

namespace GameLang.Reader

variable {m : Type → Type} [ReadsTokens m]

/-- One level too many. -/
def tooDeep {α : Type} : m α := fail .nestingTooDeep

/-! ### Operands -/

/-- A literal; its token must carry a value. -/
def literal : m Expr := do
  match (← peek).literal with
  | some value => return .literal (← advance) value
  | none => fail .missingValue

def nextArgument (expr : m Expr) : m (Option Expr) := do
  match ← accept .comma with
  | some _ => return some (← expr)
  | none => return none

/-- Arguments up to the closing parenthesis, which is left. -/
def arguments (expr : m Expr) : m (List Expr) := do
  if (← peekKind) = .rightParen then return []
  let first ← expr
  let others ← many (nextArgument expr)
  return first :: others

def callOf (expr : m Expr) (callee : Token) : m Expr := do
  let _ ← expect .leftParen .afterFunctionName
  let args ← arguments expr
  let _ ← expect .rightParen .afterArguments
  return .call callee args

def nextIndex (expr : m Expr) : m (Option Expr) := do
  match ← accept .leftBracket with
  | some _ =>
    let index ← expr
    let _ ← expect .rightBracket .afterIndex
    return some index
  | none => return none

def indexOf (expr : m Expr) (name : Token) : m Expr := do
  let indices ← many (nextIndex expr)
  return .index name indices

def nameUse (expr : m Expr) : m Expr := do
  let name ← advance
  let kind ← peekKind
  if kind = .leftParen then callOf expr name
  else if kind = .leftBracket then indexOf expr name
  else return .ident name

def group (expr : m Expr) : m Expr := do
  let _ ← advance
  let inner ← expr
  let _ ← expect .rightParen .afterExpression
  return .group inner

/-- An operand without an operator in front of it. -/
def primary (expr : m Expr) : m Expr := do
  let kind ← peekKind
  if kind.isLiteral then literal
  else if kind = .ident then nameUse expr
  else if kind = .leftParen then group expr
  else fail .missingExpression

/-- An operand, with the readers for the operand of an operator in front of it and for the
expressions inside it. -/
def operandWith (operand expr : m Expr) : m Expr := do
  match UnOp.ofKind? (← peekKind) with
  | some op =>
    let opToken ← advance
    return .unary op opToken (← operand)
  | none => primary expr

/-! ### Chains -/

/-- One more operator of a level, with the operand after it. -/
def nextOperand (level : Precedence) (operand : m Expr) :
    m (Option (BinOp × Token × Expr)) := do
  match BinOp.ofKind? (← peekKind) with
  | some op =>
    if op.precedence = level then
      let opToken ← advance
      return some (op, opToken, ← operand)
    else return none
  | none => return none

/-- Operands with the operators of a level between them, which associate to the left. -/
def chain (level : Precedence) (operand : m Expr) : m Expr := do
  let first ← operand
  let others ← many (nextOperand level operand)
  return others.foldl (fun left (op, opToken, right) => .binary left op opToken right) first

/-- Chains of all levels, the tightest innermost. -/
def chains (operand : m Expr) : m Expr := Precedence.all.foldr chain operand

/-! ### The nesting limit -/

/-- An operand inside a level. -/
def operand : Nat → Reader Expr
  | 0 => operandWith tooDeep tooDeep
  | levels + 1 => fun ts => operandWith (operand levels) (chains (operand levels)) ts

/-- An expression, which opens a level. -/
def expression : Nat → Reader Expr
  | 0 => tooDeep
  | levels + 1 => chains (operand levels)

end GameLang.Reader
