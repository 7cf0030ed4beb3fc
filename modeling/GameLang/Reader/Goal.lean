import GameLang.Reader.Program

/-!
# Goals

What tokens can be read as: a program, a statement or an expression, each as a whole. Readings can
follow one another; each goes on with the tokens that the one before left, whether it succeeded or
not.
-/

namespace GameLang

/-- What tokens are read as. -/
inductive Goal where
  | program
  | statement
  | expression
  deriving DecidableEq

/-- What was read for a goal. -/
inductive Tree where
  | program (program : Program)
  | statement (statement : Stmt)
  | expression (expression : Expr)

/-- How many statements, expressions and operands of prefix operators may be open at once. -/
def nestingLimit : Nat := 200

namespace Goal

/-- Reads for a goal, with the readers of statements and of expressions. -/
def readWith {m : Type → Type} [ReadsTokens m] (stmt : m Stmt) (expr : m Expr) : Goal → m Tree
  | program => do return .program (← Reader.programWith stmt expr)
  | statement => do return .statement (← Reader.whole stmt)
  | expression => do return .expression (← Reader.whole expr)

/-- The reader for a goal, with a number of levels that may be opened. -/
def within (levels : Nat) : Goal → Reader Tree :=
  readWith (Reader.statement levels) (Reader.expression levels)

def reader : Goal → Reader Tree := within nestingLimit

/-- Reads tokens for a goal: the tree or the error, and the tokens left. -/
def read (goal : Goal) (ts : List Token) : Except SyntaxError Tree × List Token :=
  goal.reader.run ts

/-- Reads for one goal after the other, and gives each result with the tokens left after it. -/
def readAll : List Goal → List Token → List (Except SyntaxError Tree × List Token)
  | [], _ => []
  | goal :: goals, ts => goal.read ts :: readAll goals (goal.read ts).2

end Goal

/-- A statement as a program that consists of it. -/
def Stmt.program (s : Stmt) : Program := ⟨[.stmt s]⟩

end GameLang
