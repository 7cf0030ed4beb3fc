import GameLang.Reader.Stmt

/-!
# Reading programs

A program is functions, then variables, then the entry block. What is read as a whole has nothing
after it.
-/

namespace GameLang.Reader

variable {m : Type → Type} [ReadsTokens m]

def param : m Param := do
  let type ← typeWord .parameter
  let name ← expect .ident .parameterName
  return ⟨name, type⟩

def nextParam : m (Option Param) := do
  match ← accept .comma with
  | some _ => return some (← param)
  | none => return none

/-- Parameters up to the closing parenthesis, which is left. -/
def params : m (List Param) := do
  if (← peekKind) = .rightParen then return []
  let first ← param
  let others ← many nextParam
  return first :: others

/-- The definition of a function. Its body opens no level of its own. -/
def function (stmt : m Stmt) : m Function := do
  let returnType ← typeWord .result
  let name ← expect .ident .functionName
  let _ ← expect .leftParen .afterFunctionName
  let params ← params
  let _ ← expect .rightParen .afterParameters
  let body ← block stmt .beforeBody
  return ⟨name, params, returnType, body.statements⟩

/-- One more function, if a type word is next. -/
def nextFunction (stmt : m Stmt) : m (Option Item) := do
  if (← peekKind).isTypeWord then return some (.function (← function stmt)) else return none

/-- One more variable, if a declaring word is next. -/
def nextVariable (expr : m Expr) : m (Option Item) := do
  let kind ← peekKind
  if kind = .varWord || kind = .varCharWord then return some (.var (← varDecl expr)) else return none

def entryBlock (stmt : m Stmt) : m Block := do
  let opener ← expect .beginWord .openEntry
  let statements ← many (nextStatement stmt .endWord)
  let _ ← expect .endWord .closeEntry
  let _ ← expect .semicolon (.afterWord Kind.endWord.spelling)
  return ⟨opener, statements⟩

/-- Requires the end of the tokens. -/
def atEnd (cause : Cause) : m Unit := do
  if (← peekKind) = .eof then return () else fail cause

/-- A program, with nothing after it. -/
def programWith (stmt : m Stmt) (expr : m Expr) : m Program := do
  let functions ← many (nextFunction stmt)
  let vars ← many (nextVariable expr)
  let entry ← entryBlock stmt
  atEnd (.missing .eof .afterEntry)
  return ⟨functions ++ vars ++ [.stmt (.block entry)]⟩

/-- A statement or an expression, with nothing after it. -/
def whole {α : Type} (r : m α) : m α := do
  let value ← r
  atEnd .trailing
  return value

/-- A program whose statements and expressions may open a number of levels. -/
def program (levels : Nat) : Reader Program := programWith (statement levels) (expression levels)

end GameLang.Reader
