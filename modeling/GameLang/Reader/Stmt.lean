import GameLang.Reader.Expr

/-!
# Reading statements

The first token of a statement decides its form. A statement opens a level of nesting, and so does
each statement and expression inside it.
-/

namespace GameLang.Reader

variable {m : Type → Type} [ReadsTokens m]

/-! ### Declarations -/

def typeWord (place : TypePlace) : m TypeRef := do
  match TypeKind.ofKind? (← peekKind) with
  | some kind => return .scalar kind (← advance)
  | none => fail (.missingType place)

/-- One more dimension in brackets, with or without a size. -/
def nextDimension (expr : m Expr) : m (Option (Option Expr)) := do
  match ← accept .leftBracket with
  | none => return none
  | some _ =>
    match ← accept .rightBracket with
    | some _ => return some none
    | none =>
      let size ← expr
      let _ ← expect .rightBracket .afterDimension
      return some (some size)

/-- The type after a declaring word; one of the two words declares characters only. -/
def declaredType (keyword : Token) : m TypeRef := do
  if keyword.kind = .varCharWord then
    let token ← expect .charType (.afterWord Kind.varCharWord.spelling)
    return .scalar .char token
  else typeWord .variable

def initialValue (expr : m Expr) : m (Option Expr) := do
  match ← accept .assign with
  | some _ => return some (← expr)
  | none => return none

/-- The declaration of a variable, at its declaring word. -/
def varDecl (expr : m Expr) : m VarDecl := do
  let keyword ← advance
  let type ← declaredType keyword
  let name ← expect .ident .variableName
  let dims ← many (nextDimension expr)
  let init ← initialValue expr
  let _ ← expect .semicolon .afterDeclaration
  return ⟨keyword, type.withDims dims, name, init⟩

/-! ### Blocks -/

/-- One more statement of a block, unless the token that closes it or the end is next. -/
def nextStatement (stmt : m Stmt) (close : Kind) : m (Option Stmt) := do
  let kind ← peekKind
  if kind = close || kind = .eof then return none else return some (← stmt)

def block (stmt : m Stmt) (place : Place) : m Block := do
  let opener ← expect .leftBrace place
  let statements ← many (nextStatement stmt .rightBrace)
  let _ ← expect .rightBrace .afterBlock
  return ⟨opener, statements⟩

/-! ### The other forms -/

/-- The argument of a built-in procedure; reading takes the name of a variable. -/
def builtinArgument (expr : m Expr) (keyword : Token) : m Expr := do
  if keyword.kind = .readWord then
    return .ident (← expect .ident (.insideCall keyword.lexeme))
  else expr

def builtinCall (expr : m Expr) : m Stmt := do
  let keyword ← advance
  let _ ← expect .leftParen (.afterWord keyword.lexeme)
  let arg ← builtinArgument expr keyword
  let _ ← expect .rightParen .afterArgument
  let _ ← expect .semicolon (.afterCallOf keyword.lexeme)
  return .expression (.call keyword [arg])

/-- A condition in parentheses, after a word. -/
def condition (expr : m Expr) (word : Kind) : m Expr := do
  let _ ← expect .leftParen (.afterWord word.spelling)
  let test ← expr
  let _ ← expect .rightParen .afterCondition
  return test

def alternative (stmt : m Stmt) : m (Option Block) := do
  match ← accept .elseWord with
  | some _ => return some (← block stmt (.afterWord Kind.elseWord.spelling))
  | none => return none

def branch (stmt : m Stmt) (expr : m Expr) : m Stmt := do
  let keyword ← advance
  let test ← condition expr .ifWord
  let thenBlock ← block stmt .afterCondition
  let elseBlock ← alternative stmt
  return .branch keyword test thenBlock elseBlock

def loop (stmt : m Stmt) (expr : m Expr) : m Stmt := do
  let keyword ← advance
  let test ← condition expr .whileWord
  return .loop keyword test (← stmt)

def result (expr : m Expr) : m Stmt := do
  let keyword ← advance
  let value ← expr
  let _ ← expect .semicolon .afterReturnValue
  return .result keyword value

/-- The value and the end of an assignment, after its target. -/
def assignTo (expr : m Expr) (target : Expr) (otherwise : Cause) : m Stmt := do
  match ← accept .assign with
  | none => fail otherwise
  | some _ =>
    let value ← expr
    let _ ← expect .semicolon .afterAssignment
    return .assign target value

/-- A statement at a name: a call, or an assignment to a variable or an element. -/
def nameStatement (expr : m Expr) : m Stmt := do
  let name ← advance
  let kind ← peekKind
  if kind = .leftParen then
    let call ← callOf expr name
    let _ ← expect .semicolon .afterCall
    return .expression call
  else if kind = .leftBracket then
    let target ← indexOf expr name
    assignTo expr target (.missing .assign .afterTarget)
  else assignTo expr (.ident name) .missingUse

/-- A statement, with the readers for the statements and the expressions inside it. -/
def statementWith (stmt : m Stmt) (expr : m Expr) : m Stmt := do
  match ← peekKind with
  | .leftBrace => return .block (← block stmt .openBlock)
  | .varWord | .varCharWord => return .varDecl (← varDecl expr)
  | .printWord | .readWord | .encryptWord | .decryptWord => builtinCall expr
  | .ifWord => branch stmt expr
  | .whileWord => loop stmt expr
  | .returnWord => result expr
  | .semicolon => return .empty (← advance)
  | .ident => nameStatement expr
  | _ => fail .missingStatement

/-- A statement, which opens a level. -/
def statement : Nat → Reader Stmt
  | 0 => tooDeep
  | levels + 1 => fun ts => statementWith (statement levels) (expression levels) ts

end GameLang.Reader
