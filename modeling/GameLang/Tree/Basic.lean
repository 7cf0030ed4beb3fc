import GameLang.Token.Basic
import GameLang.Tree.Operator

/-!
# Syntax trees

Expressions, statements and programs. A tree keeps the tokens it was read from wherever they carry
meaning: names, literals, operators, keywords and the token that opens a block.
-/

namespace GameLang

inductive Expr where
  | literal (token : Token) (value : Literal)
  | ident (name : Token)
  | index (name : Token) (indices : List Expr)
  | group (inner : Expr)
  | call (callee : Token) (args : List Expr)
  | unary (op : UnOp) (opToken : Token) (operand : Expr)
  | binary (left : Expr) (op : BinOp) (opToken : Token) (right : Expr)

/-- The token that stands for an expression; a group has that of its content. -/
def Expr.token : Expr → Token
  | literal t _ => t
  | ident t => t
  | index t _ => t
  | group inner => inner.token
  | call t _ => t
  | unary _ t _ => t
  | binary _ _ t _ => t

inductive TypeKind where
  | int
  | real
  | char
  | text
  | bool
  /-- No word names it. -/
  | void
  | array
  deriving DecidableEq

namespace TypeKind

def ofKind? : Kind → Option TypeKind
  | .intType => some int
  | .realType => some real
  | .charType => some char
  | .textType => some text
  | .boolType => some bool
  | .arrayType => some array
  | _ => none

def name : TypeKind → String
  | int => "Int"
  | real => "Real"
  | char => "Char"
  | text => "String"
  | bool => "Bool"
  | void => "Void"
  | array => "Array"

end TypeKind

/-- A type word with its dimensions and their number; a dimension without a size is `none`. -/
structure TypeRef where
  kind : TypeKind
  token : Token
  rank : Nat
  dims : List (Option Expr)

namespace TypeRef

/-- A type without dimensions. -/
def scalar (kind : TypeKind) (token : Token) : TypeRef := ⟨kind, token, 0, []⟩

def withDims (t : TypeRef) (dims : List (Option Expr)) : TypeRef :=
  { t with rank := dims.length, dims := dims }

/-- An array by its word or by its dimensions. -/
def isArray (t : TypeRef) : Bool := t.kind = .array || 0 < t.rank

end TypeRef

structure VarDecl where
  keyword : Token
  type : TypeRef
  name : Token
  init : Option Expr

mutual

inductive Stmt where
  | varDecl (decl : VarDecl)
  | assign (target value : Expr)
  | branch (keyword : Token) (condition : Expr) (thenBlock : Block) (elseBlock : Option Block)
  | loop (keyword : Token) (condition : Expr) (body : Stmt)
  | result (keyword : Token) (value : Expr)
  | block (block : Block)
  | expression (expr : Expr)
  | empty (semicolon : Token)

/-- Statements with the token that opens their block. -/
structure Block where
  opener : Token
  statements : List Stmt

end

structure Param where
  name : Token
  type : TypeRef

structure Function where
  name : Token
  params : List Param
  returnType : TypeRef
  body : List Stmt

/-- What a program consists of. -/
inductive Item where
  | function (definition : Function)
  | var (decl : VarDecl)
  | stmt (statement : Stmt)

structure Program where
  items : List Item

namespace Program

/-- The functions, in order. -/
def functions (p : Program) : List Function :=
  p.items.filterMap fun
    | .function f => some f
    | _ => none

/-- The variables declared outside of functions and blocks, in order. -/
def declarations (p : Program) : List VarDecl :=
  p.items.filterMap fun
    | .var decl => some decl
    | .stmt (.varDecl decl) => some decl
    | _ => none

/-- The block that a program ends with. -/
def entry (p : Program) : Option Block :=
  match p.items.getLast? with
  | some (.stmt (.block b)) => some b
  | _ => none

end Program

end GameLang
