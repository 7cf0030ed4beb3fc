import GameLang.Tree.Basic

/-!
# Source layout

A program laid out as source text again: the texts of its tokens with the blanks between them. A
statement has a line of its own, blocks are indented by four spaces, and parentheses stand exactly
where the tree has a group.
-/

namespace GameLang

/-- A piece of laid out text. -/
inductive Piece where
  /-- The text of one token. -/
  | word (text : String)
  /-- A space between two tokens of a line. -/
  | space
  /-- The end of a line. -/
  | newline
  /-- The blanks in front of a line at some depth. -/
  | indent (depth : Nat)
  deriving DecidableEq

namespace Piece

/-- Spaces for each level of depth. -/
def indentWidth : Nat := 4

def text : Piece → String
  | word s => s
  | space => " "
  | newline => "\n"
  | indent depth => Text.copies (indentWidth * depth) ' '

def ofToken (t : Token) : Piece := word t.lexeme

def ofKind (k : Kind) : Piece := word k.spelling

end Piece

def pieceText (pieces : List Piece) : String := String.join (pieces.map Piece.text)

open Piece

/-! ### Expressions -/

mutual

/-- The pieces of an expression, in front of `rest`. -/
def Expr.layout : Expr → List Piece → List Piece
  | .literal t _, rest => ofToken t :: rest
  | .ident t, rest => ofToken t :: rest
  | .index t indices, rest => ofToken t :: Expr.indexLayout indices rest
  | .group inner, rest => ofKind .leftParen :: inner.layout (ofKind .rightParen :: rest)
  | .call t [], rest => ofToken t :: ofKind .leftParen :: ofKind .rightParen :: rest
  | .call t (first :: others), rest =>
    ofToken t :: ofKind .leftParen ::
      first.layout (Expr.argLayout others (ofKind .rightParen :: rest))
  | .unary _ t operand, rest => ofToken t :: operand.layout rest
  | .binary left _ t right, rest => left.layout (space :: ofToken t :: space :: right.layout rest)

def Expr.indexLayout : List Expr → List Piece → List Piece
  | [], rest => rest
  | e :: indices, rest =>
    ofKind .leftBracket :: e.layout (ofKind .rightBracket :: Expr.indexLayout indices rest)

def Expr.argLayout : List Expr → List Piece → List Piece
  | [], rest => rest
  | e :: args, rest => ofKind .comma :: space :: e.layout (Expr.argLayout args rest)

end

def Expr.print (e : Expr) : String := pieceText (e.layout [])

/-! ### Statements -/

def dimLayout : List (Option Expr) → List Piece → List Piece
  | [], rest => rest
  | none :: dims, rest => ofKind .leftBracket :: ofKind .rightBracket :: dimLayout dims rest
  | some size :: dims, rest =>
    ofKind .leftBracket :: size.layout (ofKind .rightBracket :: dimLayout dims rest)

def VarDecl.layout (d : VarDecl) (rest : List Piece) : List Piece :=
  let close := ofKind .semicolon :: rest
  ofToken d.keyword :: space :: ofToken d.type.token :: space :: ofToken d.name ::
    dimLayout d.type.dims
      (match d.init with
        | none => close
        | some value => space :: ofKind .assign :: space :: value.layout close)

/-- The pieces of a keyword and a condition in parentheses. -/
def conditionLayout (keyword : Token) (condition : Expr) (rest : List Piece) : List Piece :=
  ofToken keyword :: space :: ofKind .leftParen ::
    condition.layout (ofKind .rightParen :: space :: rest)

mutual

/-- The pieces of a statement in a line at some depth, without the blanks before and the line end
after it. The body of a loop stands in the line of the loop. -/
def Stmt.layout (depth : Nat) : Stmt → List Piece → List Piece
  | .varDecl decl, rest => decl.layout rest
  | .assign target value, rest =>
    target.layout (space :: ofKind .assign :: space :: value.layout (ofKind .semicolon :: rest))
  | .branch t condition thenBlock none, rest =>
    conditionLayout t condition (thenBlock.layout depth rest)
  | .branch t condition thenBlock (some elseBlock), rest =>
    conditionLayout t condition (thenBlock.layout depth
      (space :: ofKind .elseWord :: space :: elseBlock.layout depth rest))
  | .loop t condition body, rest => conditionLayout t condition (body.layout depth rest)
  | .result t value, rest => ofToken t :: space :: value.layout (ofKind .semicolon :: rest)
  | .block b, rest => b.layout depth rest
  | .expression e, rest => e.layout (ofKind .semicolon :: rest)
  | .empty _, rest => ofKind .semicolon :: rest

/-- The pieces of a block in braces, opened in a line at some depth. -/
def Block.layout (depth : Nat) : Block → List Piece → List Piece
  | ⟨_, statements⟩, rest =>
    ofKind .leftBrace :: newline ::
      Stmt.linesLayout (depth + 1) statements (indent depth :: ofKind .rightBrace :: rest)

def Stmt.linesLayout (depth : Nat) : List Stmt → List Piece → List Piece
  | [], rest => rest
  | s :: statements, rest =>
    indent depth :: s.layout depth (newline :: Stmt.linesLayout depth statements rest)

end

/-! ### Programs -/

def Param.layout (p : Param) (rest : List Piece) : List Piece :=
  ofToken p.type.token :: space :: ofToken p.name :: rest

def Param.othersLayout : List Param → List Piece → List Piece
  | [], rest => rest
  | p :: params, rest => ofKind .comma :: space :: p.layout (Param.othersLayout params rest)

def Param.listLayout : List Param → List Piece → List Piece
  | [], rest => rest
  | p :: params, rest => p.layout (Param.othersLayout params rest)

/-- The pieces of a function. An empty line follows it. -/
def Function.layout (f : Function) (rest : List Piece) : List Piece :=
  ofToken f.returnType.token :: space :: ofToken f.name :: ofKind .leftParen ::
    Param.listLayout f.params
      (ofKind .rightParen :: space :: ofKind .leftBrace :: newline ::
        Stmt.linesLayout 1 f.body
          (indent 0 :: ofKind .rightBrace :: newline :: newline :: rest))

def Block.entryLayout (b : Block) (rest : List Piece) : List Piece :=
  ofToken b.opener :: newline ::
    Stmt.linesLayout 1 b.statements (ofKind .endWord :: ofKind .semicolon :: newline :: rest)

/-- The pieces of an item. Only a block that its own word opens is laid out as an entry block. -/
def Item.layout : Item → List Piece → List Piece
  | .function f, rest => f.layout rest
  | .var decl, rest => decl.layout (newline :: rest)
  | .stmt (.block b), rest =>
    if b.opener.kind = .beginWord then b.entryLayout rest
    else indent 0 :: b.layout 0 (newline :: rest)
  | .stmt s, rest => indent 0 :: s.layout 0 (newline :: rest)

def Program.layout (p : Program) : List Piece := p.items.foldr Item.layout []

def Program.print (p : Program) : String := pieceText p.layout

end GameLang
