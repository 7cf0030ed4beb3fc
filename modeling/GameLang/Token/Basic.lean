import GameLang.Decimal.Style
import GameLang.Text.Lines
import GameLang.Text.Quoted
import GameLang.Token.Kind

/-!
# Tokens

A token is a piece of source text with its kind, its value if it has one, and its place.
-/

namespace GameLang

/-- A place in a text; lines and columns are counted from one, columns in characters. -/
structure Position where
  line : Nat
  column : Nat
  deriving DecidableEq

namespace Position

def start : Position := ⟨1, 1⟩

/-- The place after a character. Only a line feed ends a line. -/
def next (p : Position) (c : Char) : Position :=
  if c = '\n' then ⟨p.line + 1, 1⟩ else ⟨p.line, p.column + 1⟩

/-- The place after a text. -/
def after (p : Position) (text : List Char) : Position := text.foldl next p

@[simp] theorem after_nil (p : Position) : p.after [] = p := rfl

@[simp] theorem after_cons (p : Position) (c : Char) (text : List Char) :
    p.after (c :: text) = (p.next c).after text := rfl

theorem after_append (p : Position) (front back : List Char) :
    p.after (front ++ back) = (p.after front).after back := List.foldl_append

end Position

/-- A line and the columns from the first to the last character. -/
structure Span where
  line : Nat
  first : Nat
  last : Nat
  deriving DecidableEq

def Span.start (s : Span) : Position := ⟨s.line, s.first⟩

/-- The value of a literal. -/
inductive Literal where
  | int (value : Int)
  | real (value : Decimal.Binary64)
  | bool (value : Bool)
  | char (value : Char)
  | text (value : String)
  deriving DecidableEq

/-- Real values in dumps: from `0.0001` up to sixteen digits before the point they are written out,
and of two equally near decimals the larger is shown. -/
def Literal.realStyle : Decimal.Style :=
  { tie := .up, leastPositional := -4, leastScientific := 16, exponentPlus := "" }

/-- A real value as it is shown, finite or not. -/
def Literal.shownReal (x : Decimal.Binary64) : String :=
  if x.isFinite then realStyle.finite x
  else if x.isNaN then "NaN"
  else if x.isNegative then "-inf"
  else "inf"

def Literal.shownBool (b : Bool) : String := if b then "true" else "false"

def Literal.shown : Literal → String
  | .int n => Decimal.shownInt n
  | .real x => shownReal x
  | .bool b => shownBool b
  | .char c => Text.quotedChar c
  | .text s => Text.quotedText s

structure Token where
  kind : Kind
  lexeme : String
  literal : Option Literal
  span : Span
  deriving DecidableEq

namespace Token

/-- The text of the token that ends every text; no text contains it as a token. -/
def endLexeme : String := "<eof>"

def start (t : Token) : Position := t.span.start

/-- The token that ends a text at a place. -/
def ending (p : Position) : Token := ⟨.eof, endLexeme, none, ⟨p.line, p.column, p.column⟩⟩

/-- A token in a message. -/
def shown (t : Token) : String :=
  if t.kind = .eof then "end of input"
  else if t.kind = .ident then "identifier '" ++ t.lexeme ++ "'"
  else if t.kind.isLiteral then t.kind.spelling ++ " " ++ t.lexeme
  else "'" ++ t.lexeme ++ "'"

end Token

end GameLang
