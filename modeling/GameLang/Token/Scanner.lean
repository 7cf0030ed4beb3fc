import GameLang.Token.Cursor

/-!
# Scanners

A scanner walks over the characters of a text by index. It counts lines and columns on the way and
keeps a copy of its place where the token began. A `Cursor` is a scanner without the characters that
no token needs any more (`Scanner.cursor`).
-/

namespace GameLang

structure Scanner where
  input : Array Char
  /-- The index of the next character. -/
  position : Nat
  line : Nat
  column : Nat
  /-- The index at which the token began. -/
  start : Nat
  startLine : Nat
  startColumn : Nat
  deriving DecidableEq

namespace Scanner

def ofString (source : String) : Scanner := ⟨source.toList.toArray, 0, 1, 1, 0, 1, 1⟩

def atEnd (s : Scanner) : Bool := decide (s.input.size ≤ s.position)

def peek (s : Scanner) : Option Char := s.input[s.position]?

def peekSecond (s : Scanner) : Option Char := s.input[s.position + 1]?

/-- Passes the next character and gives it, if there is one. -/
def advance (s : Scanner) : Option Char × Scanner :=
  match s.input[s.position]? with
  | none => (none, s)
  | some ch =>
    if ch = '\n' then
      (some ch, { s with position := s.position + 1, line := s.line + 1, column := 1 })
    else (some ch, { s with position := s.position + 1, column := s.column + 1 })

/-- Passes the next character if it is the expected one, and tells whether it did. -/
def accept (expected : Char) (s : Scanner) : Bool × Scanner :=
  if s.peek = some expected then (true, s.advance.2) else (false, s)

/-- A token begins at the next character. -/
def beginToken (s : Scanner) : Scanner :=
  { s with start := s.position, startLine := s.line, startColumn := s.column }

/-- The text of the token so far, if its indices are in order and inside the input. -/
def lexeme (s : Scanner) : Option String :=
  if s.start ≤ s.position ∧ s.position ≤ s.input.size then
    some (String.ofList (s.input.extract s.start s.position).toList)
  else none

/-- The columns of the token so far. A span covers at least the place where the token began. -/
def span (s : Scanner) : Span :=
  ⟨s.startLine, s.startColumn, max (s.column - 1) s.startColumn⟩

/-- The place where the token began. -/
def tokenStart (s : Scanner) : Position := ⟨s.startLine, s.startColumn⟩

/-- The place of the next character. -/
def here (s : Scanner) : Position := ⟨s.line, s.column⟩

/-- The cursor at the same place: the text ahead, and the characters of the token so far. -/
def cursor (s : Scanner) : Cursor where
  rest := s.input.toList.drop s.position
  here := s.here
  passed := ((s.input.toList.take s.position).drop s.start).reverse
  mark := s.tokenStart

end Scanner

end GameLang
