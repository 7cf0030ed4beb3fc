import GameLang.Text.Alphabetic
import GameLang.Text.Slice
import GameLang.Token.Cursor

/-!
# From text to tokens

`step` reads one token or one blank character and reports where the text cannot be read. `tokenize`
repeats it to the end of the text or the first error, and can go on from there. It ends because a
step never stops short of the character it starts at (`rest_step_le`).
-/

namespace GameLang

/-- What can be wrong with the text of a token. -/
inductive LexicalCause where
  | unexpectedCharacter
  | unterminatedString
  | unterminatedChar
  | malformedChar
  | malformedNumber
  deriving DecidableEq

def LexicalCause.message : LexicalCause → String
  | unexpectedCharacter => "Unexpected character"
  | unterminatedString => "Unterminated string literal"
  | unterminatedChar => "Unterminated char literal"
  | malformedChar => "Char literal must contain exactly one character"
  | malformedNumber => "Invalid numeric literal"

/-- A text that is no token: where it starts, and what of it was passed. -/
structure LexicalError where
  cause : LexicalCause
  place : Position
  snippet : String
  deriving DecidableEq

def LexicalError.message (e : LexicalError) : String :=
  "Lexer error at line " ++ Decimal.shownNat e.place.line ++ ", column " ++
    Decimal.shownNat e.place.column ++ ": " ++ e.cause.message ++ " near '" ++ e.snippet ++ "'"

namespace Lexer

/-- Spaces, tabs and line ends separate tokens. -/
def isBlank (c : Char) : Bool := c = ' ' || c = '\t' || c = '\r' || c = '\n'

def isWordStart (c : Char) : Bool := c.isAlpha || c = '_'

def isWordPart (c : Char) : Bool := c.isAlphanum || c = '_'

/-- A character inside a string. -/
def isStringPart (c : Char) : Bool := c ≠ '"' && c ≠ '\n'

/-- What one step of the lexer found. -/
inductive Found where
  | blank
  | token (t : Token)
  | stuck (e : LexicalError)
  deriving DecidableEq

/-- The text since the mark is a token. -/
def token (kind : Kind) (literal : Option Literal) (c : Cursor) : Found × Cursor :=
  (.token ⟨kind, c.lexeme, literal, c.span⟩, c)

/-- The text since the mark is no token. -/
def stuck (cause : LexicalCause) (c : Cursor) : Found × Cursor :=
  (.stuck ⟨cause, c.mark, c.lexeme⟩, c)

/-- The lexeme of a string without its quotes, each of which is one byte. -/
def unquoted (lexeme : String) : Option String :=
  Text.byteSlice lexeme 1 (Text.byteLength lexeme.toList - 1)

/-- A string, after its opening quote. It ends at the next quote, on the same line. -/
def stringLiteral (c : Cursor) : Found × Cursor :=
  let body := c.advanceWhile isStringPart
  if body.peek = some '"' then
    let closed := body.advance
    token .stringLiteral ((unquoted closed.lexeme).map .text) closed
  else stuck .unterminatedString body

/-- A character, after its opening quote. A line feed is never passed; any other character that
cannot stand here is. -/
def charLiteral (c : Cursor) : Found × Cursor :=
  match c.peek with
  | none => stuck .unterminatedChar c
  | some value =>
    if value = '\n' then stuck .malformedChar c
    else if value = '\'' then stuck .malformedChar c.advance
    else
      match c.advance.peek with
      | none => stuck .unterminatedChar c.advance
      | some close =>
        if close = '\'' then token .charLiteral (some (.char value)) c.advance.advance
        else if close = '\n' then stuck .malformedChar c.advance
        else stuck .malformedChar c.advance.advance

/-- The least natural that is too large for an integer literal. -/
def intLimit : Nat := Nat.pow 2 31

/-- The value of digits with a point between them. -/
def realValue (text : List Char) : Decimal.Binary64 :=
  let fraction := (text.dropWhile Char.isDigit).tail
  .ofRatio (Decimal.ofDigits (text.takeWhile Char.isDigit ++ fraction)) (Nat.pow 10 fraction.length)

/-- A real number, after its last digit. A letter must not follow it. -/
def realLiteral (c : Cursor) : Found × Cursor :=
  if c.peek.any Text.isAlphabetic then stuck .malformedNumber c.advance
  else token .realLiteral (some (.real (realValue c.passed.reverse))) c

/-- An integer, after its last digit. A letter must not follow it, and it must be small enough. -/
def intLiteral (c : Cursor) : Found × Cursor :=
  if c.peek.any Text.isAlphabetic then stuck .malformedNumber c.advance
  else
    let value := Decimal.ofDigits c.passed.reverse
    if value < intLimit then token .intLiteral (some (.int value)) c
    else stuck .malformedNumber c

/-- A number, after its first digit. A point belongs to it if a digit follows. -/
def numberLiteral (c : Cursor) : Found × Cursor :=
  let whole := c.advanceWhile Char.isDigit
  if whole.peek = some '.' && whole.peekSecond.any Char.isDigit then
    realLiteral (whole.advance.advanceWhile Char.isDigit)
  else intLiteral whole

/-- A word, after its first character: a reserved word or an identifier. -/
def word (c : Cursor) : Found × Cursor :=
  let whole := c.advanceWhile isWordPart
  match reserved? whole.lexeme with
  | some r => token r.kind (r.value.map .bool) whole
  | none => token .ident none whole

/-- One step, from a cursor that has passed `first` since its mark. -/
def step (first : Char) (c : Cursor) : Found × Cursor :=
  if isBlank first then (.blank, c)
  else match Kind.ofPunctuation? first with
    | some kind => token kind none c
    | none =>
      match Kind.ofComparison? first with
      | some (alone, withEquals) =>
        let (extended, c) := c.accept '='
        token (if extended then withEquals else alone) none c
      | none =>
        if first = '"' then stringLiteral c
        else if first = '\'' then charLiteral c
        else if first.isDigit then numberLiteral c
        else if isWordStart first then word c
        else stuck .unexpectedCharacter c

/-! ### A step never goes back -/

theorem rest_stringLiteral_le (c : Cursor) : (stringLiteral c).2.rest.length ≤ c.rest.length := by
  unfold stringLiteral
  dsimp only
  split
  · exact Nat.le_trans (Cursor.rest_advance_le _) (Cursor.rest_advanceWhile_le _ _)
  · exact Cursor.rest_advanceWhile_le _ _

theorem rest_charLiteral_le (c : Cursor) : (charLiteral c).2.rest.length ≤ c.rest.length := by
  have once := Cursor.rest_advance_le c
  have twice := Nat.le_trans (Cursor.rest_advance_le c.advance) once
  unfold charLiteral
  repeat' split
  all_goals first | exact Nat.le_refl _ | exact once | exact twice

theorem rest_realLiteral_le (c : Cursor) : (realLiteral c).2.rest.length ≤ c.rest.length := by
  unfold realLiteral
  split
  · exact Cursor.rest_advance_le c
  · exact Nat.le_refl _

theorem rest_intLiteral_le (c : Cursor) : (intLiteral c).2.rest.length ≤ c.rest.length := by
  unfold intLiteral
  split
  · exact Cursor.rest_advance_le c
  · dsimp only
    split
    · exact Nat.le_refl _
    · exact Nat.le_refl _

theorem rest_numberLiteral_le (c : Cursor) : (numberLiteral c).2.rest.length ≤ c.rest.length := by
  have whole := Cursor.rest_advanceWhile_le Char.isDigit c
  unfold numberLiteral
  dsimp only
  split
  · exact Nat.le_trans (rest_realLiteral_le _) (Nat.le_trans (Cursor.rest_advanceWhile_le _ _)
      (Nat.le_trans (Cursor.rest_advance_le _) whole))
  · exact Nat.le_trans (rest_intLiteral_le _) whole

theorem rest_word_le (c : Cursor) : (word c).2.rest.length ≤ c.rest.length := by
  unfold word
  dsimp only
  split
  · exact Cursor.rest_advanceWhile_le _ _
  · exact Cursor.rest_advanceWhile_le _ _

/-- A step only passes characters. -/
theorem rest_step_le (first : Char) (c : Cursor) : (step first c).2.rest.length ≤ c.rest.length := by
  unfold step
  split
  · exact Nat.le_refl _
  · split
    · exact Nat.le_refl _
    · split
      · exact Cursor.rest_accept_le _ _
      · split
        · exact rest_stringLiteral_le c
        · split
          · exact rest_charLiteral_le c
          · split
            · exact rest_numberLiteral_le c
            · split
              · exact rest_word_le c
              · exact Nat.le_refl _

/-! ### Whole texts -/

/-- The tokens from a cursor to the end of its text, after those `read` already, last first. The
cursor returned stands at the end, or behind the text that is no token. -/
def tokenizeFrom (c : Cursor) (read : List Token) : Except LexicalError (List Token) × Cursor :=
  match ahead : c.rest with
  | [] => (.ok (Token.ending c.here :: read).reverse, c.marked)
  | first :: _ =>
    have shorter : (step first c.marked.advance).2.rest.length < c.rest.length := by
      have le := rest_step_le first c.marked.advance
      have one : c.marked.advance.rest.length + 1 = c.rest.length := by
        simp [Cursor.marked, Cursor.advance, ahead]
      omega
    match found : step first c.marked.advance with
    | (.blank, c') =>
      have : c'.rest.length < c.rest.length := by rw [found] at shorter; exact shorter
      tokenizeFrom c' read
    | (.token t, c') =>
      have : c'.rest.length < c.rest.length := by rw [found] at shorter; exact shorter
      tokenizeFrom c' (t :: read)
    | (.stuck e, c') => (.error e, c')
termination_by c.rest.length

/-- The tokens ahead of a cursor, closed by an end token, and where reading stopped. -/
def tokenize (c : Cursor) : Except LexicalError (List Token) × Cursor := tokenizeFrom c []

/-- The results of reading a number of times, each time from where the last reading stopped. -/
def tokenizeTimes : Nat → Cursor → List (Except LexicalError (List Token))
  | 0, _ => []
  | times + 1, c => (tokenize c).1 :: tokenizeTimes times (tokenize c).2

end Lexer

/-- The tokens of a text, closed by an end token. -/
def tokens (source : String) : Except LexicalError (List Token) :=
  (Lexer.tokenize (.ofString source)).1

end GameLang
