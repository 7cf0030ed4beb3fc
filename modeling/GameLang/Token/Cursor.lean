import GameLang.Token.Basic

/-!
# Cursors

A cursor walks over a text, knows its place, and remembers what it passed since it was last marked.
-/

namespace GameLang

/-- A cursor: the text ahead, its place, and since the last mark the characters passed, last first,
with the place of the mark. -/
structure Cursor where
  rest : List Char
  here : Position
  passed : List Char
  mark : Position
  deriving DecidableEq

namespace Cursor

def ofText (text : List Char) : Cursor := ⟨text, .start, [], .start⟩

def ofString (s : String) : Cursor := ofText s.toList

/-- Nothing is ahead. -/
def atEnd (c : Cursor) : Bool := c.rest.isEmpty

def peek (c : Cursor) : Option Char := c.rest.head?

def peekSecond (c : Cursor) : Option Char := c.rest.tail.head?

/-- Passes the next character, if there is one. -/
def advance (c : Cursor) : Cursor :=
  match c.rest with
  | [] => c
  | ch :: rest => { c with rest := rest, here := c.here.next ch, passed := ch :: c.passed }

/-- Passes the longest run of characters that satisfy `p`. -/
def advanceWhile (p : Char → Bool) (c : Cursor) : Cursor :=
  let run := c.rest.takeWhile p
  { c with
    rest := c.rest.dropWhile p
    here := c.here.after run
    passed := run.reverse ++ c.passed }

/-- Passes the next character if it is the expected one, and tells whether it did. -/
def accept (expected : Char) (c : Cursor) : Bool × Cursor :=
  if c.peek = some expected then (true, c.advance) else (false, c)

/-- Marks the place of the cursor. -/
def marked (c : Cursor) : Cursor := { c with passed := [], mark := c.here }

/-- The text since the mark. -/
def lexeme (c : Cursor) : String := String.ofList c.passed.reverse

/-- The columns since the mark, on the line of the mark. A span covers at least the mark. -/
def span (c : Cursor) : Span :=
  ⟨c.mark.line, c.mark.column, max (c.here.column - 1) c.mark.column⟩

theorem rest_advance_le (c : Cursor) : c.advance.rest.length ≤ c.rest.length := by
  unfold advance
  split
  · exact Nat.le_refl _
  · rename_i h; simp [h]

theorem rest_advanceWhile_le (p : Char → Bool) (c : Cursor) :
    (c.advanceWhile p).rest.length ≤ c.rest.length :=
  (List.dropWhile_sublist p).length_le

theorem rest_accept_le (expected : Char) (c : Cursor) :
    (c.accept expected).2.rest.length ≤ c.rest.length := by
  unfold accept
  split
  · exact rest_advance_le c
  · exact Nat.le_refl _

end Cursor

end GameLang
