import GameLang.Proofs.Lexing.Place
import GameLang.Token.Scanner

/-!
# Scanners in use

Whatever is done with a new scanner, its indices stay in order and inside the text, so that its lexeme
is always there; its places and its span are those of the text up to its indices; and it answers as a
cursor does (`Scanner.run_exact`). One operation is followed by its kind (`Scanner.perform_cases`): it
begins a token, passes the next character, or changes nothing.
-/

namespace GameLang

namespace Scanner

/-! ### Operations and answers -/

/-- What can be done with a scanner, and with a cursor. -/
inductive Operation where
  | advance
  | accept (expected : Char)
  | beginToken
  | peek
  | peekSecond
  | atEnd
  | lexeme
  | span
  | tokenStart
  | here
  deriving DecidableEq

inductive Answer where
  | nothing
  | char (next : Option Char)
  | truth (value : Bool)
  | text (lexeme : Option String)
  | span (columns : Span)
  | place (p : Position)
  deriving DecidableEq

/-- The answer of an operation and the scanner after it. -/
def perform (s : Scanner) : Operation → Answer × Scanner
  | .advance => (.char s.advance.1, s.advance.2)
  | .accept expected => (.truth (s.accept expected).1, (s.accept expected).2)
  | .beginToken => (.nothing, s.beginToken)
  | .peek => (.char s.peek, s)
  | .peekSecond => (.char s.peekSecond, s)
  | .atEnd => (.truth s.atEnd, s)
  | .lexeme => (.text s.lexeme, s)
  | .span => (.span s.span, s)
  | .tokenStart => (.place s.tokenStart, s)
  | .here => (.place s.here, s)

/-- The answers of operations, one after the other, and the scanner after them. -/
def run (s : Scanner) : List Operation → List Answer × Scanner
  | [] => ([], s)
  | op :: ops => ((s.perform op).1 :: ((s.perform op).2.run ops).1, ((s.perform op).2.run ops).2)

/-- The characters that an operation passed, as its answer tells. -/
def Operation.passed : Operation → Answer → List Char
  | advance, .char (some ch) => [ch]
  | accept expected, .truth true => [expected]
  | _, _ => []

/-- The characters passed since a token began last, after an operation, if they were `since` in front
of it. -/
def sinceBegin (since : List Char) : Operation × Answer → List Char
  | (.beginToken, _) => []
  | (op, answer) => since ++ op.passed answer

end Scanner

open Scanner in
/-- The answer of a cursor to an operation, and the cursor behind it. -/
def Cursor.perform (c : Cursor) : Operation → Answer × Cursor
  | .advance => (.char c.peek, c.advance)
  | .accept expected => (.truth (c.accept expected).1, (c.accept expected).2)
  | .beginToken => (.nothing, c.marked)
  | .peek => (.char c.peek, c)
  | .peekSecond => (.char c.peekSecond, c)
  | .atEnd => (.truth c.atEnd, c)
  | .lexeme => (.text (some c.lexeme), c)
  | .span => (.span c.span, c)
  | .tokenStart => (.place c.mark, c)
  | .here => (.place c.here, c)

open Scanner in
def Cursor.run (c : Cursor) : List Operation → List Answer × Cursor
  | [] => ([], c)
  | op :: ops => ((c.perform op).1 :: ((c.perform op).2.run ops).1, ((c.perform op).2.run ops).2)

namespace Scanner

variable {s : Scanner} {op : Operation} {text since : List Char} {ch : Char}

/-! ### What an operation can do -/

theorem advance_of_none (ended : s.input[s.position]? = none) : s.advance = (none, s) := by
  rw [advance, ended]

theorem advance_of_some (next : s.input[s.position]? = some ch) :
    s.advance = (some ch, { s with
      position := s.position + 1
      line := (s.here.next ch).line
      column := (s.here.next ch).column }) := by
  rw [advance, next]
  unfold Position.next here
  by_cases feed : ch = '\n'
  · simp only [if_pos feed]
  · simp only [if_neg feed]

/-- All that an operation can do: begin a token, nothing, or pass the next character. -/
theorem perform_cases (op : Operation) (s : Scanner) :
    op = .beginToken ∧ (s.perform op).2 = s.beginToken ∨
      op ≠ .beginToken ∧ op.passed (s.perform op).1 = [] ∧ (s.perform op).2 = s ∨
      op ≠ .beginToken ∧ ∃ ch, s.input[s.position]? = some ch ∧
        op.passed (s.perform op).1 = [ch] ∧ (s.perform op).2 = s.advance.2 := by
  cases op with
  | beginToken => exact .inl ⟨rfl, rfl⟩
  | advance =>
    cases next : s.input[s.position]? with
    | none =>
      have stays := advance_of_none next
      exact .inr (.inl ⟨by decide, by simp [perform, stays, Operation.passed], by simp [perform, stays]⟩)
    | some ch =>
      have answers : s.advance.1 = some ch := by rw [advance_of_some next]
      exact .inr (.inr ⟨by decide, ch, rfl, by simp [perform, answers, Operation.passed], rfl⟩)
  | accept expected =>
    by_cases next : s.peek = some expected
    · have taken : s.accept expected = (true, s.advance.2) := if_pos next
      exact .inr (.inr ⟨Operation.noConfusion, expected, next, by simp [perform, taken, Operation.passed],
        by simp [perform, taken]⟩)
    · have kept : s.accept expected = (false, s) := if_neg next
      exact .inr (.inl ⟨Operation.noConfusion, by simp [perform, kept, Operation.passed],
        by simp [perform, kept]⟩)
  | _ => exact .inr (.inl ⟨Operation.noConfusion, rfl, rfl⟩)

theorem sinceBegin_of_ne (different : op ≠ .beginToken) (answer : Answer) :
    sinceBegin since (op, answer) = since ++ op.passed answer := by
  cases op with
  | beginToken => exact absurd rfl different
  | _ => rfl

/-! ### The invariant -/

/-- What a scanner says is so of its text, of which it passed the characters `since` after the token
began. -/
structure Exact (text since : List Char) (s : Scanner) : Prop where
  input : s.input.toList = text
  start_le : s.start ≤ s.position
  position_le : s.position ≤ text.length
  here : s.here = .behind (text.take s.position)
  tokenStart : s.tokenStart = .behind (text.take s.start)
  since : (text.take s.position).drop s.start = since

theorem exact_ofString (source : String) : (ofString source).Exact source.toList [] where
  input := rfl
  start_le := Nat.le_refl 0
  position_le := Nat.zero_le _
  here := rfl
  tokenStart := rfl
  since := by simp [ofString]

namespace Exact

theorem getElem? (exact : s.Exact text since) (i : Nat) : s.input[i]? = text[i]? := by
  rw [← Array.getElem?_toList, exact.input]

theorem size (exact : s.Exact text since) : s.input.size = text.length := by
  rw [← Array.length_toList, exact.input]

theorem beginToken (exact : s.Exact text since) : s.beginToken.Exact text [] where
  input := exact.input
  start_le := Nat.le_refl _
  position_le := exact.position_le
  here := exact.here
  tokenStart := exact.here
  since := List.drop_eq_nil_of_le (List.length_take_le _ _)

theorem advance (exact : s.Exact text since) (next : s.input[s.position]? = some ch) :
    s.advance.2.Exact text (since ++ [ch]) := by
  have there : text[s.position]? = some ch := exact.getElem? s.position ▸ next
  have inside : s.position < text.length := (List.getElem?_eq_some_iff.mp there).1
  have longer : text.take (s.position + 1) = text.take s.position ++ [ch] := by
    rw [List.take_add_one, there, Option.toList_some]
  have start : s.start ≤ (text.take s.position).length := by
    rw [List.length_take_of_le exact.position_le]
    exact exact.start_le
  rw [advance_of_some next]
  refine ⟨exact.input, Nat.le_succ_of_le exact.start_le, inside, ?_, exact.tokenStart, ?_⟩
  · change s.here.next ch = .behind (text.take (s.position + 1))
    rw [longer, Position.behind_append_singleton, exact.here]
  · change (text.take (s.position + 1)).drop s.start = since ++ [ch]
    rw [longer, List.drop_append_of_le_length start, exact.since]

theorem perform (exact : s.Exact text since) (op : Operation) :
    (s.perform op).2.Exact text (sinceBegin since (op, (s.perform op).1)) := by
  rcases perform_cases op s with ⟨rfl, begun⟩ | ⟨different, nothing, kept⟩ |
    ⟨different, ch, next, passed, moved⟩
  · rw [begun]
    exact exact.beginToken
  · rw [sinceBegin_of_ne different, nothing, kept, List.append_nil]
    exact exact
  · rw [sinceBegin_of_ne different, passed, moved]
    exact exact.advance next

theorem run (exact : s.Exact text since) (ops : List Operation) :
    (s.run ops).2.Exact text ((ops.zip (s.run ops).1).foldl sinceBegin since) := by
  induction ops generalizing s since with
  | nil => exact exact
  | cons op ops ih => exact ih (exact.perform op)

theorem lexeme_eq (exact : s.Exact text since) : s.lexeme = some (String.ofList since) := by
  have inside : s.start ≤ s.position ∧ s.position ≤ s.input.size :=
    ⟨exact.start_le, exact.size ▸ exact.position_le⟩
  rw [lexeme, if_pos inside, Array.toList_extract, List.extract_eq_take_drop, exact.input,
    ← List.drop_take, exact.since]

theorem here_eq_after (exact : s.Exact text since) : s.here = s.tokenStart.after since := by
  have front : (text.take s.position).take s.start = text.take s.start := by
    rw [List.take_take, Nat.min_eq_left exact.start_le]
  have split : text.take s.start ++ since = text.take s.position := by
    rw [← front, ← exact.since, List.take_append_drop]
  rw [exact.here, exact.tokenStart, ← split, ← Position.after_start, ← Position.after_start,
    Position.after_append]

theorem span_eq (exact : s.Exact text since) : s.span = Span.over s.tokenStart since := by
  have column : s.column = (s.tokenStart.after since).column := congrArg Position.column exact.here_eq_after
  rw [span, column]
  rfl

end Exact

/-! ### The cursor of a scanner -/

theorem cursor_ofString (source : String) : (ofString source).cursor = .ofString source := by
  simp [ofString, cursor, Cursor.ofString, Cursor.ofText, here, tokenStart, Position.start]

theorem peek_cursor (s : Scanner) : s.cursor.peek = s.peek := by
  simp [cursor, Cursor.peek, peek]

theorem peekSecond_cursor (s : Scanner) : s.cursor.peekSecond = s.peekSecond := by
  simp [cursor, Cursor.peekSecond, peekSecond, List.head?_eq_getElem?]

theorem atEnd_cursor (s : Scanner) : s.cursor.atEnd = s.atEnd := by
  rw [Bool.eq_iff_iff]
  simp [cursor, Cursor.atEnd, atEnd]

theorem cursor_beginToken (s : Scanner) : s.beginToken.cursor = s.cursor.marked := by
  simp [cursor, beginToken, Cursor.marked, here, tokenStart]

namespace Exact

theorem cursor_eq (exact : s.Exact text since) :
    s.cursor = ⟨text.drop s.position, s.here, since.reverse, s.tokenStart⟩ := by
  rw [cursor, exact.input, exact.since]

theorem cursor_advance (exact : s.Exact text since) : s.advance.2.cursor = s.cursor.advance := by
  cases next : s.input[s.position]? with
  | none =>
    have ended : s.cursor.rest = [] := by
      rw [exact.cursor_eq]
      exact List.drop_eq_nil_of_le (List.getElem?_eq_none_iff.mp (exact.getElem? _ ▸ next))
    rw [advance_of_none next, Cursor.advance, ended]
  | some ch =>
    have there : text[s.position]? = some ch := exact.getElem? s.position ▸ next
    obtain ⟨inside, same⟩ := List.getElem?_eq_some_iff.mp there
    have ahead : text.drop s.position = ch :: text.drop (s.position + 1) := by
      rw [List.drop_eq_getElem_cons inside, same]
    rw [(exact.advance next).cursor_eq, exact.cursor_eq, advance_of_some next, ahead,
      List.reverse_append]
    rfl

theorem cursor_accept (exact : s.Exact text since) (expected : Char) :
    ((s.accept expected).1, (s.accept expected).2.cursor) = s.cursor.accept expected := by
  unfold accept Cursor.accept
  rw [peek_cursor]
  by_cases next : s.peek = some expected
  · rw [if_pos next, if_pos next, exact.cursor_advance]
  · rw [if_neg next, if_neg next]

theorem lexeme_cursor (exact : s.Exact text since) : some s.cursor.lexeme = s.lexeme := by
  rw [exact.lexeme_eq, exact.cursor_eq, Cursor.lexeme, List.reverse_reverse]

/-- A scanner and its cursor answer alike, and what is behind the one is the cursor of what is behind
the other. -/
theorem perform_cursor (exact : s.Exact text since) (op : Operation) :
    s.cursor.perform op = ((s.perform op).1, (s.perform op).2.cursor) := by
  cases op with
  | advance =>
    have answer : s.advance.1 = s.peek := by
      rw [peek]
      cases next : s.input[s.position]? with
      | none => rw [advance_of_none next]
      | some ch => rw [advance_of_some next]
    rw [Cursor.perform, Scanner.perform, peek_cursor, answer, exact.cursor_advance]
  | accept expected =>
    have both := exact.cursor_accept expected
    rw [Cursor.perform, Scanner.perform, ← both]
  | beginToken => rw [Cursor.perform, Scanner.perform, cursor_beginToken]
  | peek => rw [Cursor.perform, Scanner.perform, peek_cursor]
  | peekSecond => rw [Cursor.perform, Scanner.perform, peekSecond_cursor]
  | atEnd => rw [Cursor.perform, Scanner.perform, atEnd_cursor]
  | lexeme => rw [Cursor.perform, Scanner.perform, exact.lexeme_cursor]
  | span | tokenStart | here => rfl

theorem run_cursor (exact : s.Exact text since) (ops : List Operation) :
    s.cursor.run ops = ((s.run ops).1, (s.run ops).2.cursor) := by
  induction ops generalizing s since with
  | nil => rfl
  | cons op ops ih => rw [Cursor.run, exact.perform_cursor op, ih (exact.perform op), Scanner.run]

end Exact

/-- Whatever operations are done with a new scanner, its indices are in order and inside the text; its
places are those of the text up to its indices; its lexeme is there and is the text passed since the
token began; its span starts there. It answers as a new cursor does, it moves by what it passed, and
only passing a character and beginning a token change it. -/
theorem run_exact (source : String) (ops : List Operation) :
    let answers := ((ofString source).run ops).1
    let s := ((ofString source).run ops).2
    let since := (ops.zip answers).foldl sinceBegin []
    let text := source.toList
    s.start ≤ s.position ∧ s.position ≤ text.length ∧
      s.here = .behind (text.take s.position) ∧ s.tokenStart = .behind (text.take s.start) ∧
      s.lexeme = some (String.ofList since) ∧ since = (text.take s.position).drop s.start ∧
      s.span.line = s.startLine ∧ s.span.first = s.startColumn ∧ s.span.first ≤ s.span.last ∧
      (since ≠ [] → '\n' ∉ since → s.span.last = s.span.first + since.length - 1) ∧
      s.peek = text[s.position]? ∧ s.peekSecond = text[s.position + 1]? ∧
      (s.atEnd = true ↔ s.position = text.length) ∧
      (∀ op, (s.perform op).2.position = s.position + (op.passed (s.perform op).1).length) ∧
      (∀ op, op ≠ .beginToken → op.passed (s.perform op).1 = [] → (s.perform op).2 = s) ∧
      (Cursor.ofString source).run ops = (answers, s.cursor) := by
  intro answers s since text
  have exact : s.Exact text since := (exact_ofString source).run ops
  refine ⟨exact.start_le, exact.position_le, exact.here, exact.tokenStart, exact.lexeme_eq,
    exact.since.symm, rfl, rfl, Nat.le_max_right _ _, ?_, exact.getElem? _, exact.getElem? _, ?_, ?_, ?_,
    ?_⟩
  · intro some inLine
    rw [exact.span_eq, Span.over_of_not_mem inLine some]
  · have inside := exact.position_le
    rw [atEnd, decide_eq_true_iff, exact.size]
    omega
  · intro op
    rcases perform_cases op s with ⟨rfl, begun⟩ | ⟨-, nothing, kept⟩ | ⟨-, ch, next, passed, moved⟩
    · rfl
    · rw [nothing, kept]
      rfl
    · rw [passed, moved, advance_of_some next]
      rfl
  · intro op different nothing
    rcases perform_cases op s with ⟨same, -⟩ | ⟨-, -, kept⟩ | ⟨-, ch, -, passed, -⟩
    · exact absurd same different
    · exact kept
    · rw [nothing] at passed
      cases passed
  · rw [← cursor_ofString]
    exact (exact_ofString source).run_cursor ops

end Scanner

end GameLang
