import GameLang.Reader.Goal

/-!
# Reading sessions

A session keeps a list of tokens, how many of them were taken, and how many levels of nesting are
open. The grammar runs in it as it does on a list of tokens; what differs is that each level is
opened and closed again, and that the counter says when there is none left. A call reads for one
goal; whether it succeeds or not, more calls can follow in the session that it leaves.
-/

namespace GameLang

structure Session where
  tokens : Array Token
  /-- How many tokens were taken. -/
  position : Nat
  /-- How many levels are open. -/
  depth : Nat

/-- Something done in a session: its value or an error, and the session after it. -/
def Action (α : Type) := Session → Except SyntaxError α × Session

namespace Session

def start (ts : List Token) : Session := ⟨ts.toArray, 0, 0⟩

/-- The next token, or an end behind the last one. -/
def current (s : Session) : Token := s.tokens[s.position]?.getD (Token.ending .start)

variable {α β : Type}

/-! ### Steps -/

protected def pure (value : α) : Action α := fun s => (.ok value, s)

/-- Goes on with the value of an action, unless it failed. -/
protected def bind (first : Action α) (next : α → Action β) : Action β := fun s =>
  match first s with
  | (.ok value, after) => next value after
  | (.error e, after) => (.error e, after)

instance : Monad Action where
  pure := Session.pure
  bind := Session.bind

protected def fail (cause : Cause) : Action α := fun s => (.error ⟨cause, s.current⟩, s)

protected def peek : Action Token := fun s => (.ok s.current, s)

/-- Takes the next token; an end token stays. -/
protected def advance : Action Token := fun s =>
  if s.current.kind = .eof then (.ok s.current, s)
  else (.ok s.current, { s with position := s.position + 1 })

/-- Repeats an action until it gives `none`, and gives the values after those `read` already, last
first. Each round takes a token, so a bound on the rounds is the number of tokens at the start. -/
def repeatFrom (round : Action (Option α)) (bound : Nat) (read : List α) : Action (List α) := fun s =>
  match bound with
  | 0 => (.ok read.reverse, s)
  | bound + 1 =>
    match round s with
    | (.ok (some value), after) => repeatFrom round bound (value :: read) after
    | (.ok none, after) => (.ok read.reverse, after)
    | (.error e, after) => (.error e, after)

protected def many (round : Action (Option α)) : Action (List α) := fun s =>
  repeatFrom round (s.tokens.size - s.position) [] s

instance : ReadsTokens Action where
  fail := Session.fail
  peek := Session.peek
  advance := Session.advance
  many := Session.many

/-! ### Levels -/

/-- Opens a level for an action, if there is one left, and closes it after the action. -/
def nested (inside : Action α) : Action α := fun s =>
  if nestingLimit ≤ s.depth then Session.fail .nestingTooDeep s
  else
    let (result, after) := inside { s with depth := s.depth + 1 }
    (result, { after with depth := after.depth - 1 })

/-- An operand inside a level. The first argument bounds the recursion, here and below: it is used up
no sooner than all levels are open. -/
def operand : Nat → Action Expr
  | 0 => Reader.operandWith (nested Reader.tooDeep) (nested Reader.tooDeep)
  | levels + 1 => fun s =>
    Reader.operandWith (nested (operand levels)) (nested (Reader.chains (operand levels))) s

/-- An expression, in a level of its own. -/
def expression : Nat → Action Expr
  | 0 => nested Reader.tooDeep
  | levels + 1 => nested (Reader.chains (operand levels))

/-- A statement, in a level of its own. -/
def statement : Nat → Action Stmt
  | 0 => nested Reader.tooDeep
  | levels + 1 => nested fun s => Reader.statementWith (statement levels) (expression levels) s

/-! ### Calls -/

/-- Reads for a goal in a session. -/
def call (goal : Goal) (s : Session) : Except SyntaxError Tree × Session :=
  goal.readWith (statement nestingLimit) (expression nestingLimit) s

/-- The session after some calls, whatever came of them. -/
def after (goals : List Goal) (s : Session) : Session := goals.foldl (fun s goal => (s.call goal).2) s

/-- Reads for one goal after the other, and gives each result with the session after it. -/
def callAll : List Goal → Session → List (Except SyntaxError Tree × Session)
  | [], _ => []
  | goal :: goals, s => s.call goal :: callAll goals (s.call goal).2

end Session

end GameLang
