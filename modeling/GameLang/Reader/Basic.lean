import GameLang.Reader.Cause

/-!
# Readers

The grammar is written once, for whatever can look at the next token, take it, stop and repeat
(`ReadsTokens`). A `Reader` is the plainest of these: it takes tokens from the front of a list and
gives a value, or the cause why it cannot; both come with the tokens that it left. Since a failure
keeps the tokens left, the token at fault is always the first of them, and reading can go on there.
-/

namespace GameLang

/-- What a grammar asks of its readers. -/
class ReadsTokens (m : Type → Type) extends Monad m where
  /-- Stops at the next token. -/
  fail {α : Type} (cause : Cause) : m α
  /-- The next token, which is not taken. -/
  peek : m Token
  /-- Takes the next token; an end token stays. -/
  advance : m Token
  /-- Repeats a reader until it gives `none`. -/
  many {α : Type} (round : m (Option α)) : m (List α)

/-- How reading ended, with the tokens left. -/
inductive Outcome (α : Type) where
  | ok (value : α) (rest : List Token)
  | fail (cause : Cause) (rest : List Token)

/-- Reads a value from the front of a list of tokens. -/
def Reader (α : Type) := List Token → Outcome α

namespace Reader

export ReadsTokens (fail peek advance many)

/-! ### Steps of every grammar -/

section

variable {m : Type → Type} [ReadsTokens m]

def peekKind : m Kind := do return (← peek).kind

/-- Takes the next token if it has the kind. -/
def accept (kind : Kind) : m (Option Token) := do
  if (← peekKind) = kind then return some (← advance) else return none

/-- Takes the next token, which must have the kind. -/
def expect (kind : Kind) (place : Place) : m Token := do
  match ← accept kind with
  | some t => return t
  | none => fail (.missing kind place)

end

/-! ### Lists of tokens -/

variable {α β : Type}

protected def pure (value : α) : Reader α := fun ts => .ok value ts

/-- Goes on with what was read. -/
protected def bind (r : Reader α) (next : α → Reader β) : Reader β := fun ts =>
  match r ts with
  | .ok value rest => next value rest
  | .fail cause rest => .fail cause rest

instance : Monad Reader where
  pure := Reader.pure
  bind := Reader.bind

/-- The token at which a list of tokens ends, even if no end token closes it. -/
def current : List Token → Token
  | [] => Token.ending .start
  | t :: _ => t

/-- Repeats a reader until it gives `none`, and gives the values after those `read` already, last
first. Each round takes a token, so the tokens at the start, given as `bound`, are enough for all
rounds. -/
def repeatFrom (r : Reader (Option α)) (bound : List Token) (read : List α) (ts : List Token) :
    Outcome (List α) :=
  match bound with
  | [] => .ok read.reverse ts
  | _ :: bound =>
    match r ts with
    | .ok (some value) rest => repeatFrom r bound (value :: read) rest
    | .ok none rest => .ok read.reverse rest
    | .fail cause rest => .fail cause rest

instance : ReadsTokens Reader where
  fail cause := fun ts => .fail cause ts
  peek := fun ts => .ok (current ts) ts
  advance := fun ts =>
    match ts with
    | [] => .ok (current []) []
    | t :: rest => if t.kind = .eof then .ok t ts else .ok t rest
  many r := fun ts => repeatFrom r ts [] ts

theorem advance_of_end {t : Token} (ended : t.kind = .eof) (rest : List Token) :
    (advance : Reader Token) (t :: rest) = .ok t (t :: rest) := if_pos ended

theorem advance_of_inside {t : Token} (inside : t.kind ≠ .eof) (rest : List Token) :
    (advance : Reader Token) (t :: rest) = .ok t rest := if_neg inside

theorem many_eq (r : Reader (Option α)) (ts : List Token) : many r ts = repeatFrom r ts [] ts := rfl

theorem bind_of_ok {r : Reader α} {ts rest : List Token} {value : α} (read : r ts = .ok value rest)
    (next : α → Reader β) : (r >>= next) ts = next value rest := by
  change Reader.bind r next ts = _
  rw [Reader.bind, read]

theorem bind_of_fail {r : Reader α} {ts rest : List Token} {cause : Cause}
    (failed : r ts = .fail cause rest) (next : α → Reader β) :
    (r >>= next) ts = .fail cause rest := by
  change Reader.bind r next ts = _
  rw [Reader.bind, failed]

/-- Runs a reader: its value or the error, and the tokens left. -/
def run (r : Reader α) (ts : List Token) : Except SyntaxError α × List Token :=
  match r ts with
  | .ok value rest => (.ok value, rest)
  | .fail cause rest => (.error ⟨cause, current rest⟩, rest)

end Reader

end GameLang
