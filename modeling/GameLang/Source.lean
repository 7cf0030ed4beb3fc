import GameLang.Reader.Goal
import GameLang.Token.Lexer

/-!
# Source texts

A text that is a program, with its tokens, and why a text is none.
-/

namespace GameLang

/-- Why a text is no program. -/
inductive SourceError where
  | lexical (e : LexicalError)
  | grammatical (e : SyntaxError)
  deriving DecidableEq

namespace SourceError

def place : SourceError → Position
  | lexical e => e.place
  | grammatical e => e.place

def message : SourceError → String
  | lexical e => e.message
  | grammatical e => e.message

end SourceError

def Program.ofTokens (ts : List Token) : Except SyntaxError Program :=
  ((Reader.program nestingLimit).run ts).1

structure Source where
  tokens : List Token
  program : Program

def Source.read (text : String) : Except SourceError Source :=
  match GameLang.tokens text with
  | .error e => .error (.lexical e)
  | .ok ts =>
    match Program.ofTokens ts with
    | .error e => .error (.grammatical e)
    | .ok p => .ok ⟨ts, p⟩

namespace Source

variable {text : String}

theorem read_eq_ok_iff {source : Source} : read text = .ok source ↔
    GameLang.tokens text = .ok source.tokens ∧ Program.ofTokens source.tokens = .ok source.program := by
  unfold read
  constructor
  · intro accepted
    cases lexed : GameLang.tokens text with
    | error e => simp [lexed] at accepted
    | ok ts =>
      cases parsed : Program.ofTokens ts with
      | error e => simp [lexed, parsed] at accepted
      | ok p =>
        obtain rfl : ⟨ts, p⟩ = source := by simpa [lexed, parsed] using accepted
        exact ⟨rfl, parsed⟩
  · rintro ⟨lexed, parsed⟩
    simp [lexed, parsed]

theorem exists_of_map_read {α : Type} {f : Source → α} {v : α} (shown : (read text).map f = .ok v) :
    ∃ source, read text = .ok source ∧ f source = v := by
  cases result : read text with
  | error e =>
    rw [result] at shown
    cases shown
  | ok source =>
    rw [result] at shown
    exact ⟨source, rfl, Except.ok.inj shown⟩

theorem ofTokens_of_read {ts : List Token} {e : SyntaxError} (lexed : GameLang.tokens text = .ok ts)
    (failed : read text = .error (.grammatical e)) : Program.ofTokens ts = .error e := by
  unfold read at failed
  cases parsed : Program.ofTokens ts with
  | ok p => simp [lexed, parsed] at failed
  | error refused =>
    obtain rfl : refused = e := by simpa [lexed, parsed] using failed
    rfl

end Source

end GameLang
