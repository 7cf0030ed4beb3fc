import GameLang.Command.Snippet
import GameLang.Proofs.Lexing.Stuck
import GameLang.Proofs.Lexing.Tiles
import GameLang.Proofs.Lookahead.Prefix
import GameLang.Proofs.RoundTrip

/-!
# The text at fault

An error stands at a text within a line of the source, or at the very end (`Source.stands_or_atEnd`).
Such a text ends in a carriage return at the end of its line only where a quote is not closed.
-/

namespace GameLang

open Lexer

/-! ### The ends of words -/

/-- A word does not end in a carriage return. -/
theorem IsWord.getLast?_ne_return {k : Kind} {w : List Char} {value : Option Literal}
    (isWord : IsWord k w value) : w.getLast? ≠ some '\r' :=
  fun last => absurd (isWord.isBlank_last last) (by decide)

/-- In front of a line feed, a text that is no token ends in a carriage return only if a quote was
opened in it. -/
theorem LexicalCause.Explains.quoted {cause : LexicalCause} {w v : List Char}
    (explains : cause.Explains w v) (last : w.getLast? = some '\r') (feed : v.head? = some '\n') :
    cause = .unterminatedString ∨ cause = .malformedChar := by
  have inside := List.mem_of_getLast? last
  have digits {text : List Char} (digits : IsDigits text) : '\r' ∉ text :=
    fun inside => absurd (digits.2 _ inside) (by decide)
  cases cause with
  | unterminatedString => exact .inl rfl
  | malformedChar => exact .inr rfl
  | unexpectedCharacter =>
    obtain ⟨c, rfl, plain, -⟩ := explains
    obtain rfl := List.mem_singleton.mp inside
    exact absurd plain.blank (by decide)
  | unterminatedChar =>
    obtain ⟨-, rfl⟩ := explains
    cases feed
  | malformedNumber =>
    rcases explains with ⟨number, letter, rfl, -, alphabetic⟩ | ⟨all, -⟩
    · have same : letter = '\r' := by simpa using last
      rw [same] at alphabetic
      exact absurd alphabetic (by decide)
    · exact absurd inside (digits all)

/-! ### Errors in their source -/

namespace SourceError

/-- The text that an error is about. -/
def offending : SourceError → String
  | lexical e => e.snippet
  | grammatical e => e.token.lexeme

/-- An error is about the end of its source. -/
def AtEnd : SourceError → Prop
  | lexical _ => False
  | grammatical e => e.token.kind = .eof

/-- The text that an error is about stands in a source, within a line, where the error does. -/
structure Stands (e : SourceError) (source front v : List Char) : Prop where
  split : source = front ++ (e.offending.toList ++ v)
  place : e.place = .behind front
  nonempty : e.offending.toList ≠ []
  inLine : '\n' ∉ e.offending.toList
  width : e.width = e.offending.toList.length
  quoted : e.offending.toList.getLast? = some '\r' → v.head? = some '\n' →
    ∃ l, e = .lexical l ∧ (l.cause = .unterminatedString ∨ l.cause = .malformedChar)

end SourceError

namespace Source

variable {text : String} {e : SourceError}

theorem token_mem_of_error {ts : List Token} {e : SyntaxError} (lexed : GameLang.tokens text = .ok ts)
    (failed : Program.ofTokens ts = .error e) : e.token ∈ ts := by
  obtain ⟨us, q, split, -⟩ := (tokens_eq_ok_iff.mp lexed).exists_words
  have ended : Token.ending q ∈ ts := by simp [split]
  obtain ⟨rest, run⟩ : ∃ rest, (Reader.program nestingLimit).run ts = (.error e, rest) :=
    ⟨_, Prod.ext failed rfl⟩
  obtain ⟨cause, stopped, rfl⟩ := Reader.run_error_iff.mp run
  have mirrors : Local .same (Reader.program nestingLimit) := Reader.program_local nestingLimit
  have passes := mirrors.passes ts
  rw [stopped] at passes
  obtain ⟨front, t, back, rfl, left⟩ := passes.exists_cons ended rfl
  obtain rfl : rest = t :: back := left
  exact List.mem_append_right front List.mem_cons_self

theorem stands_of_lexical {l : LexicalError} (failed : GameLang.tokens text = .error l) :
    ∃ front v, (SourceError.lexical l).Stands text.toList front v := by
  obtain ⟨front, w, v, ts, split, -, exact⟩ := exact_of_tokenizeFrom (.ofString text) [] failed
  have spelled : l.snippet.toList = w := by rw [exact.snippet, String.toList_ofList]
  have nonempty : w ≠ [] := by
    obtain ⟨c, others, rfl, -⟩ := exact.explained.opens
    exact List.cons_ne_nil c others
  subst spelled
  exact ⟨front, v, split, exact.place.trans (Position.after_start front), nonempty,
    exact.explained.lineFeed_not_mem, String.length_toList.symm,
    fun last feed => ⟨l, rfl, exact.explained.quoted last feed⟩⟩

theorem stands_of_word {s : SyntaxError} {front v : List Char} (isWord : s.token.IsWord)
    (split : text.toList = front ++ (s.token.lexeme.toList ++ v))
    (placed : s.token.span = Span.over (.behind front) s.token.lexeme.toList) :
    (SourceError.grammatical s).Stands text.toList front v := by
  have positive := List.length_pos_iff.mpr isWord.ne_nil
  rw [Span.over_of_not_mem isWord.lineFeed_not_mem isWord.ne_nil] at placed
  refine ⟨split, ?_, isWord.ne_nil, isWord.lineFeed_not_mem, ?_,
    fun last => absurd last isWord.getLast?_ne_return⟩
  · rw [SourceError.place, SyntaxError.place, Token.start, placed]
    rfl
  · rw [SourceError.width, placed, SourceError.offending]
    dsimp only
    omega

/-- An error is about a text in its source, or about the end. -/
theorem stands_or_atEnd (failed : Source.read text = .error e) :
    (¬ e.AtEnd ∧ ∃ front v, e.Stands text.toList front v) ∨
      ∃ cause, e = .grammatical ⟨cause, Token.ending (.behind text.toList)⟩ := by
  cases lexed : GameLang.tokens text with
  | error l =>
    obtain rfl : .lexical l = e := by simpa [Source.read, lexed] using failed
    exact .inl ⟨id, stands_of_lexical lexed⟩
  | ok ts =>
    cases parsed : Program.ofTokens ts with
    | ok p => simp [Source.read, lexed, parsed] at failed
    | error s =>
      obtain rfl : .grammatical s = e := by simpa [Source.read, lexed, parsed] using failed
      have tiled := tokens_eq_ok_iff.mp lexed
      rcases tiled.eq_ending_or_word _ (token_mem_of_error lexed parsed) with
        same | ⟨isWord, front, v, split, placed⟩
      · rw [Position.after_start] at same
        exact .inr ⟨s.cause, by rw [← same]⟩
      · rw [Position.after_start] at placed
        exact .inl ⟨isWord.kind_ne_eof, front, v, stands_of_word isWord split placed⟩

end Source

end GameLang
