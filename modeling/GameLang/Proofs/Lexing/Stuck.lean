import GameLang.Proofs.Lexing.Place
import GameLang.Proofs.Lexing.Shape

/-!
# Where a text is no token

`LexicalCause.Explains` says which texts, in front of which others, are no tokens for a cause. No two
causes explain the same text (`LexicalCause.Explains.unique`). A text that cannot be read is tokens,
then the text of the error, for which its cause is the only explanation, then a rest
(`tokens_error_exact`).
-/

namespace GameLang

open Lexer

/-! ### Explanations -/

def IsDigits (w : List Char) : Prop := w ≠ [] ∧ ∀ c ∈ w, c.isDigit = true

/-- Digits, or digits with a point between them. -/
def IsNumeral (w : List Char) : Prop :=
  IsDigits w ∨ ∃ whole fraction, w = whole ++ '.' :: fraction ∧ IsDigits whole ∧ IsDigits fraction

/-- A character that a quote can enclose. -/
def IsCharPart (c : Char) : Prop := c ≠ '\'' ∧ c ≠ '\n'

/-- A text is no token for a cause, with another text behind it. -/
def LexicalCause.Explains (w v : List Char) : LexicalCause → Prop
  | .unexpectedCharacter =>
    ∃ c, w = [c] ∧ Plain c ∧ c.isDigit = false ∧ isWordStart c = false
  | .unterminatedString =>
    (∃ body, w = '"' :: body ∧ ∀ c ∈ body, isStringPart c = true) ∧ (v = [] ∨ v.head? = some '\n')
  | .unterminatedChar => (w = ['\''] ∨ ∃ c, w = ['\'', c] ∧ IsCharPart c) ∧ v = []
  | .malformedChar =>
    w = ['\'', '\''] ∨
      ((w = ['\''] ∨ ∃ c, w = ['\'', c] ∧ IsCharPart c) ∧ v.head? = some '\n') ∨
      ∃ c d, w = ['\'', c, d] ∧ IsCharPart c ∧ IsCharPart d
  | .malformedNumber =>
    (∃ number letter, w = number ++ [letter] ∧ IsNumeral number ∧ Text.isAlphabetic letter = true) ∨
      (IsDigits w ∧ intLimit ≤ Decimal.ofDigits w ∧ Clear .intLiteral v)

/-- The characters with which a text that is no token for a cause can start. -/
def LexicalCause.Opens (c : Char) : LexicalCause → Prop
  | .unexpectedCharacter => Plain c ∧ c.isDigit = false
  | .unterminatedString => c = '"'
  | .unterminatedChar | .malformedChar => c = '\''
  | .malformedNumber => c.isDigit = true

theorem IsDigits.first {w : List Char} (digits : IsDigits w) :
    ∃ c others, w = c :: others ∧ c.isDigit = true := by
  obtain ⟨c, others, rfl⟩ := List.exists_cons_of_ne_nil digits.1
  exact ⟨c, others, rfl, digits.2 c List.mem_cons_self⟩

theorem IsNumeral.first {w : List Char} (numeral : IsNumeral w) :
    ∃ c others, w = c :: others ∧ c.isDigit = true := by
  rcases numeral with digits | ⟨whole, fraction, rfl, digits, -⟩
  · exact digits.first
  · obtain ⟨c, others, rfl, digit⟩ := digits.first
    exact ⟨c, _, rfl, digit⟩

namespace LexicalCause

variable {a b : LexicalCause} {w v : List Char}

theorem Explains.opens (explains : a.Explains w v) : ∃ c others, w = c :: others ∧ a.Opens c := by
  cases a with
  | unexpectedCharacter =>
    obtain ⟨c, rfl, plain, digit, -⟩ := explains
    exact ⟨c, [], rfl, plain, digit⟩
  | unterminatedString =>
    obtain ⟨⟨body, rfl, -⟩, -⟩ := explains
    exact ⟨'"', body, rfl, rfl⟩
  | unterminatedChar =>
    obtain ⟨rfl | ⟨c, rfl, -⟩, -⟩ := explains <;> exact ⟨_, _, rfl, rfl⟩
  | malformedChar =>
    obtain rfl | ⟨rfl | ⟨c, rfl, -⟩, -⟩ | ⟨c, d, rfl, -⟩ := explains <;> exact ⟨_, _, rfl, rfl⟩
  | malformedNumber =>
    rcases explains with ⟨number, letter, rfl, numeral, -⟩ | ⟨digits, -⟩
    · obtain ⟨c, others, rfl, digit⟩ := numeral.first
      exact ⟨c, _, rfl, digit⟩
    · exact digits.first

/-- A quote whose text ends is no quote with a wrong text in it. -/
theorem not_malformedChar (unterminated : unterminatedChar.Explains w v) :
    ¬ malformedChar.Explains w v := by
  obtain ⟨shape, rfl⟩ := unterminated
  rintro (rfl | ⟨-, line⟩ | ⟨c, d, rfl, -⟩)
  · rcases shape with short | ⟨c, same, part⟩
    · cases short
    · cases same
      exact part.1 rfl
  · cases line
  · rcases shape with short | ⟨c, same, -⟩
    · cases short
    · cases same

/-- Only the two causes with characters share a first character. -/
theorem Opens.eq_or {c : Char} (first : a.Opens c) (second : b.Opens c) :
    a = b ∨ a = unterminatedChar ∧ b = malformedChar ∨ a = malformedChar ∧ b = unterminatedChar := by
  have quote : c.isDigit = true → c ≠ '"' := fun digit => (plain_of_isDigit digit).quote
  have apostrophe : c.isDigit = true → c ≠ '\'' := fun digit => (plain_of_isDigit digit).apostrophe
  have plainQuote : Plain c → c ≠ '"' := Plain.quote
  have plainApostrophe : Plain c → c ≠ '\'' := Plain.apostrophe
  cases a <;> cases b <;> simp_all [Opens]

/-- No text has two explanations. -/
theorem Explains.unique (first : a.Explains w v) (second : b.Explains w v) : a = b := by
  obtain ⟨c, others, rfl, opens⟩ := first.opens
  obtain ⟨_, _, same, also⟩ := second.opens
  obtain ⟨rfl, -⟩ := List.cons.inj same
  rcases opens.eq_or also with same | ⟨rfl, rfl⟩ | ⟨rfl, rfl⟩
  · exact same
  · exact absurd second (not_malformedChar first)
  · exact absurd first (not_malformedChar second)

/-- A text that is explained stays on its line. -/
theorem Explains.lineFeed_not_mem (explains : a.Explains w v) : '\n' ∉ w := by
  have digits {text : List Char} (digits : IsDigits text) : '\n' ∉ text :=
    fun inside => absurd (digits.2 _ inside) (by decide)
  cases a with
  | unexpectedCharacter =>
    obtain ⟨c, rfl, plain, -⟩ := explains
    rintro inside
    obtain rfl := List.mem_singleton.mp inside
    exact absurd plain.blank (by decide)
  | unterminatedString =>
    obtain ⟨⟨body, rfl, parts⟩, -⟩ := explains
    rintro (_ | ⟨_, inside⟩)
    exact absurd (parts _ inside) (by decide)
  | unterminatedChar =>
    obtain ⟨rfl | ⟨c, rfl, part⟩, -⟩ := explains
    · decide
    · simpa using part.2.symm
  | malformedChar =>
    obtain rfl | ⟨rfl | ⟨c, rfl, part⟩, -⟩ | ⟨c, d, rfl, part, other⟩ := explains
    · decide
    · decide
    · simpa using part.2.symm
    · simpa using ⟨part.2.symm, other.2.symm⟩
  | malformedNumber =>
    rcases explains with ⟨number, letter, rfl, numeral, alphabetic⟩ | ⟨all, -⟩
    · intro inside
      rcases List.mem_append.mp inside with inside | last
      · rcases numeral with all | ⟨whole, fraction, rfl, first, second⟩
        · exact digits all inside
        · rcases List.mem_append.mp inside with inside | inside
          · exact digits first inside
          · rcases List.mem_cons.mp inside with point | inside
            · cases point
            · exact digits second inside
      · obtain rfl := List.mem_singleton.mp last
        exact absurd alphabetic (by decide)
    · exact digits all

end LexicalCause

/-! ### Steps that find no token -/

/-- An error at a place is explained by its text and the text behind that. -/
structure LexicalError.Exact (e : LexicalError) (p : Position) (w v : List Char) : Prop where
  place : e.place = p
  snippet : e.snippet = String.ofList w
  explained : e.cause.Explains w v

namespace Lexer

variable {c c' : Cursor} {e : LexicalError} {w v rest : List Char}

theorem exact_of_stuck {cause : LexicalCause}
    (read : stuck cause (c.marked.pass w v) = (.stuck e, c')) (explains : cause.Explains w v) :
    e.Exact c.here w v := by
  unfold stuck at read
  rw [Cursor.lexeme_marked_pass] at read
  cases read
  exact ⟨rfl, rfl, explains⟩

theorem exact_of_stringLiteral
    (read : stringLiteral (c.marked.pass ['"'] rest) = (.stuck e, c')) :
    ∃ w v, rest = w ++ v ∧ e.Exact c.here ('"' :: w) v := by
  obtain ⟨body, v, rfl, inside, stop⟩ := exists_run isStringPart rest
  unfold stringLiteral at read
  simp only [Cursor.advanceWhile_run inside stop, Cursor.peek_pass] at read
  by_cases quote : v.head? = some '"'
  · rw [if_pos quote] at read
    cases read
  · rw [if_neg quote] at read
    refine ⟨body, v, rfl, exact_of_stuck read ⟨⟨body, rfl, inside⟩, ?_⟩⟩
    cases v with
    | nil => exact .inl rfl
    | cons d v =>
      have other : d ≠ '"' := fun same => quote (congrArg some same)
      have ended : isStringPart d = false := stop
      have line : d = '\n' := by simpa [isStringPart, other] using ended
      exact .inr (congrArg some line)

theorem exact_of_charLiteral (read : charLiteral (c.marked.pass ['\''] rest) = (.stuck e, c')) :
    ∃ w v, rest = w ++ v ∧ e.Exact c.here ('\'' :: w) v := by
  cases rest with
  | nil => exact ⟨[], [], rfl, exact_of_stuck read ⟨.inl rfl, rfl⟩⟩
  | cons value rest =>
    unfold charLiteral at read
    simp only [Cursor.peek_pass, Cursor.advance_pass, List.head?_cons] at read
    by_cases line : value = '\n'
    · rw [if_pos line] at read
      exact ⟨[], value :: rest, rfl,
        exact_of_stuck read (.inr (.inl ⟨.inl rfl, congrArg some line⟩))⟩
    rw [if_neg line] at read
    by_cases quote : value = '\''
    · rw [if_pos quote] at read
      subst quote
      exact ⟨['\''], rest, rfl, exact_of_stuck read (.inl rfl)⟩
    rw [if_neg quote] at read
    have part : IsCharPart value := ⟨quote, line⟩
    cases rest with
    | nil => exact ⟨[value], [], rfl, exact_of_stuck read ⟨.inr ⟨value, rfl, part⟩, rfl⟩⟩
    | cons close rest =>
      simp only [List.head?_cons] at read
      by_cases closed : close = '\''
      · rw [if_pos closed] at read
        cases read
      rw [if_neg closed] at read
      by_cases ended : close = '\n'
      · rw [if_pos ended] at read
        exact ⟨[value], close :: rest, rfl,
          exact_of_stuck read (.inr (.inl ⟨.inr ⟨value, rfl, part⟩, congrArg some ended⟩))⟩
      · rw [if_neg ended] at read
        exact ⟨[value, close], rest, rfl,
          exact_of_stuck read (.inr (.inr ⟨value, close, rfl, part, closed, ended⟩))⟩

/-- A letter behind a number is passed with it. -/
theorem exact_of_letter (numeral : IsNumeral w) (letter : v.head?.any Text.isAlphabetic = true)
    (read : stuck .malformedNumber (c.marked.pass w v).advance = (.stuck e, c')) :
    ∃ back v', v = back ++ v' ∧ e.Exact c.here (w ++ back) v' := by
  obtain ⟨d, ahead, alphabetic⟩ := (Option.any_eq_true _ _).mp letter
  obtain ⟨v, rfl⟩ := List.head?_eq_some_iff.mp ahead
  rw [Cursor.advance_pass] at read
  exact ⟨[d], v, rfl, exact_of_stuck read (.inl ⟨w, d, rfl, numeral, alphabetic⟩)⟩

theorem exact_of_realLiteral (numeral : IsNumeral w)
    (read : realLiteral (c.marked.pass w v) = (.stuck e, c')) :
    ∃ back v', v = back ++ v' ∧ e.Exact c.here (w ++ back) v' := by
  unfold realLiteral at read
  rw [Cursor.peek_pass] at read
  by_cases letter : v.head?.any Text.isAlphabetic = true
  · rw [if_pos letter] at read
    exact exact_of_letter numeral letter read
  · rw [if_neg letter] at read
    cases read

theorem exact_of_intLiteral (digits : IsDigits w) (stop : v.head?.any Char.isDigit = false)
    (point : v.head? = some '.' → v.tail.head?.any Char.isDigit = false)
    (read : intLiteral (c.marked.pass w v) = (.stuck e, c')) :
    ∃ back v', v = back ++ v' ∧ e.Exact c.here (w ++ back) v' := by
  unfold intLiteral at read
  rw [Cursor.passed_marked_pass, Cursor.peek_pass] at read
  cases letter : v.head?.any Text.isAlphabetic with
  | true =>
    rw [if_pos letter] at read
    exact exact_of_letter (.inl digits) letter read
  | false =>
    rw [letter] at read
    by_cases small : Decimal.ofDigits w < intLimit
    · simp only [Bool.false_eq_true, if_false, if_pos small] at read
      cases read
    · simp only [Bool.false_eq_true, if_false, if_neg small] at read
      have clear : Clear .intLiteral v :=
        ⟨fun name => absurd name (by decide), fun _ => ⟨stop, letter⟩, fun _ => point,
          fun comparison => absurd comparison (by decide)⟩
      have exact := exact_of_stuck read (.inr ⟨digits, Nat.le_of_not_lt small, clear⟩)
      exact ⟨[], v, rfl, (List.append_nil w).symm ▸ exact⟩

theorem exact_of_numberLiteral {first : Char} (digit : first.isDigit = true)
    (read : numberLiteral (c.marked.pass [first] rest) = (.stuck e, c')) :
    ∃ w v, rest = w ++ v ∧ e.Exact c.here (first :: w) v := by
  obtain ⟨run, v, rfl, digits, runStop⟩ := exists_run Char.isDigit rest
  have whole : IsDigits (first :: run) :=
    ⟨List.cons_ne_nil _ _, List.forall_mem_cons.mpr ⟨digit, digits⟩⟩
  unfold numberLiteral at read
  rw [Cursor.advanceWhile_run digits runStop] at read
  dsimp only at read
  by_cases point : v.head? = some '.' ∧ v.tail.head?.any Char.isDigit = true
  · obtain ⟨v, rfl⟩ := List.head?_eq_some_iff.mp point.1
    obtain ⟨fraction, v, rfl, decimals, stop⟩ := exists_run Char.isDigit v
    rw [if_pos (point_ahead_iff.mpr point), Cursor.advance_pass,
      Cursor.advanceWhile_run decimals stop] at read
    have some : fraction ≠ [] := by
      rintro rfl
      exact absurd point.2 (Bool.eq_false_iff.mp stop)
    have numeral : IsNumeral (first :: run ++ ['.'] ++ fraction) :=
      .inr ⟨first :: run, fraction, by simp, whole, some, decimals⟩
    obtain ⟨back, v, rfl, exact⟩ := exact_of_realLiteral numeral read
    exact ⟨run ++ ['.'] ++ fraction ++ back, v, by simp, exact⟩
  · rw [if_neg (mt point_ahead_iff.mp point)] at read
    have apart : v.head? = some '.' → v.tail.head?.any Char.isDigit = false :=
      fun next => Bool.eq_false_iff.mpr fun digit => point ⟨next, digit⟩
    obtain ⟨back, v, rfl, exact⟩ := exact_of_intLiteral whole runStop apart read
    exact ⟨run ++ back, v, (List.append_assoc _ _ _).symm, exact⟩

/-- A step that finds no token stops behind a text that is explained. -/
theorem exact_of_step {first : Char}
    (read : step first (c.marked.pass [first] rest) = (.stuck e, c')) :
    ∃ w v, rest = w ++ v ∧ e.Exact c.here (first :: w) v := by
  -- The cases are those of the first character, in the order in which a step tells them apart.
  unfold step at read
  split at read
  · cases read
  rename_i blank
  split at read
  · cases read
  rename_i punctuation
  split at read
  · cases read
  rename_i comparison
  split at read
  · rename_i quote
    subst quote
    exact exact_of_stringLiteral read
  rename_i quote
  split at read
  · rename_i apostrophe
    subst apostrophe
    exact exact_of_charLiteral read
  rename_i apostrophe
  split at read
  · rename_i digit
    exact exact_of_numberLiteral digit read
  rename_i digit
  split at read
  · unfold word token at read
    dsimp only at read
    split at read <;> cases read
  rename_i start
  have plain : Plain first :=
    ⟨Bool.eq_false_iff.mpr blank, punctuation, comparison, quote, apostrophe⟩
  exact ⟨[], rest, rfl, exact_of_stuck read ⟨first, rfl, plain, Bool.eq_false_iff.mpr digit,
    Bool.eq_false_iff.mpr start⟩⟩

end Lexer

/-! ### Whole texts -/

/-- What is clear of a text is clear of each text that it starts with. -/
theorem Clear.of_append {k : Kind} {front back : List Char} (clear : Clear k (front ++ back)) :
    Clear k front := by
  cases front with
  | nil => exact clear_nil k
  | cons c front =>
    refine ⟨clear.name, clear.number, fun int point => ?_, clear.comparison⟩
    cases front with
    | nil => rfl
    | cons d front => exact clear.point int point

namespace Lexer

/-- Where reading fails, the text in front of the error is cut into words, and the error is exact. -/
theorem exact_of_tokenizeFrom {e : LexicalError} (c : Cursor) (read : List Token)
    (failed : (tokenizeFrom c read).1 = .error e) :
    ∃ front w v ts, c.rest = front ++ (w ++ v) ∧ Tiled c.here front ts ∧
      e.Exact (c.here.after front) w v := by
  cases ahead : c.rest with
  | nil =>
    rw [tokenizeFrom_nil ahead] at failed
    cases failed
  | cons first v =>
    rw [tokenizeFrom_cons ahead] at failed
    split at failed
    · rename_i c' found
      obtain ⟨blank, rfl⟩ := of_step_blank found
      obtain ⟨front, w, v', ts, rfl, tiled, exact⟩ := exact_of_tokenizeFrom _ read failed
      exact ⟨first :: front, w, v', ts, rfl, .blank blank tiled, exact⟩
    · rename_i t c' found
      obtain ⟨w, v, rfl, isWord, clear, lexeme, span, rfl⟩ := step_token_iff.mp found
      obtain ⟨front, w', v', ts, rfl, tiled, exact⟩ := exact_of_tokenizeFrom _ (t :: read) failed
      refine ⟨first :: w ++ front, w', v', _, by simp, .word isWord clear.of_append tiled, ?_⟩
      rw [Position.after_append]
      exact exact
    · rename_i found
      cases failed
      obtain ⟨w, v, rfl, exact⟩ := exact_of_step found
      exact ⟨[], first :: w, v, _, rfl, .ending _, exact⟩
termination_by c.rest.length
decreasing_by
  · have length := congrArg List.length ahead
    rw [List.length_cons] at length
    rw [Cursor.rest_pass]
    omega
  · have length := congrArg List.length ahead
    rw [List.length_cons, List.length_append] at length
    rw [Cursor.rest_pass]
    omega

end Lexer

/-- A text that is not read is a text that is, then the text of the error, on one line, then a rest.
The error stands where its text starts, and its cause is the only one that explains it. -/
theorem tokens_error_exact {source : String} {e : LexicalError} (failed : tokens source = .error e) :
    ∃ front v : List Char, source.toList = front ++ e.snippet.toList ++ v ∧
      (∃ ts, tokens (String.ofList front) = .ok ts) ∧ e.place = .behind front ∧ e.snippet ≠ "" ∧
      '\n' ∉ e.snippet.toList ∧ ∀ cause : LexicalCause,
        cause.Explains e.snippet.toList v ↔ cause = e.cause := by
  obtain ⟨front, w, v, ts, split, tiled, exact⟩ :=
    exact_of_tokenizeFrom (.ofString source) [] failed
  have spelled : e.snippet.toList = w := by rw [exact.snippet, String.toList_ofList]
  obtain ⟨c, others, nonempty, -⟩ := exact.explained.opens
  refine ⟨front, v, ?_, ⟨ts, tokens_eq_ok_iff.mpr ?_⟩, ?_, ?_, ?_,
    fun cause => ⟨fun explains => ?_, ?_⟩⟩
  · rw [spelled, List.append_assoc]
    exact split
  · rw [String.toList_ofList]
    exact tiled
  · rw [exact.place]
    exact Position.after_start front
  · intro empty
    rw [empty, nonempty] at spelled
    cases spelled
  · rw [spelled]
    exact exact.explained.lineFeed_not_mem
  · rw [spelled] at explains
    exact explains.unique exact.explained
  · rintro rfl
    rw [spelled]
    exact exact.explained

theorem tokens_error_exact_limit :
    let e : LexicalError := ⟨.malformedNumber, ⟨2, 3⟩, "02147483648"⟩
    tokens "x\n= 02147483648;" = .error e ∧
      ∃ front v : List Char, "x\n= 02147483648;".toList = front ++ e.snippet.toList ++ v ∧
        (∃ ts, tokens (String.ofList front) = .ok ts) ∧ e.place = .behind front ∧
        ∀ cause : LexicalCause, cause.Explains e.snippet.toList v ↔ cause = .malformedNumber := by
  intro e
  have failed : tokens "x\n= 02147483648;" = .error e := by decide +kernel
  obtain ⟨front, v, split, read, place, -, -, only⟩ := tokens_error_exact failed
  exact ⟨failed, front, v, split, read, place, only⟩

end GameLang
