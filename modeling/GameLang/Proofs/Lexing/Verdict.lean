import GameLang.Proofs.Lexing.Stuck

/-!
# What the text ahead decides

A part of the lexer asks a cursor for the text ahead and for the text passed since its mark, never for
its place. So the text decides how far a step goes and what it finds there (`Lexer.step_decided`), and
whether a whole text is read to its end or up to which piece of it (`Lexer.tokenizeFrom_decided`).
-/

namespace GameLang

namespace Lexer

/-- What a part of the lexer finds, apart from its place. -/
inductive Verdict where
  | blank
  | token (kind : Kind) (value : Option Literal)
  | stuck (cause : LexicalCause)

def Verdict.report : Verdict → Cursor → Found × Cursor
  | blank, c => (.blank, c)
  | token kind value, c => Lexer.token kind value c
  | stuck cause, c => Lexer.stuck cause c

/-- Behind the text passed since the mark, the text ahead decides how much of it a part passes and what
the part finds there, wherever the mark is. -/
def Decided (part : Cursor → Found × Cursor) (passed ahead : List Char) : Prop :=
  ∃ w v verdict, ahead = w ++ v ∧ ∀ c : Cursor,
    part (c.marked.pass passed ahead) = Verdict.report verdict (c.marked.pass (passed ++ w) v)

section

variable {part next : Cursor → Found × Cursor} {passed ahead w v : List Char}

/-- A part that passes nothing. -/
theorem Decided.stay (verdict : Verdict)
    (same : ∀ c : Cursor, part (c.marked.pass passed ahead) =
      verdict.report (c.marked.pass passed ahead)) : Decided part passed ahead := by
  refine ⟨[], ahead, verdict, rfl, fun c => ?_⟩
  rw [List.append_nil]
  exact same c

/-- A part that passes a text and goes on as another one. -/
theorem Decided.behind (decided : Decided next (passed ++ w) v)
    (same : ∀ c : Cursor, part (c.marked.pass passed (w ++ v)) =
      next (c.marked.pass (passed ++ w) v)) : Decided part passed (w ++ v) := by
  obtain ⟨front, back, verdict, rfl, report⟩ := decided
  refine ⟨w ++ front, back, verdict, (List.append_assoc _ _ _).symm, fun c => ?_⟩
  rw [same c, report c, List.append_assoc]

/-! ### The parts of the lexer -/

theorem stringLiteral_decided (passed ahead : List Char) : Decided stringLiteral passed ahead := by
  obtain ⟨body, v, rfl, inside, stop⟩ := exists_run isStringPart ahead
  by_cases quote : v.head? = some '"'
  · obtain ⟨v, rfl⟩ := List.head?_eq_some_iff.mp quote
    have closed : body ++ '"' :: v = body ++ ['"'] ++ v := by simp
    exact ⟨body ++ ['"'], v, .token .stringLiteral _, closed,
      fun c => stringLiteral_closed passed inside⟩
  · refine ⟨body, v, .stuck .unterminatedString, rfl, fun c => ?_⟩
    unfold stringLiteral
    simp only [Cursor.advanceWhile_run inside stop, Cursor.peek_pass]
    rw [if_neg quote]
    rfl

theorem charLiteral_decided (passed ahead : List Char) : Decided charLiteral passed ahead := by
  cases ahead with
  | nil => exact .stay (.stuck .unterminatedChar) fun c => rfl
  | cons value ahead =>
    by_cases line : value = '\n'
    · refine .stay (.stuck .malformedChar) fun c => ?_
      unfold charLiteral
      simp only [Cursor.peek_pass, List.head?_cons, if_pos line]
      rfl
    by_cases quote : value = '\''
    · refine ⟨[value], ahead, .stuck .malformedChar, rfl, fun c => ?_⟩
      unfold charLiteral
      simp only [Cursor.peek_pass, List.head?_cons, if_neg line, if_pos quote, Cursor.advance_pass]
      rfl
    cases ahead with
    | nil =>
      refine ⟨[value], [], .stuck .unterminatedChar, rfl, fun c => ?_⟩
      unfold charLiteral
      simp only [Cursor.peek_pass, List.head?_cons, if_neg line, if_neg quote, Cursor.advance_pass]
      rfl
    | cons close ahead =>
      by_cases closed : close = '\''
      · subst closed
        exact ⟨[value, '\''], ahead, .token .charLiteral _, rfl, fun c => charLiteral_eq line quote⟩
      by_cases ended : close = '\n'
      · refine ⟨[value], close :: ahead, .stuck .malformedChar, rfl, fun c => ?_⟩
        unfold charLiteral
        simp only [Cursor.peek_pass, List.head?_cons, if_neg line, if_neg quote, if_neg closed,
          if_pos ended, Cursor.advance_pass]
        rfl
      · refine ⟨[value, close], ahead, .stuck .malformedChar, rfl, fun c => ?_⟩
        unfold charLiteral
        simp only [Cursor.peek_pass, List.head?_cons, if_neg line, if_neg quote, if_neg closed,
          if_neg ended, Cursor.advance_pass, List.append_assoc]
        rfl

/-- A letter behind a number is passed with it. -/
theorem Decided.letter (letter : ahead.head?.any Text.isAlphabetic = true)
    (same : ∀ c : Cursor, part (c.marked.pass passed ahead) =
      stuck .malformedNumber (c.marked.pass passed ahead).advance) : Decided part passed ahead := by
  obtain ⟨d, first, -⟩ := (Option.any_eq_true _ _).mp letter
  obtain ⟨v, rfl⟩ := List.head?_eq_some_iff.mp first
  refine ⟨[d], v, .stuck .malformedNumber, rfl, fun c => ?_⟩
  rw [same c, Cursor.advance_pass]
  rfl

theorem realLiteral_decided (passed ahead : List Char) : Decided realLiteral passed ahead := by
  by_cases letter : ahead.head?.any Text.isAlphabetic = true
  · refine .letter letter fun c => ?_
    unfold realLiteral
    rw [Cursor.peek_pass, if_pos letter]
  · refine .stay (.token .realLiteral (some (.real (realValue passed)))) fun c => ?_
    unfold realLiteral
    rw [Cursor.peek_pass, if_neg letter, Cursor.passed_marked_pass]
    rfl

theorem intLiteral_decided (passed ahead : List Char) : Decided intLiteral passed ahead := by
  by_cases letter : ahead.head?.any Text.isAlphabetic = true
  · refine .letter letter fun c => ?_
    unfold intLiteral
    rw [Cursor.peek_pass, if_pos letter]
  by_cases small : Decimal.ofDigits passed < intLimit
  · refine .stay (.token .intLiteral (some (.int (Decimal.ofDigits passed)))) fun c => ?_
    unfold intLiteral
    rw [Cursor.peek_pass, if_neg letter, Cursor.passed_marked_pass]
    exact if_pos small
  · refine .stay (.stuck .malformedNumber) fun c => ?_
    unfold intLiteral
    rw [Cursor.peek_pass, if_neg letter, Cursor.passed_marked_pass]
    exact if_neg small

theorem numberLiteral_decided (passed ahead : List Char) : Decided numberLiteral passed ahead := by
  obtain ⟨run, v, rfl, digits, runStop⟩ := exists_run Char.isDigit ahead
  by_cases point : v.head? = some '.' ∧ v.tail.head?.any Char.isDigit = true
  · obtain ⟨v, rfl⟩ := List.head?_eq_some_iff.mp point.1
    obtain ⟨fraction, v, rfl, decimals, stop⟩ := exists_run Char.isDigit v
    have numeral : run ++ '.' :: (fraction ++ v) = run ++ '.' :: fraction ++ v := by simp
    rw [numeral]
    refine .behind (realLiteral_decided _ v) fun c => ?_
    unfold numberLiteral
    rw [← numeral, Cursor.advanceWhile_run digits runStop]
    dsimp only
    rw [if_pos (point_ahead_iff.mpr point), Cursor.advance_pass,
      Cursor.advanceWhile_run decimals stop]
    simp only [List.append_assoc, List.singleton_append]
  · refine .behind (intLiteral_decided _ v) fun c => ?_
    unfold numberLiteral
    rw [Cursor.advanceWhile_run digits runStop]
    exact if_neg (mt point_ahead_iff.mp point)

theorem word_decided (passed ahead : List Char) : Decided word passed ahead := by
  obtain ⟨run, v, rfl, parts, stop⟩ := exists_run isWordPart ahead
  cases found : reserved? (String.ofList (passed ++ run)) with
  | some r => exact ⟨run, v, .token r.kind _, rfl, fun c => word_eq_reserved parts stop found⟩
  | none => exact ⟨run, v, .token .ident none, rfl, fun c => word_eq_ident parts stop found⟩

/-- The character passed and the text ahead decide a step. -/
theorem step_decided (first : Char) (ahead : List Char) : Decided (step first) [first] ahead := by
  -- The cases are those of the first character, in the order in which a step tells them apart.
  cases blank : isBlank first with
  | true => exact .stay .blank fun c => step_of_isBlank blank _
  | false =>
    cases punctuation : Kind.ofPunctuation? first with
    | some k => exact .stay (.token k none) fun c => step_punctuation punctuation
    | none =>
      cases comparison : Kind.ofComparison? first with
      | some kinds =>
        obtain ⟨alone, extended⟩ := kinds
        by_cases equals : ahead.head? = some '='
        · obtain ⟨v, rfl⟩ := List.head?_eq_some_iff.mp equals
          refine ⟨['='], v, .token extended none, rfl, fun c => ?_⟩
          rw [step_comparison comparison, accept_of_head]
          rfl
        · refine .stay (.token alone none) fun c => ?_
          rw [step_comparison comparison, accept_of_head_ne equals]
          rfl
      | none =>
        by_cases quote : first = '"'
        · subst quote
          exact stringLiteral_decided _ ahead
        by_cases apostrophe : first = '\''
        · subst apostrophe
          exact charLiteral_decided _ ahead
        by_cases digit : first.isDigit = true
        · exact .behind (w := []) (numberLiteral_decided _ ahead) fun c => step_digit digit
        by_cases start : isWordStart first = true
        · exact .behind (w := []) (word_decided _ ahead) fun c => step_name start
        · refine .stay (.stuck .unexpectedCharacter) fun c => ?_
          simp only [step, blank, punctuation, comparison, if_neg quote, if_neg apostrophe,
            if_neg digit, if_neg start, Bool.false_eq_true, if_false]
          rfl

end

/-! ### Whole texts -/

/-- Reading goes on behind a piece of text that is a blank or a word, with the token of the word. -/
def Passes (piece v : List Char) : Prop :=
  ∀ c : Cursor, c.rest = piece ++ v → ∃ us,
    (∀ read, tokenizeFrom c read = tokenizeFrom (c.marked.pass piece v) (us.reverse ++ read)) ∧
    ∀ text ts, text <+: v → Tiled (c.here.after piece) text ts → Tiled c.here (piece ++ text) (us ++ ts)

/-- Reading stops behind a piece of text that is no token. -/
def Halts (cause : LexicalCause) (w v : List Char) : Prop :=
  ∀ (c : Cursor) (read : List Token), c.rest = w ++ v →
    tokenizeFrom c read = (.error ⟨cause, c.here, String.ofList w⟩, c.marked.pass w v)

theorem passes_or_halts (first : Char) (ahead : List Char) :
    ∃ w v, ahead = w ++ v ∧ (Passes (first :: w) v ∨ ∃ cause, Halts cause (first :: w) v) := by
  obtain ⟨w, v, verdict, rfl, report⟩ := step_decided first ahead
  refine ⟨w, v, rfl, ?_⟩
  cases verdict with
  | blank =>
    -- Nothing but the blank itself is passed.
    obtain ⟨blank, same⟩ := of_step_blank (report (.ofText []))
    have nothing : v = w ++ v := congrArg Cursor.rest same
    obtain rfl : w = [] := List.append_left_eq_self.mp nothing.symm
    refine .inl fun c starts => ⟨[], fun read => ?_, fun text ts _ tiled => ?_⟩
    · have found : step first (c.marked.pass [first] v) = (.blank, c.marked.pass [first] v) := report c
      rw [List.singleton_append] at starts
      rw [tokenizeFrom_cons starts, found]
      rfl
    · exact .blank blank tiled
  | token k value =>
    obtain ⟨w', v', split, isWord, clear, -, -, same⟩ := step_token_iff.mp (report (.ofText []))
    obtain rfl : v = v' := congrArg Cursor.rest same
    obtain rfl : w = w' := List.append_cancel_right split
    refine .inl fun c starts => ⟨[⟨k, .ofList (first :: w), value, .over c.here (first :: w)⟩], ?_, ?_⟩
    · intro read
      rw [List.cons_append] at starts
      rw [tokenizeFrom_cons starts, report, Verdict.report, Lexer.token, Cursor.lexeme_marked_pass]
      rfl
    · rintro text ts ⟨back, rfl⟩ tiled
      exact .word isWord clear.of_append tiled
  | stuck cause =>
    refine .inr ⟨cause, fun c read starts => ?_⟩
    rw [List.cons_append] at starts
    rw [tokenizeFrom_cons starts, report, Verdict.report, stuck, Cursor.lexeme_marked_pass]
    rfl

/-- A text is cut into words and read to its end from every cursor, or reading stops from every cursor
behind the same piece of it, for the same cause, with the text in front of that piece cut into words. -/
theorem tokenizeFrom_decided (text : List Char) :
    (∀ (c : Cursor) (read : List Token), c.rest = text → ∃ ts, Tiled c.here text ts ∧
      tokenizeFrom c read = (.ok (read.reverse ++ ts), (c.pass text []).marked)) ∨
    ∃ front w v cause, text = front ++ (w ++ v) ∧ w ≠ [] ∧
      ∀ (c : Cursor) (read : List Token), c.rest = text → (∃ ts, Tiled c.here front ts) ∧
        tokenizeFrom c read = (.error ⟨cause, c.here.after front, String.ofList w⟩,
          (c.pass front (w ++ v)).marked.pass w v) := by
  cases text with
  | nil =>
    refine .inl fun c read starts => ⟨[Token.ending c.here], .ending c.here, ?_⟩
    rw [tokenizeFrom_nil starts, List.reverse_cons]
    simp [Cursor.marked, Cursor.pass, starts]
  | cons first ahead =>
    obtain ⟨w, v, split, passes | ⟨cause, halts⟩⟩ := passes_or_halts first ahead
    · have shorter : v.length ≤ ahead.length := by simp [split]
      rw [split]
      rcases tokenizeFrom_decided v with whole | ⟨front, w', v', cause, rfl, some, stopped⟩
      · refine .inl fun c read starts => ?_
        obtain ⟨us, goesOn, tiles⟩ := passes c starts
        obtain ⟨ts, tiled, ends⟩ := whole (c.marked.pass (first :: w) v) (us.reverse ++ read) rfl
        refine ⟨us ++ ts, tiles v ts List.prefix_rfl tiled, ?_⟩
        rw [goesOn, ends, List.reverse_append, List.reverse_reverse, List.append_assoc]
        simp [Cursor.marked, Cursor.pass, Position.after_append]
      · refine .inr ⟨first :: w ++ front, w', v', cause, by simp, some, fun c read starts => ?_⟩
        obtain ⟨us, goesOn, tiles⟩ := passes c starts
        obtain ⟨⟨ts, tiled⟩, ends⟩ := stopped (c.marked.pass (first :: w) _) (us.reverse ++ read) rfl
        refine ⟨⟨us ++ ts, tiles front ts (List.prefix_append _ _) tiled⟩, ?_⟩
        rw [goesOn, ends]
        simp [Cursor.marked, Cursor.pass, Position.after_append]
    · rw [split]
      refine .inr ⟨[], first :: w, v, cause, rfl, List.cons_ne_nil _ _, fun c read starts => ?_⟩
      exact ⟨⟨_, .ending c.here⟩, halts c read starts⟩
termination_by text.length
decreasing_by
  rw [List.length_cons]
  omega

end Lexer

end GameLang
