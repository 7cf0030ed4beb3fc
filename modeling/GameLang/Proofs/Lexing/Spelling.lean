import GameLang.Proofs.Blame
import GameLang.Proofs.Lexing.Stuck
import GameLang.Proofs.Lexing.Tiles
import GameLang.Proofs.Printing.Piece
import GameLang.Proofs.Viability.Program
import GameLang.Source

/-!
# What the text of a token says

`Kind.Describes` gives for each kind the texts and the values that its tokens have. The text of a
token has no other token, whatever stood around it (`IsWord.tokens_eq`), so that the text alone decides
the kind and the value. In particular no literal that was read from a text lacks its value
(`tokens_described`).
-/

namespace GameLang

open Lexer

/-- The texts and the values of the words of a kind. A word that is none of these is a fixed one. -/
def Kind.Describes (w : List Char) (value : Option Literal) : Kind → Prop
  | intLiteral =>
    IsDigits w ∧ Decimal.ofDigits w < Nat.pow 2 31 ∧ value = some (.int (Decimal.ofDigits w))
  | realLiteral => ∃ whole fraction, w = whole ++ '.' :: fraction ∧ IsDigits whole ∧
      IsDigits fraction ∧ value = some (.real (realValue w))
  | charLiteral => ∃ c, w = ['\'', c, '\''] ∧ value = some (.char c)
  | stringLiteral => ∃ s : String, w = '"' :: (s.toList ++ ['"']) ∧ '"' ∉ s.toList ∧
      '\n' ∉ s.toList ∧ value = some (.text s)
  | boolLiteral => w = "tacno".toList ∧ value = some (.bool true) ∨
      w = "netacno".toList ∧ value = some (.bool false)
  | ident => IsName w ∧ reserved? (String.ofList w) = none ∧ value = none
  | eof => False
  | k => w = k.spelling.toList ∧ value = none

theorem Kind.describes_of_isFixed {k : Kind} (fixed : k.isFixed = true) {w : List Char}
    {value : Option Literal} (spelled : w = k.spelling.toList) (plain : value = none) :
    k.Describes w value := by
  cases k <;> first | exact ⟨spelled, plain⟩ | cases fixed

theorem Kind.isFixed_of_ofPunctuation? {c : Char} {k : Kind} (known : ofPunctuation? c = some k) :
    k.isFixed = true := by
  unfold ofPunctuation? at known
  split at known <;> cases known <;> rfl

theorem Kind.isFixed_of_ofComparison? {c : Char} {alone extended : Kind}
    (known : ofComparison? c = some (alone, extended)) :
    alone.isFixed = true ∧ extended.isFixed = true := by
  unfold ofComparison? at known
  split at known <;> cases known <;> decide

/-- Reserved words are fixed ones without a value, or the two truth values. -/
theorem reserved?_cases {s : String} {r : Reserved} (found : reserved? s = some r) :
    r.kind.isFixed = true ∧ r.value = none ∨
      r.kind = .boolLiteral ∧ (s = "tacno" ∧ r.value = some true ∨
        s = "netacno" ∧ r.value = some false) := by
  have all : ∀ entry ∈ reservedWords, entry.2.kind.isFixed = true ∧ entry.2.value = none ∨
      entry.2.kind = .boolLiteral ∧ (entry.1 = "tacno" ∧ entry.2.value = some true ∨
        entry.1 = "netacno" ∧ entry.2.value = some false) := by decide +kernel
  exact all _ (mem_reservedWords found)

namespace IsWord

variable {k : Kind} {w : List Char} {value : Option Literal}

theorem describes (isWord : IsWord k w value) : k.Describes w value := by
  have fixed (fixed : k.isFixed = true) (plain : value = none) : k.Describes w value :=
    Kind.describes_of_isFixed fixed (isWord.eq_spelling fixed) plain
  cases isWord with
  | punctuation c known _ plain => exact fixed (Kind.isFixed_of_ofPunctuation? known) plain
  | comparison c _ known _ plain => exact fixed (Kind.isFixed_of_ofComparison? known).1 plain
  | extended c _ known _ plain => exact fixed (Kind.isFixed_of_ofComparison? known).2 plain
  | text body inside kind text known =>
    have part (d : Char) (other : isStringPart d = false) : d ∉ body := by
      intro member
      rw [inside d member] at other
      cases other
    subst kind
    refine ⟨String.ofList body, ?_⟩
    rw [String.toList_ofList]
    exact ⟨text, part '"' rfl, part '\n' rfl, known⟩
  | char c line quote kind text known =>
    subst kind
    exact ⟨c, text, known⟩
  | int digits some small kind known =>
    subst kind
    exact ⟨⟨some, digits⟩, small, known⟩
  | real whole fraction digits some decimals fractional kind text known =>
    subst kind
    exact ⟨whole, fraction, text, ⟨some, digits⟩, ⟨fractional, decimals⟩, known⟩
  | reserved r shape found kind known =>
    subst kind known
    rcases reserved?_cases found with ⟨isFixed, none⟩ | ⟨bool, truth⟩
    · exact fixed isFixed (by rw [none, Option.map_none])
    · rw [bool]
      rcases truth with ⟨same, value⟩ | ⟨same, value⟩
      · exact .inl ⟨by rw [← same, String.toList_ofList], by rw [value]; rfl⟩
      · exact .inr ⟨by rw [← same, String.toList_ofList], by rw [value]; rfl⟩
  | name shape free kind plain =>
    subst kind
    exact ⟨shape, free, plain⟩

theorem tokens_eq {s : String} (isWord : IsWord k s.toList value) :
    tokens s = .ok [⟨k, s, value, ⟨1, 1, s.length⟩⟩, Token.ending ⟨1, s.length + 1⟩] := by
  have line := isWord.lineFeed_not_mem
  have span : Span.over .start s.toList = ⟨1, 1, s.length⟩ := by
    rw [Span.over_of_not_mem line isWord.ne_nil, String.length_toList]
    simp [Position.start]
  have behind : Position.start.after s.toList = ⟨1, s.length + 1⟩ := by
    rw [Position.after_of_not_mem line, String.length_toList]
    simp [Position.start, Nat.add_comm]
  have tiled := Tiled.word isWord (clear_nil k) (Tiled.ending (Position.start.after s.toList))
  rw [List.append_nil, span, behind, String.ofList_toList] at tiled
  exact tokens_eq_ok_iff.mpr tiled

/-- A text starts with one word only that is clear of what follows: the one that the lexer takes. -/
theorem append_inj {other : Kind} {otherValue : Option Literal} {w' v v' : List Char}
    (isWord : IsWord k w value) (clear : Clear k v) (also : IsWord other w' otherValue)
    (clearOther : Clear other v') (same : w ++ v = w' ++ v') :
    k = other ∧ w = w' ∧ value = otherValue ∧ v = v' := by
  obtain ⟨c, w, rfl⟩ := List.exists_cons_of_ne_nil isWord.ne_nil
  obtain ⟨d, w', rfl⟩ := List.exists_cons_of_ne_nil also.ne_nil
  obtain ⟨rfl, behind⟩ : c = d ∧ w ++ v = w' ++ v' := List.cons.inj same
  have taken := step_eq_token (c := .ofText []) isWord clear
  rw [behind, step_eq_token also clearOther] at taken
  obtain ⟨kind, lexeme, literal, -⟩ := Token.mk.inj (Found.token.inj (Prod.mk.inj taken).1)
  rw [Cursor.lexeme_marked_pass, Cursor.lexeme_marked_pass] at lexeme
  obtain rfl := (List.cons.inj (String.ofList_inj.mp lexeme)).2
  exact ⟨kind.symm, rfl, literal.symm, List.append_cancel_left same⟩

/-- A text is a word of one kind and value only. -/
theorem unique {other : Kind} {otherValue : Option Literal} (isWord : IsWord k w value)
    (also : IsWord other w otherValue) : other = k ∧ otherValue = value := by
  obtain ⟨kind, -, literal, -⟩ := also.append_inj (clear_nil other) isWord (clear_nil k) rfl
  exact ⟨kind, literal⟩

end IsWord

/-! ### Literals without a value -/

/-- Only the message for a missing value starts with its first letter. -/
theorem Cause.head?_shown {cause : Cause} (different : cause ≠ .missingValue) :
    cause.shown.toList.head? ≠ some 'L' := by
  cases cause with
  | missing k place =>
    simp [shown, String.toList_append]
  | missingType place => cases place <;> simp [shown]
  | missingValue => exact absurd rfl different
  | _ => simp [shown]

theorem SyntaxError.not_prefix_reason {e : SyntaxError} (different : e.cause ≠ .missingValue) :
    ¬ Cause.missingValue.shown.toList <+: e.reason.toList := by
  rintro ⟨back, split⟩
  have first : e.reason.toList.head? = some 'L' := by
    rw [← split]
    simp [Cause.shown]
  apply Cause.head?_shown different
  rw [reason, String.toList_append, String.toList_append, List.append_assoc,
    List.head?_append] at first
  cases shown : e.cause.shown.toList.head? with
  | some c =>
    rw [shown, Option.some_or] at first
    exact first
  | none =>
    rw [shown, Option.none_or] at first
    simp at first

/-- Tokens whose literals have values are not refused for want of one. -/
theorem Program.cause_ne_missingValue {ts : List Token} {e : SyntaxError}
    (valued : ∀ t ∈ ts, t.kind.isLiteral = true → t.literal.isSome = true)
    (failed : Program.ofTokens ts = .error e) : e.cause ≠ .missingValue := by
  obtain ⟨rest, ran⟩ : ∃ rest, (Reader.program nestingLimit).run ts = (.error e, rest) :=
    ⟨_, Prod.ext failed rfl⟩
  obtain ⟨cause, stopped, rfl⟩ := Reader.run_error_iff.mp ran
  rintro (rfl : cause = .missingValue)
  obtain ⟨isLiteral, absent⟩ := Reader.program_truthful nestingLimit ts _ _ stopped
  obtain ⟨_, _, us, rfl, -⟩ := Reader.program_completes nestingLimit _ _ _ stopped
  cases rest with
  | nil => cases isLiteral
  | cons t back =>
    have value := valued t (by simp) isLiteral
    rw [show t.literal = none from absent] at value
    cases value

/-! ### All tokens of a text -/

/-- The tokens of a text but for the last one, which ends it, have values if they are literals, and
texts and values as their kinds describe them. The text of each has this token only, wherever else it
occurs. So no text is refused for a literal without a value. -/
theorem tokens_described {source : String} {ts : List Token} (lexed : tokens source = .ok ts) :
    (∃ us, ts = us ++ [Token.ending (.behind source.toList)] ∧ ∀ t ∈ us,
      t.literal.isSome = t.kind.isLiteral ∧
      t.kind.Describes t.lexeme.toList t.literal ∧
      tokens t.lexeme = .ok [{ t with span := ⟨1, 1, t.lexeme.length⟩ },
        Token.ending ⟨1, t.lexeme.length + 1⟩] ∧
      ∀ other vs, tokens other = .ok vs → ∀ v ∈ vs, v.lexeme = t.lexeme →
        v.kind = t.kind ∧ v.literal = t.literal) ∧
    ∀ e, Source.read source = .error (.grammatical e) →
      e.cause ≠ .missingValue ∧ ¬ "Literal token without a value".toList <+: e.reason.toList := by
  have tiled := tokens_eq_ok_iff.mp lexed
  obtain ⟨us, q, rfl, words⟩ := tiled.exists_words
  constructor
  · obtain ⟨tiles, -, -, all, -⟩ := tiled.exists_tiles
    obtain ⟨rfl, last⟩ := List.append_inj' all rfl
    rw [Position.after_start] at last
    refine ⟨_, by rw [last], fun t member => ?_⟩
    have isWord : IsWord t.kind t.lexeme.toList t.literal := words t member
    refine ⟨isWord.isSome_eq_isLiteral, isWord.describes, isWord.tokens_eq, ?_⟩
    intro other vs read v among same
    obtain ⟨ws, p, rfl, others⟩ := (tokens_eq_ok_iff.mp read).exists_words
    rcases List.mem_append.mp among with among | ended
    · have also : IsWord v.kind v.lexeme.toList v.literal := others v among
      rw [same] at also
      exact isWord.unique also
    · obtain rfl := List.mem_singleton.mp ended
      exact absurd (congrArg String.toList same.symm) isWord.ne_endLexeme
  · intro e failed
    have valued : ∀ t ∈ us ++ [Token.ending q], t.kind.isLiteral = true →
        t.literal.isSome = true := by
      refine List.forall_mem_append.mpr ⟨fun t member isLiteral => ?_, ?_⟩
      · exact (words t member).isSome_eq_isLiteral.trans isLiteral
      · simp [Token.ending, Kind.isLiteral]
    have different := Program.cause_ne_missingValue valued (Source.ofTokens_of_read lexed failed)
    exact ⟨different, SyntaxError.not_prefix_reason different⟩

theorem tokens_described_literals :
    let digits : Token := ⟨.intLiteral, "007", some (.int 7), ⟨1, 1, 3⟩⟩
    let quoted : Token := ⟨.stringLiteral, "\"č🎲'\"", some (.text "č🎲'"), ⟨2, 1, 5⟩⟩
    let ts := [digits, quoted, Token.ending ⟨2, 6⟩]
    let e : SyntaxError := ⟨.missing .beginWord .openEntry, digits⟩
    tokens "007\n\"č🎲'\"" = .ok ts ∧ Source.read "007\n\"č🎲'\"" = .error (.grammatical e) ∧
      quoted.kind.Describes quoted.lexeme.toList quoted.literal ∧
      tokens "007" = .ok [digits, Token.ending ⟨1, 4⟩] ∧ e.cause ≠ .missingValue := by
  intro digits quoted ts e
  have lexed : tokens "007\n\"č🎲'\"" = .ok ts := by decide +kernel
  have failed : Source.read "007\n\"č🎲'\"" = .error (.grammatical e) := by
    unfold Source.read
    rw [lexed]
    rfl
  obtain ⟨⟨us, split, each⟩, never⟩ := tokens_described lexed
  have split : [digits, quoted] ++ [Token.ending ⟨2, 6⟩] = us ++ [_] := split
  obtain ⟨rfl, -⟩ := List.append_inj' split rfl
  have alone := (each digits (by simp)).2.2.1
  have length : digits.lexeme.length = 3 := by decide
  rw [length] at alone
  exact ⟨lexed, failed, (each quoted (by simp)).2.1, alone, (never e failed).1⟩

end GameLang
