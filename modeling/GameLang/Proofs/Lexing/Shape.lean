import GameLang.Proofs.Lexing.Text

/-!
# The characters of words

How words start, which characters they cannot contain, and which characters never become part of the
word in front of them.
-/

namespace GameLang

open Lexer

theorem Lexer.isBlank_of_ofComparison? {c : Char} {kinds : Kind × Kind}
    (known : Kind.ofComparison? c = some kinds) : isBlank c = false := by
  unfold Kind.ofComparison? at known
  split at known <;> first | rfl | cases known

namespace IsWord

variable {k : Kind} {w : List Char} {value : Option Literal}

/-- A word of several characters starts with a quote, a digit, a letter or an underscore, or is a
comparison. -/
theorem first_cases {c : Char} (isWord : IsWord k (c :: w) value) :
    Kind.ofPunctuation? c = some k ∧ w = [] ∨
      (∃ extended, Kind.ofComparison? c = some (k, extended)) ∧ w = [] ∨
      (∃ alone, Kind.ofComparison? c = some (alone, k)) ∧ w = ['='] ∨
      c = '"' ∨ c = '\'' ∨ c.isDigit = true ∨ isWordStart c = true := by
  cases isWord with
  | punctuation d known text =>
    obtain ⟨rfl, rfl⟩ := List.cons.inj text
    exact .inl ⟨known, rfl⟩
  | comparison d extended known text =>
    obtain ⟨rfl, rfl⟩ := List.cons.inj text
    exact .inr (.inl ⟨⟨extended, known⟩, rfl⟩)
  | extended d alone known text =>
    obtain ⟨rfl, rfl⟩ := List.cons.inj text
    exact .inr (.inr (.inl ⟨⟨alone, known⟩, rfl⟩))
  | text _ _ _ text => exact .inr (.inr (.inr (.inl (List.cons.inj text).1)))
  | char _ _ _ _ text => exact .inr (.inr (.inr (.inr (.inl (List.cons.inj text).1))))
  | int digits => simp [digits c List.mem_cons_self]
  | real whole _ digits some _ _ _ text =>
    obtain ⟨d, others, rfl⟩ := List.exists_cons_of_ne_nil some
    obtain ⟨rfl, -⟩ := List.cons.inj text
    simp [digits c List.mem_cons_self]
  | reserved _ shape | name shape =>
    obtain ⟨d, others, text, start, -⟩ := shape
    obtain ⟨rfl, -⟩ := List.cons.inj text
    simp [start]

/-- A word starts with a character that decides what it is, a digit, a letter or an underscore. -/
theorem first_mem {c : Char} (isWord : IsWord k (c :: w) value) :
    c ∈ deciding ∨ c.isDigit = true ∨ isWordStart c = true := by
  rcases isWord.first_cases with ⟨known, -⟩ | ⟨⟨other, known⟩, -⟩ | ⟨⟨other, known⟩, -⟩ | rfl | rfl |
    other
  · unfold Kind.ofPunctuation? at known
    split at known <;> first | exact .inl (by decide) | cases known
  · unfold Kind.ofComparison? at known
    split at known <;> first | exact .inl (by decide) | cases known
  · unfold Kind.ofComparison? at known
    split at known <;> first | exact .inl (by decide) | cases known
  · exact .inl (by decide)
  · exact .inl (by decide)
  · exact .inr other

/-- No blank starts a word. -/
theorem isBlank_first {c : Char} (isWord : IsWord k (c :: w) value) : isBlank c = false := by
  rcases isWord.first_cases with ⟨known, -⟩ | ⟨⟨other, known⟩, -⟩ | ⟨⟨other, known⟩, -⟩ | rfl | rfl |
    digit | start
  · exact isBlank_of_ofPunctuation? known
  · exact isBlank_of_ofComparison? known
  · exact isBlank_of_ofComparison? known
  · rfl
  · rfl
  · exact (plain_of_isDigit digit).blank
  · exact (plain_of_isWordStart start).blank

/-- No blank ends a word. -/
theorem isBlank_last {c : Char} (isWord : IsWord k w value) (last : w.getLast? = some c) :
    isBlank c = false := by
  have inside := List.mem_of_getLast? last
  cases isWord with
  | punctuation d known text =>
    subst text
    obtain rfl := List.mem_singleton.mp inside
    exact isBlank_of_ofPunctuation? known
  | comparison d _ known text =>
    subst text
    obtain rfl := List.mem_singleton.mp inside
    exact isBlank_of_ofComparison? known
  | extended d _ known text =>
    subst text
    obtain rfl := Option.some.inj last
    rfl
  | text body _ _ text =>
    subst text
    rw [← List.cons_append, List.getLast?_concat] at last
    obtain rfl := Option.some.inj last
    rfl
  | char d _ _ _ text =>
    subst text
    obtain rfl := Option.some.inj last
    rfl
  | int digits => exact (plain_of_isDigit (digits _ inside)).blank
  | real whole fraction digits _ decimals _ _ text =>
    subst text
    rcases List.mem_append.mp inside with member | inside
    · exact (plain_of_isDigit (digits _ member)).blank
    · rcases List.mem_cons.mp inside with rfl | member
      · rfl
      · exact (plain_of_isDigit (decimals _ member)).blank
  | reserved _ shape | name shape =>
    obtain ⟨d, others, rfl, start, parts⟩ := shape
    rcases List.mem_cons.mp inside with rfl | member
    · exact (plain_of_isWordStart start).blank
    · exact (plain_of_isWordPart (parts _ member)).blank

/-- A word does not leave its line. -/
theorem lineFeed_not_mem (isWord : IsWord k w value) : '\n' ∉ w := by
  intro inside
  cases isWord with
  | punctuation d known text =>
    subst text
    obtain rfl := List.mem_singleton.mp inside
    cases known
  | comparison d _ known text =>
    subst text
    obtain rfl := List.mem_singleton.mp inside
    cases known
  | extended d _ known text =>
    subst text
    rcases List.mem_cons.mp inside with rfl | equals
    · cases known
    · exact absurd equals (by decide)
  | text body characters _ text =>
    subst text
    rcases List.mem_cons.mp inside with quote | inside
    · exact absurd quote (by decide)
    · rcases List.mem_append.mp inside with member | quote
      · exact absurd (characters _ member) (by decide)
      · exact absurd quote (by decide)
  | char d line _ _ text =>
    subst text
    have other : '\n' = d := by simpa using inside
    exact line other.symm
  | int digits => exact absurd (digits _ inside) (by decide)
  | real whole fraction digits _ decimals _ _ text =>
    subst text
    rcases List.mem_append.mp inside with member | inside
    · exact absurd (digits _ member) (by decide)
    · rcases List.mem_cons.mp inside with point | member
      · exact absurd point (by decide)
      · exact absurd (decimals _ member) (by decide)
  | reserved _ shape | name shape =>
    obtain ⟨d, others, rfl, start, parts⟩ := shape
    rcases List.mem_cons.mp inside with rfl | member
    · exact absurd start (by decide)
    · exact absurd (parts _ member) (by decide)

/-- The text that stands for the end is no word. -/
theorem ne_endLexeme (isWord : IsWord k w value) : w ≠ Token.endLexeme.toList := by
  rintro rfl
  rcases isWord.first_cases with ⟨known, -⟩ | ⟨-, alone⟩ | ⟨-, equals⟩ | quote | quote | digit | start
  · cases known
  · cases alone
  · cases equals
  · exact absurd quote (by decide)
  · exact absurd quote (by decide)
  · exact absurd digit (by decide)
  · exact absurd start (by decide)

theorem kind_ne_eof (isWord : IsWord k w value) : k ≠ .eof := by
  rintro rfl
  cases isWord with
  | punctuation c known =>
    unfold Kind.ofPunctuation? at known
    split at known <;> cases known
  | comparison c _ known | extended c _ known =>
    unfold Kind.ofComparison? at known
    split at known <;> cases known
  | reserved r _ found kind =>
    have name := Reserved.isName_kind found
    rw [← kind] at name
    cases name
  | text _ _ kind | char _ _ _ kind | int _ _ _ kind | real _ _ _ _ _ _ kind | name _ _ kind =>
    cases kind

/-- A literal word has a value, and no other word has one. -/
theorem isSome_eq_isLiteral (isWord : IsWord k w value) : value.isSome = k.isLiteral := by
  cases isWord with
  | punctuation c known _ plain =>
    subst plain
    unfold Kind.ofPunctuation? at known
    split at known <;> cases known <;> rfl
  | comparison c _ known _ plain | extended c _ known _ plain =>
    subst plain
    unfold Kind.ofComparison? at known
    split at known <;> cases known <;> rfl
  | reserved r _ found kind known =>
    have all : ∀ entry ∈ reservedWords, entry.2.value.isSome = entry.2.kind.isLiteral := by
      decide +kernel
    subst kind known
    rw [Option.isSome_map]
    exact all _ (mem_reservedWords found)
  | text _ _ kind _ known | char _ _ _ kind _ known | int _ _ _ kind known
  | real _ _ _ _ _ _ kind _ known | name _ _ kind known =>
    subst kind known
    rfl

/-- Only an assignment and an equality start with an equals sign. -/
theorem head?_ne (isWord : IsWord k w value) (different : k ≠ .assign ∧ k ≠ .equal) :
    w.head? ≠ some '=' := by
  intro equals
  obtain ⟨w, rfl⟩ := List.head?_eq_some_iff.mp equals
  rcases isWord.first_cases with ⟨known, -⟩ | ⟨⟨extended, known⟩, -⟩ | ⟨⟨alone, known⟩, -⟩ | quote |
    quote | digit | start
  · cases known
  · cases known
    exact different.1 rfl
  · cases known
    exact different.2 rfl
  · exact absurd quote (by decide)
  · exact absurd quote (by decide)
  · exact absurd digit (by decide)
  · exact absurd start (by decide)

end IsWord

/-! ### The words of tokens -/

/-- A token with the kind and the value of its text. -/
def Token.IsWord (t : Token) : Prop := GameLang.IsWord t.kind t.lexeme.toList t.literal

theorem Tiled.exists_words {p : Position} {text : List Char} {ts : List Token}
    (tiled : Tiled p text ts) :
    ∃ us q, ts = us ++ [Token.ending q] ∧ ∀ t ∈ us, t.IsWord := by
  induction tiled with
  | ending p => exact ⟨[], p, rfl, by simp⟩
  | blank _ _ ih => exact ih
  | @word p k w v value ts isWord clear tiled ih =>
    obtain ⟨us, q, rfl, words⟩ := ih
    refine ⟨_ :: us, q, rfl, List.forall_mem_cons.mpr ⟨?_, words⟩⟩
    unfold Token.IsWord
    rwa [String.toList_ofList]

/-! ### What stands behind a word -/

theorem clear_nil (k : Kind) : Clear k [] :=
  ⟨fun _ => rfl, fun _ => ⟨rfl, rfl⟩, fun _ _ => rfl, fun _ => Option.some_ne_none '=' |>.symm⟩

/-- The characters that become part of no word in front of them. -/
def separators : List Char :=
  [' ', '\t', '\r', '\n', '(', ')', '[', ']', '\x7b', '\x7d', ',', ';', ':', '+', '-', '*', '/', '%']

theorem clear_of_separator {c : Char} (separates : c ∈ separators) (k : Kind) (text : List Char) :
    Clear k (c :: text) := by
  have all : (separators.all fun c => !isWordPart c && !c.isDigit && !Text.isAlphabetic c &&
      c ≠ '.' && c ≠ '=') = true := by decide
  have fits := List.all_eq_true.mp all c separates
  simp only [Bool.and_eq_true, Bool.not_eq_true', decide_eq_true_eq] at fits
  obtain ⟨⟨⟨⟨name, digit⟩, letter⟩, point⟩, equals⟩ := fits
  exact ⟨fun _ => name, fun _ => ⟨digit, letter⟩,
    fun _ next => absurd (Option.some.inj next) point,
    fun _ next => equals (Option.some.inj next)⟩

end GameLang
