import GameLang.Token.Lexer

/-!
# Words

A word is the text of a token. `IsWord` says which texts are words, and of which kind and value;
`Clear` says which texts can stand right behind a word without becoming part of it. A step of the
lexer takes a word exactly if it is clear of what follows (`Lexer.step_token_iff`).
-/

namespace GameLang

/-! ### Cursors that pass a text -/

namespace Cursor

/-- The cursor behind a text that it passes, with another text ahead. -/
def pass (w v : List Char) (c : Cursor) : Cursor :=
  ⟨v, c.here.after w, w.reverse ++ c.passed, c.mark⟩

@[simp] theorem rest_pass (w v : List Char) (c : Cursor) : (c.pass w v).rest = v := rfl

@[simp] theorem peek_pass (w v : List Char) (c : Cursor) : (c.pass w v).peek = v.head? := rfl

theorem pass_pass (w front v back : List Char) (c : Cursor) :
    (c.pass w v).pass front back = c.pass (w ++ front) back := by
  simp [pass, Position.after_append]

theorem advance_pass (w v : List Char) (first : Char) (c : Cursor) :
    (c.pass w (first :: v)).advance = c.pass (w ++ [first]) v := by
  simp [pass, advance, Position.after_append]

/-- Since its mark a cursor has passed the text that it passed after it was marked. -/
theorem passed_marked_pass (w v : List Char) (c : Cursor) :
    (c.marked.pass w v).passed.reverse = w := by
  simp [pass, marked]

theorem lexeme_marked_pass (w v : List Char) (c : Cursor) :
    (c.marked.pass w v).lexeme = String.ofList w := by
  rw [lexeme, passed_marked_pass]

theorem marked_advance {c : Cursor} {first : Char} {v : List Char} (ahead : c.rest = first :: v) :
    c.marked.advance = c.marked.pass [first] v := by
  simp [marked, advance, pass, ahead]

end Cursor

/-! ### Runs -/

section

variable {α : Type} {p : α → Bool} {run v : List α}

/-- Every list starts with a run of elements that satisfy `p`, which ends where no such element
follows. -/
theorem exists_run (p : α → Bool) (text : List α) :
    ∃ run v, text = run ++ v ∧ (∀ c ∈ run, p c = true) ∧ v.head?.any p = false := by
  refine ⟨text.takeWhile p, text.dropWhile p, List.takeWhile_append_dropWhile.symm, ?_, ?_⟩
  · exact List.all_eq_true.mp List.all_takeWhile
  · have stop := List.head?_dropWhile_not p text
    cases next : (text.dropWhile p).head? with
    | none => rfl
    | some c => simpa [next] using stop

theorem takeWhile_run (all : ∀ c ∈ run, p c = true) (stop : v.head?.any p = false) :
    (run ++ v).takeWhile p = run := by
  rw [List.takeWhile_append_of_pos all]
  cases v with
  | nil => simp
  | cons c v => simp [show p c = false from stop]

theorem dropWhile_run (all : ∀ c ∈ run, p c = true) (stop : v.head?.any p = false) :
    (run ++ v).dropWhile p = v := by
  rw [List.dropWhile_append_of_pos all]
  cases v with
  | nil => rfl
  | cons c v => simp [show p c = false from stop]

/-- Where a list is cut into a run and what follows, it is cut in the same place. -/
theorem run_append_inj {run' v' : List α} (all : ∀ c ∈ run, p c = true)
    (all' : ∀ c ∈ run', p c = true) (stop : v.head?.any p = false) (stop' : v'.head?.any p = false)
    (same : run ++ v = run' ++ v') : run = run' ∧ v = v' := by
  constructor
  · rw [← takeWhile_run all stop, same, takeWhile_run all' stop']
  · rw [← dropWhile_run all stop, same, dropWhile_run all' stop']

theorem run_replicate [DecidableEq α] (n : Nat) (a : α) :
    ∀ b ∈ List.replicate n a, decide (b = a) = true :=
  fun _ member => decide_eq_true (List.eq_of_mem_replicate member)

theorem run_ne_iff [DecidableEq α] {a : α} : (∀ b ∈ run, decide (b ≠ a) = true) ↔ a ∉ run := by
  constructor
  · exact fun others inside => absurd rfl (of_decide_eq_true (others a inside))
  · intro absent b inside
    apply decide_eq_true
    rintro rfl
    exact absent inside

end

theorem Cursor.advanceWhile_run {p : Char → Bool} {run v : List Char}
    (all : ∀ c ∈ run, p c = true) (stop : v.head?.any p = false) (w : List Char) (c : Cursor) :
    (c.pass w (run ++ v)).advanceWhile p = c.pass (w ++ run) v := by
  unfold Cursor.advanceWhile
  simp only [rest_pass, takeWhile_run all stop, dropWhile_run all stop]
  exact Cursor.pass_pass w run (run ++ v) v c

/-! ### Words and what may follow them -/

open Lexer

def IsName (w : List Char) : Prop :=
  ∃ first others, w = first :: others ∧ isWordStart first = true ∧
    ∀ c ∈ others, isWordPart c = true

/-- A text is a word of a kind, with a value if it is a literal. -/
inductive IsWord (k : Kind) (w : List Char) (value : Option Literal) : Prop where
  | punctuation (c : Char) (known : Kind.ofPunctuation? c = some k) (text : w = [c])
    (plain : value = none)
  | comparison (c : Char) (extended : Kind) (known : Kind.ofComparison? c = some (k, extended))
    (text : w = [c]) (plain : value = none)
  | extended (c : Char) (alone : Kind) (known : Kind.ofComparison? c = some (alone, k))
    (text : w = [c, '=']) (plain : value = none)
  | text (body : List Char) (inside : ∀ c ∈ body, isStringPart c = true)
    (kind : k = .stringLiteral) (text : w = '"' :: (body ++ ['"']))
    (known : value = some (.text (String.ofList body)))
  | char (c : Char) (line : c ≠ '\n') (quote : c ≠ '\'') (kind : k = .charLiteral)
    (text : w = ['\'', c, '\'']) (known : value = some (.char c))
  | int (digits : ∀ c ∈ w, c.isDigit = true) (some : w ≠ []) (small : Decimal.ofDigits w < intLimit)
    (kind : k = .intLiteral) (known : value = Option.some (.int (Decimal.ofDigits w)))
  | real (whole fraction : List Char) (digits : ∀ c ∈ whole, c.isDigit = true) (some : whole ≠ [])
    (decimals : ∀ c ∈ fraction, c.isDigit = true) (fractional : fraction ≠ [])
    (kind : k = .realLiteral) (text : w = whole ++ '.' :: fraction)
    (known : value = Option.some (.real (realValue w)))
  | reserved (r : Reserved) (shape : IsName w) (found : reserved? (String.ofList w) = some r)
    (kind : k = r.kind) (known : value = r.value.map .bool)
  | name (shape : IsName w) (free : reserved? (String.ofList w) = none) (kind : k = .ident)
    (plain : value = none)

/-- The kinds of names and reserved words. -/
def Kind.isName (k : Kind) : Bool := k = .ident || reservedWords.any fun entry => entry.2.kind = k

/-- A text behind a word of a kind does not become part of it. -/
structure Clear (k : Kind) (after : List Char) : Prop where
  name : k.isName = true → after.head?.any isWordPart = false
  number : k = .intLiteral ∨ k = .realLiteral →
    after.head?.any Char.isDigit = false ∧ after.head?.any Text.isAlphabetic = false
  point : k = .intLiteral → after.head? = some '.' → after.tail.head?.any Char.isDigit = false
  comparison : k ∈ [.less, .greater, .assign, .bang] → after.head? ≠ some '='

/-! ### What the first character decides -/

namespace Lexer

/-- The characters that decide what a token is, other than those of names and numbers. -/
def deciding : List Char :=
  [' ', '\t', '\r', '\n', '"', '\'', '(', ')', '[', ']', '\x7b', '\x7d', ',', ';', ':', '+', '-',
    '*', '/', '%', '<', '>', '=', '!']

/-- A character that decides nothing. -/
structure Plain (c : Char) : Prop where
  blank : isBlank c = false
  punctuation : Kind.ofPunctuation? c = none
  comparison : Kind.ofComparison? c = none
  quote : c ≠ '"'
  apostrophe : c ≠ '\''

theorem plain_of_all {q : Char → Bool} (none : (deciding.all fun d => !q d) = true) {c : Char}
    (holds : q c = true) : Plain c := by
  have other : c ∉ deciding := by
    intro member
    have fails := List.all_eq_true.mp none c member
    rw [holds] at fails
    cases fails
  simp only [deciding, List.mem_cons, List.not_mem_nil, or_false, not_or] at other
  refine ⟨by simp [isBlank, other], ?_, ?_, other.2.2.2.2.1, other.2.2.2.2.2.1⟩
  · unfold Kind.ofPunctuation?
    split <;> first | rfl | simp_all
  · unfold Kind.ofComparison?
    split <;> first | rfl | simp_all

theorem plain_of_isDigit {c : Char} (digit : c.isDigit = true) : Plain c :=
  plain_of_all (by decide) digit

theorem plain_of_isWordStart {c : Char} (start : isWordStart c = true) : Plain c :=
  plain_of_all (by decide) start

theorem plain_of_isWordPart {c : Char} (inside : isWordPart c = true) : Plain c :=
  plain_of_all (by decide) inside

theorem isBlank_of_ofPunctuation? {c : Char} {k : Kind} (known : Kind.ofPunctuation? c = some k) :
    isBlank c = false := by
  cases blank : isBlank c with
  | false => rfl
  | true =>
    simp only [isBlank, Bool.or_eq_true, decide_eq_true_eq] at blank
    rcases blank with ((rfl | rfl) | rfl) | rfl <;> cases known

theorem isDigit_of_isWordStart {c : Char} (start : isWordStart c = true) : c.isDigit = false := by
  rw [Bool.eq_false_iff]
  intro digit
  have bound : c.val ≤ '9'.val := of_decide_eq_true (Bool.and_eq_true_iff.mp digit).2
  rcases Bool.or_eq_true_iff.mp start with letter | underscore
  · rcases Bool.or_eq_true_iff.mp letter with upper | lower
    · have least : 'A'.val ≤ c.val := (of_decide_eq_true upper).1
      exact absurd (UInt32.le_trans least bound) (by decide)
    · have least : 'a'.val ≤ c.val := of_decide_eq_true (Bool.and_eq_true_iff.mp lower).1
      exact absurd (UInt32.le_trans least bound) (by decide)
  · obtain rfl : c = '_' := of_decide_eq_true underscore
    cases digit

variable {c : Char} {cursor : Cursor}

theorem step_punctuation {k : Kind} (known : Kind.ofPunctuation? c = some k) :
    step c cursor = token k none cursor := by
  simp only [step, isBlank_of_ofPunctuation? known, known, Bool.false_eq_true, if_false]

theorem step_comparison {alone extended : Kind}
    (known : Kind.ofComparison? c = some (alone, extended)) :
    step c cursor =
      token (if (cursor.accept '=').1 then extended else alone) none (cursor.accept '=').2 := by
  have other : isBlank c = false ∧ Kind.ofPunctuation? c = none := by
    unfold Kind.ofComparison? at known
    split at known <;> cases known <;> exact ⟨rfl, rfl⟩
  simp only [step, other, known, Bool.false_eq_true, if_false]

theorem step_quote : step '"' cursor = stringLiteral cursor := rfl

theorem step_apostrophe : step '\'' cursor = charLiteral cursor := rfl

theorem step_digit (digit : c.isDigit = true) : step c cursor = numberLiteral cursor := by
  obtain ⟨blank, punctuation, comparison, quote, apostrophe⟩ := plain_of_isDigit digit
  simp only [step, blank, punctuation, comparison, Bool.false_eq_true, if_false, if_neg quote,
    if_neg apostrophe, if_pos digit]

theorem step_name (start : isWordStart c = true) : step c cursor = word cursor := by
  obtain ⟨blank, punctuation, comparison, quote, apostrophe⟩ := plain_of_isWordStart start
  simp only [step, blank, punctuation, comparison, Bool.false_eq_true, if_false, if_neg quote,
    if_neg apostrophe, isDigit_of_isWordStart start, if_pos start]

end Lexer

end GameLang
