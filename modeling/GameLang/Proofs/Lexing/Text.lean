import GameLang.Proofs.Lexing.Step

/-!
# Texts and their tokens

`Tiled` cuts a text into blanks and words that are clear of what follows them, one token for each
word and an end token at the end. These are the texts that the lexer reads, and their tokens the
ones it gives (`tokens_eq_ok_iff`).
-/

namespace GameLang

/-- The columns of a text on the line where it starts; at least the first. -/
def Span.over (p : Position) (w : List Char) : Span :=
  ⟨p.line, p.column, max ((p.after w).column - 1) p.column⟩

open Lexer

/-- A text from a place on consists of blanks and of the words of some tokens, the last of which
ends it. -/
inductive Tiled : Position → List Char → List Token → Prop where
  | ending (p : Position) : Tiled p [] [Token.ending p]
  | blank {p : Position} {c : Char} {text : List Char} {ts : List Token} (isBlank : isBlank c = true)
    (tiled : Tiled (p.next c) text ts) : Tiled p (c :: text) ts
  | word {p : Position} {k : Kind} {w v : List Char} {value : Option Literal} {ts : List Token}
    (isWord : IsWord k w value) (clear : Clear k v) (tiled : Tiled (p.after w) v ts) :
    Tiled p (w ++ v) (⟨k, String.ofList w, value, Span.over p w⟩ :: ts)

theorem Tiled.blanks {p : Position} {blanks text : List Char} {ts : List Token}
    (blank : ∀ c ∈ blanks, isBlank c = true) (tiled : Tiled (p.after blanks) text ts) :
    Tiled p (blanks ++ text) ts := by
  induction blanks generalizing p with
  | nil => exact tiled
  | cons c blanks ih =>
    obtain ⟨first, others⟩ := List.forall_mem_cons.mp blank
    exact .blank first (ih others tiled)

theorem IsWord.ne_nil {k : Kind} {w : List Char} {value : Option Literal} (isWord : IsWord k w value) :
    w ≠ [] := by
  cases isWord with
  | int _ some => exact some
  | reserved _ shape | name shape =>
    obtain ⟨_, _, rfl, -⟩ := shape
    exact List.cons_ne_nil _ _
  | punctuation _ _ text | comparison _ _ _ text | extended _ _ _ text | text _ _ _ text
  | char _ _ _ _ text | real _ _ _ _ _ _ _ text =>
    subst text
    simp

namespace Lexer

variable {c c' : Cursor} {first : Char} {v : List Char} {ts : List Token}

/-! ### One step of a whole text -/

theorem tokenizeFrom_nil (ahead : c.rest = []) (read : List Token) :
    tokenizeFrom c read = (.ok (Token.ending c.here :: read).reverse, c.marked) := by
  rw [tokenizeFrom]
  split
  · rfl
  · rename_i other
    rw [ahead] at other
    cases other

theorem tokenizeFrom_cons (ahead : c.rest = first :: v) (read : List Token) :
    tokenizeFrom c read =
      match step first (c.marked.pass [first] v) with
      | (.blank, c') => tokenizeFrom c' read
      | (.token t, c') => tokenizeFrom c' (t :: read)
      | (.stuck e, c') => (.error e, c') := by
  rw [← Cursor.marked_advance ahead, tokenizeFrom]
  split
  · rename_i other
    rw [ahead] at other
    cases other
  · rename_i other
    obtain ⟨rfl, rfl⟩ := List.cons.inj (ahead.symm.trans other)
    split <;> simp only [*]

theorem step_of_isBlank (blank : isBlank first = true) (c : Cursor) : step first c = (.blank, c) :=
  if_pos blank

/-- Only a blank is taken without a token. -/
theorem of_step_blank (read : step first c = (.blank, c')) : isBlank first = true ∧ c' = c := by
  unfold step at read
  split at read
  · rename_i blank
    cases read
    exact ⟨blank, rfl⟩
  · exfalso
    unfold stringLiteral charLiteral numberLiteral realLiteral intLiteral word token stuck at read
    dsimp only at read
    repeat' split at read
    all_goals cases read

/-! ### Whole texts -/

/-- A text that is cut into words is read as their tokens. -/
theorem tokenizeFrom_of_tiled {p : Position} {text : List Char} (tiled : Tiled p text ts)
    (here : c.here = p) (ahead : c.rest = text) (read : List Token) :
    (tokenizeFrom c read).1 = .ok (read.reverse ++ ts) := by
  induction tiled generalizing c read with
  | ending p =>
    rw [tokenizeFrom_nil ahead, here]
    simp
  | @blank p ch text ts blank tiled ih =>
    rw [tokenizeFrom_cons ahead, step_of_isBlank blank]
    exact ih (c := c.marked.pass [ch] text) (by rw [← here]; rfl) rfl read
  | @word p k w v value ts isWord clear tiled ih =>
    obtain ⟨first, w, rfl⟩ := List.exists_cons_of_ne_nil isWord.ne_nil
    rw [List.cons_append] at ahead
    rw [tokenizeFrom_cons ahead, step_eq_token isWord clear, token]
    dsimp only
    rw [ih (c := c.marked.pass (first :: w) v) (by rw [← here]; rfl) rfl, Cursor.lexeme_marked_pass,
      List.reverse_cons, List.append_assoc, ← here]
    rfl

/-- A text that is read is cut into the words of its tokens. -/
theorem tiled_of_tokenizeFrom (c : Cursor) (read : List Token)
    (ok : (tokenizeFrom c read).1 = .ok ts) :
    ∃ back, ts = read.reverse ++ back ∧ Tiled c.here c.rest back := by
  cases ahead : c.rest with
  | nil =>
    rw [tokenizeFrom_nil ahead] at ok
    cases ok
    exact ⟨[Token.ending c.here], by simp, .ending c.here⟩
  | cons first v =>
    rw [tokenizeFrom_cons ahead] at ok
    split at ok
    · rename_i c' found
      obtain ⟨blank, rfl⟩ := of_step_blank found
      obtain ⟨back, rfl, tiled⟩ := tiled_of_tokenizeFrom _ read ok
      exact ⟨back, rfl, .blank blank tiled⟩
    · rename_i t c' found
      obtain ⟨w, v, rfl, isWord, clear, lexeme, span, rfl⟩ := step_token_iff.mp found
      obtain ⟨back, rfl, tiled⟩ := tiled_of_tokenizeFrom _ (t :: read) ok
      refine ⟨t :: back, by simp, ?_⟩
      obtain ⟨k, lexeme', value, span'⟩ := t
      obtain rfl : lexeme' = _ := lexeme
      obtain rfl : span' = _ := span
      exact .word isWord clear tiled
    · cases ok
termination_by c.rest.length
decreasing_by
  · have length := congrArg List.length ahead
    rw [List.length_cons] at length
    rw [Cursor.rest_pass]
    omega
  · have length := congrArg List.length ahead
    rw [List.length_cons, List.length_append] at length
    rw [Cursor.rest_pass]
    omega

end Lexer

/-- The texts that are read and their tokens are those that are cut into words. -/
theorem tokens_eq_ok_iff {source : String} {ts : List Token} :
    tokens source = .ok ts ↔ Tiled .start source.toList ts := by
  constructor
  · intro ok
    obtain ⟨back, rfl, tiled⟩ := Lexer.tiled_of_tokenizeFrom (.ofString source) [] ok
    exact tiled
  · intro tiled
    exact Lexer.tokenizeFrom_of_tiled tiled rfl rfl []

end GameLang
