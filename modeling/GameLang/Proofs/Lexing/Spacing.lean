import GameLang.Proofs.Lexing.Shape
import GameLang.Proofs.Recast.Tree
import Mathlib.Data.List.Chain

/-!
# Blanks between words

Words can be written one after another, with blanks or with nothing in between. Such a text has the
tokens of its words, unless two of them clash with nothing in between (`tokens_spaced_iff`).
-/

namespace GameLang

open Lexer

namespace Token

/-- A token is the only one of its text. -/
def Alone (t : Token) : Prop := ∃ last, tokens t.lexeme = .ok [t, last]

/-- A token would run into another one right behind it. -/
def Clashes (t next : Token) : Prop :=
  ∃ c, next.lexeme.toList.head? = some c ∧
    (t.kind.isName = true ∧ isWordPart c = true ∨
      (t.kind = .intLiteral ∨ t.kind = .realLiteral) ∧ c.isAlphanum = true ∨
      t.kind ∈ [.less, .greater, .assign, .bang] ∧ c = '=')

theorem Alone.isWord {t : Token} (alone : t.Alone) : t.IsWord := by
  obtain ⟨last, lexed⟩ := alone
  obtain ⟨us, q, split, words⟩ := (tokens_eq_ok_iff.mp lexed).exists_words
  have split : [t] ++ [last] = us ++ [ending q] := split
  obtain ⟨rfl, -⟩ := List.append_inj' split rfl
  exact words t List.mem_cons_self

end Token

/-! ### Clashes -/

namespace IsWord

variable {k : Kind} {c : Char} {w : List Char} {value : Option Literal}

/-- Of the letters only those of names start a word. -/
theorem isAlphanum_first (isWord : IsWord k (c :: w) value) (letter : Text.isAlphabetic c = true) :
    c.isAlphanum = true := by
  rcases isWord.first_mem with member | digit | start
  · have none : (deciding.all fun d => !Text.isAlphabetic d) = true := by decide
    have other := List.all_eq_true.mp none c member
    rw [letter] at other
    cases other
  · exact Bool.or_eq_true_iff.mpr (.inr digit)
  · rcases Bool.or_eq_true_iff.mp start with alpha | underscore
    · exact Bool.or_eq_true_iff.mpr (.inl alpha)
    · obtain rfl : c = '_' := of_decide_eq_true underscore
      exact absurd letter (by decide)

theorem first_ne_point (isWord : IsWord k (c :: w) value) : c ≠ '.' := by
  rintro rfl
  exact absurd isWord.first_mem (by decide)

end IsWord

namespace Token

variable {t next : Token}

/-- Two tokens can stand side by side unless they clash, whatever comes next. -/
theorem clear_iff_not_clashes (isWord : next.IsWord) (text : List Char) :
    Clear t.kind (next.lexeme.toList ++ text) ↔ ¬ t.Clashes next := by
  obtain ⟨c, w, spelled⟩ := List.exists_cons_of_ne_nil isWord.ne_nil
  unfold IsWord at isWord
  unfold Clashes
  rw [spelled] at isWord ⊢
  constructor
  · rintro clear ⟨d, same, clash⟩
    obtain rfl : c = d := Option.some.inj same
    rcases clash with ⟨name, part⟩ | ⟨number, part⟩ | ⟨comparison, rfl⟩
    · exact absurd part (Bool.eq_false_iff.mp (clear.name name))
    · obtain ⟨digit, letter⟩ := clear.number number
      have letter : Text.isAlphabetic c = false := letter
      have digit : c.isDigit = false := digit
      simp [Char.isAlphanum, digit, (Bool.or_eq_false_iff.mp letter).1] at part
    · exact clear.comparison comparison rfl
  · intro clear
    have apart := fun clash => clear ⟨c, rfl, clash⟩
    refine ⟨fun name => ?_, fun number => ⟨?_, ?_⟩, fun _ point => ?_, fun comparison equals => ?_⟩
    · exact Bool.eq_false_iff.mpr fun part => apart (.inl ⟨name, part⟩)
    · refine Bool.eq_false_iff.mpr fun digit => apart (.inr (.inl ⟨number, ?_⟩))
      exact Bool.or_eq_true_iff.mpr (.inr digit)
    · exact Bool.eq_false_iff.mpr fun letter =>
        apart (.inr (.inl ⟨number, isWord.isAlphanum_first letter⟩))
    · exact absurd (Option.some.inj point) isWord.first_ne_point
    · exact apart (.inr (.inr ⟨comparison, Option.some.inj equals⟩))

end Token

/-! ### Spaced words -/

/-- Blanks are clear of every word in front of them. -/
theorem clear_of_blank {c : Char} (blank : isBlank c = true) (k : Kind) (text : List Char) :
    Clear k (c :: text) := by
  refine clear_of_separator ?_ k text
  simp only [isBlank, Bool.or_eq_true, decide_eq_true_eq] at blank
  rcases blank with ((rfl | rfl) | rfl) | rfl <;> decide

/-- A token with what is written behind it. -/
structure Spaced where
  token : Token
  behind : String

namespace Spaced

def text (s : Spaced) : String := s.token.lexeme ++ s.behind

/-- A token that is alone in its text, with blanks behind it. -/
def Proper (s : Spaced) : Prop := s.token.Alone ∧ ∀ c ∈ s.behind.toList, isBlank c = true

/-- A token that does not clash with the next one, or that is kept apart from it. -/
def Apart (s next : Spaced) : Prop := s.behind = "" → ¬ s.token.Clashes next.token

/-- The characters of spaced words. -/
def chars (words : List Spaced) : List Char := words.flatMap fun s => s.text.toList

theorem chars_cons (s : Spaced) (words : List Spaced) :
    chars (s :: words) = s.token.lexeme.toList ++ (s.behind.toList ++ chars words) := by
  simp [chars, text]

theorem toList_join (words : List Spaced) : (String.join (words.map text)).toList = chars words := by
  simp [chars, List.flatMap_map]

variable {s : Spaced} {words : List Spaced}

/-- A token is clear of the words behind it exactly if it is kept apart from the first of them. -/
theorem clear_iff_apart (proper : s.Proper) (others : ∀ next ∈ words, next.Proper) :
    Clear s.token.kind (s.behind.toList ++ chars words) ↔ ∀ next ∈ words.head?, s.Apart next := by
  cases spelled : s.behind.toList with
  | cons c blanks =>
    have some : s.behind ≠ "" := by
      intro empty
      rw [empty] at spelled
      cases spelled
    have blank : isBlank c = true := proper.2 c (by simp [spelled])
    exact iff_of_true (clear_of_blank blank _ _) fun next _ empty => absurd empty some
  | nil =>
    have empty : s.behind = "" := String.toList_inj.mp spelled
    cases words with
    | nil => exact iff_of_true (clear_nil _) (by simp)
    | cons next words =>
      have isWord := (others next List.mem_cons_self).1.isWord
      rw [List.nil_append, chars_cons, Token.clear_iff_not_clashes isWord]
      simp [Apart, empty]

end Spaced

/-! ### Texts of spaced words -/

namespace Tiled

variable {p : Position} {v : List Char} {ts : List Token}

theorem of_blanks {blanks : List Char} (blank : ∀ c ∈ blanks, isBlank c = true)
    (tiled : Tiled p (blanks ++ v) ts) : Tiled (p.after blanks) v ts := by
  induction blanks generalizing p with
  | nil => exact tiled
  | cons c blanks ih =>
    obtain ⟨first, others⟩ := List.forall_mem_cons.mp blank
    generalize split : c :: blanks ++ v = text at tiled
    cases tiled with
    | ending => cases split
    | blank _ tiled =>
      obtain ⟨rfl, rfl⟩ := List.cons.inj split
      exact ih others tiled
    | word isWord =>
      obtain ⟨d, w, rfl⟩ := List.exists_cons_of_ne_nil isWord.ne_nil
      obtain ⟨rfl, -⟩ := List.cons.inj split
      rw [isWord.isBlank_first] at first
      cases first

theorem of_word {t u : Token} (isWord : t.IsWord) (same : u.lexeme = t.lexeme)
    (tiled : Tiled p (t.lexeme.toList ++ v) (u :: ts)) :
    Clear u.kind v ∧ Tiled (p.after t.lexeme.toList) v ts := by
  obtain ⟨c, w, spelled⟩ := List.exists_cons_of_ne_nil isWord.ne_nil
  generalize split : t.lexeme.toList ++ v = text at tiled
  cases tiled with
  | ending =>
    rw [spelled] at split
    cases split
  | blank blank =>
    unfold Token.IsWord at isWord
    rw [spelled] at isWord split
    obtain ⟨rfl, -⟩ := List.cons.inj split
    rw [isWord.isBlank_first] at blank
    cases blank
  | @word _ _ w' _ _ _ _ clear tiled =>
    obtain rfl : t.lexeme.toList = w' := by rw [← same, String.toList_ofList]
    obtain rfl := List.append_cancel_left split
    exact ⟨clear, tiled⟩

variable {words : List Spaced}

/-- Where the tokens of spaced words are read, none of them clashes with the one right behind it. -/
theorem isChain_apart {q : Position} (proper : ∀ s ∈ words, s.Proper)
    (tiled : Tiled p (Spaced.chars words) (ts ++ [Token.ending q]))
    (same : ts.map Token.unplaced = words.map fun s => s.token.unplaced) :
    words.IsChain Spaced.Apart := by
  induction words generalizing p ts with
  | nil => exact .nil
  | cons s words ih =>
    obtain ⟨t, ts, rfl, first, same⟩ := List.map_eq_cons_iff.mp same
    obtain ⟨good, others⟩ := List.forall_mem_cons.mp proper
    rw [Spaced.chars_cons] at tiled
    obtain ⟨kind, lexeme, -⟩ := Token.mk.inj first
    obtain ⟨clear, tiled⟩ := of_word good.1.isWord lexeme tiled
    rw [kind, Spaced.clear_iff_apart good others] at clear
    exact List.isChain_cons.mpr ⟨clear, ih others (of_blanks good.2 tiled) same⟩

/-- Spaced words of which none clashes with the one right behind it are read as their tokens. -/
theorem exists_of_isChain (proper : ∀ s ∈ words, s.Proper) (apart : words.IsChain Spaced.Apart)
    (p : Position) :
    ∃ ts q, Tiled p (Spaced.chars words) (ts ++ [Token.ending q]) ∧
      ts.map Token.unplaced = words.map fun s => s.token.unplaced := by
  induction words generalizing p with
  | nil => exact ⟨[], p, .ending p, rfl⟩
  | cons s words ih =>
    obtain ⟨good, others⟩ := List.forall_mem_cons.mp proper
    obtain ⟨first, apart⟩ := List.isChain_cons.mp apart
    have clear := (Spaced.clear_iff_apart good others).mpr first
    obtain ⟨ts, q, tiled, same⟩ :=
      ih others apart ((p.after s.token.lexeme.toList).after s.behind.toList)
    rw [Spaced.chars_cons]
    refine ⟨_ :: ts, q, .word good.1.isWord clear (.blanks good.2 tiled), ?_⟩
    rw [List.map_cons, List.map_cons, same]
    simp [Token.unplaced]

end Tiled

/-- A text of spaced words has their tokens exactly if no two of them clash with nothing in between,
whatever blanks stand in front. -/
theorem tokens_spaced_iff {front : String} {words : List Spaced}
    (blank : ∀ c ∈ front.toList, isBlank c = true) (proper : ∀ s ∈ words, s.Proper) :
    (∃ ts p, tokens (front ++ String.join (words.map Spaced.text)) = .ok (ts ++ [Token.ending p]) ∧
      ts.map Token.unplaced = words.map fun s => s.token.unplaced) ↔
    words.IsChain fun s next => s.behind = "" → ¬ s.token.Clashes next.token := by
  have split : (front ++ String.join (words.map Spaced.text)).toList =
      front.toList ++ Spaced.chars words := by
    rw [String.toList_append, Spaced.toList_join]
  constructor
  · rintro ⟨ts, p, lexed, same⟩
    have tiled := tokens_eq_ok_iff.mp lexed
    rw [split] at tiled
    exact Tiled.isChain_apart proper (tiled.of_blanks blank) same
  · intro apart
    obtain ⟨ts, q, tiled, same⟩ :=
      Tiled.exists_of_isChain proper apart (Position.start.after front.toList)
    refine ⟨ts, q, tokens_eq_ok_iff.mpr ?_, same⟩
    rw [split]
    exact .blanks blank tiled

theorem tokens_spaced_less :
    let less : Token := ⟨.less, "<", none, ⟨1, 1, 1⟩⟩
    let assign : Token := ⟨.assign, "=", none, ⟨1, 1, 1⟩⟩
    (∃ ts p, tokens "\t< =\n" = .ok (ts ++ [Token.ending p]) ∧
      ts.map Token.unplaced = [less.unplaced, assign.unplaced]) ∧
    ¬ ∃ ts p, tokens "\t<=\n" = .ok (ts ++ [Token.ending p]) ∧
      ts.map Token.unplaced = [less.unplaced, assign.unplaced] := by
  intro less assign
  have blank : ∀ c ∈ "\t".toList, isBlank c = true := List.all_eq_true.mp (by decide)
  have aloneLess : less.Alone := ⟨Token.ending ⟨1, 2⟩, by decide +kernel⟩
  have aloneAssign : assign.Alone := ⟨Token.ending ⟨1, 2⟩, by decide +kernel⟩
  have proper (behind : String) (blanks : behind.toList.all isBlank = true) :
      ∀ s ∈ [Spaced.mk less behind, ⟨assign, "\n"⟩], s.Proper := by
    have last : ∀ c ∈ "\n".toList, isBlank c = true := List.all_eq_true.mp (by decide)
    exact List.forall_mem_cons.mpr ⟨⟨aloneLess, List.all_eq_true.mp blanks⟩,
      List.forall_mem_singleton.mpr ⟨aloneAssign, last⟩⟩
  have clashes : less.Clashes assign := ⟨'=', by decide, .inr (.inr ⟨by decide, rfl⟩)⟩
  constructor
  · refine (tokens_spaced_iff blank (proper " " (by decide))).mpr ?_
    exact List.isChain_pair.mpr fun empty => absurd empty (by decide)
  · intro lexed
    have apart := (tokens_spaced_iff blank (proper "" (by decide))).mp lexed
    exact List.isChain_pair.mp apart rfl clashes

end GameLang
