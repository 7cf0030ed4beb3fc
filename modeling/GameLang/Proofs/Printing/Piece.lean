import GameLang.Proofs.Grammar.Expr
import GameLang.Proofs.Lexing.Shape
import GameLang.Proofs.Recast.Tree

/-!
# Pieces of source text

`LaidOut` says of pieces that their words are those of some tokens, each clear of the text after it.
The text of such pieces is read as these tokens, in other places (`LaidOut.tokens_pieceText`).
-/

namespace GameLang

open Lexer

/-! ### The words of tokens -/

theorem reserved?_spelling {s : String} {r : Reserved} (found : reserved? s = some r)
    (fixed : r.kind.isFixed = true) : s = r.kind.spelling := by
  have all : ∀ entry ∈ reservedWords, entry.2.kind.isFixed = true →
      entry.1 = entry.2.kind.spelling := by decide +kernel
  exact all _ (mem_reservedWords found) fixed

/-- A word of a kind with one spelling is spelled so. -/
theorem IsWord.eq_spelling {k : Kind} {w : List Char} {value : Option Literal}
    (isWord : IsWord k w value) (fixed : k.isFixed = true) : w = k.spelling.toList := by
  cases isWord with
  | punctuation c known text =>
    subst text
    unfold Kind.ofPunctuation? at known
    split at known <;> cases known <;> rfl
  | comparison c _ known text | extended c _ known text =>
    subst text
    unfold Kind.ofComparison? at known
    split at known <;> cases known <;> rfl
  | reserved r shape found kind =>
    subst kind
    rw [← reserved?_spelling found fixed, String.toList_ofList]
  | text _ _ kind | char _ _ _ kind | int _ _ _ kind | real _ _ _ _ _ _ kind | name _ _ kind =>
    subst kind
    cases fixed

/-- The spelling of a kind that has only one is a word of it. -/
theorem Kind.isWord_spelling {k : Kind} (fixed : k.isFixed = true) : IsWord k k.spelling.toList none := by
  have reserved {k : Kind} (found : reserved? k.spelling = some ⟨k, none⟩)
      (shape : IsName k.spelling.toList) : IsWord k k.spelling.toList none :=
    .reserved ⟨k, none⟩ shape (by rw [String.ofList_toList, found]) rfl rfl
  cases k <;> first
    | exact .punctuation _ rfl rfl rfl
    | exact .comparison _ _ rfl rfl rfl
    | exact .extended _ _ rfl rfl rfl
    | exact reserved rfl ⟨_, _, rfl, rfl, List.all_eq_true.mp rfl⟩
    | cases fixed

/-! ### The characters of pieces -/

def pieceChars (pieces : List Piece) : List Char := pieces.flatMap fun piece => piece.text.toList

theorem toList_pieceText (pieces : List Piece) : (pieceText pieces).toList = pieceChars pieces := by
  simp [pieceText, pieceChars, List.flatMap_map]

theorem pieceChars_cons (piece : Piece) (pieces : List Piece) :
    pieceChars (piece :: pieces) = piece.text.toList ++ pieceChars pieces := List.flatMap_cons

/-- Some pieces are clear of every word in front of them. -/
def Separated (pieces : List Piece) : Prop := ∀ k, Clear k (pieceChars pieces)

theorem separated_nil : Separated [] := clear_nil

theorem separated_space (pieces : List Piece) : Separated (.space :: pieces) :=
  fun k => clear_of_separator (c := ' ') (by decide) k (pieceChars pieces)

theorem separated_newline (pieces : List Piece) : Separated (.newline :: pieces) :=
  fun k => clear_of_separator (c := '\n') (by decide) k (pieceChars pieces)

/-- The kinds that brackets and separators have. -/
def Kind.isDelimiter : Kind → Bool
  | leftParen | rightParen | leftBracket | rightBracket | leftBrace | rightBrace | comma
  | semicolon => true
  | _ => false

theorem separated_delimiter {k : Kind} (delimits : k.isDelimiter = true) (pieces : List Piece) :
    Separated (.ofKind k :: pieces) := by
  have spelled : ∃ c ∈ separators, k.spelling.toList = [c] := by
    cases k <;> first | exact ⟨_, by decide, rfl⟩ | cases delimits
  obtain ⟨c, separates, spelled⟩ := spelled
  intro other
  rw [pieceChars_cons, Piece.ofKind, Piece.text, spelled]
  exact clear_of_separator separates other (pieceChars pieces)

/-! ### Laid out tokens -/

/-- Pieces are the words of some tokens, each clear of what follows, with blanks between them. -/
inductive LaidOut : List Piece → List Token → Prop where
  | nil : LaidOut [] []
  | blank {piece : Piece} {pieces : List Piece} {ts : List Token}
    (blank : ∀ c ∈ piece.text.toList, isBlank c = true) (back : LaidOut pieces ts) :
    LaidOut (piece :: pieces) ts
  | word {t : Token} {pieces : List Piece} {ts : List Token} (isWord : t.IsWord)
    (clear : Clear t.kind (pieceChars pieces)) (back : LaidOut pieces ts) :
    LaidOut (.ofToken t :: pieces) (t :: ts)

namespace LaidOut

variable {pieces : List Piece} {t : Token} {ts : List Token} {k : Kind}

theorem space (back : LaidOut pieces ts) : LaidOut (.space :: pieces) ts := by
  have blank : ∀ c ∈ [' '], isBlank c = true := List.forall_mem_singleton.mpr rfl
  exact .blank blank back

theorem newline (back : LaidOut pieces ts) : LaidOut (.newline :: pieces) ts := by
  have blank : ∀ c ∈ ['\n'], isBlank c = true := List.forall_mem_singleton.mpr rfl
  exact .blank blank back

theorem indent (depth : Nat) (back : LaidOut pieces ts) : LaidOut (.indent depth :: pieces) ts := by
  refine .blank (fun c member => ?_) back
  rw [Piece.text, Text.toList_copies, List.mem_replicate] at member
  rw [member.2]
  rfl

/-- A token in front of pieces that are clear of every word. -/
theorem token (isWord : t.IsWord) (separated : Separated pieces) (back : LaidOut pieces ts) :
    LaidOut (.ofToken t :: pieces) (t :: ts) := .word isWord (separated t.kind) back

/-- A token of a kind with one spelling. -/
theorem kind (same : t.kind = k) (isWord : t.IsWord) (fixed : k.isFixed = true)
    (clear : Clear k (pieceChars pieces)) (back : LaidOut pieces ts) :
    LaidOut (.ofKind k :: pieces) (t :: ts) := by
  subst same
  have spelled : t.lexeme = t.kind.spelling := String.toList_inj.mp (isWord.eq_spelling fixed)
  rw [Piece.ofKind, ← spelled]
  exact .word isWord clear back

theorem clear_of_isDelimiter (delimits : k.isDelimiter = true) (text : List Char) : Clear k text := by
  refine clear_of_closed ?_ text
  cases k <;> first | decide | cases delimits

/-- A bracket or a separator is clear of everything. -/
theorem delimiter (same : t.kind = k) (isWord : t.IsWord) (delimits : k.isDelimiter = true)
    (back : LaidOut pieces ts) : LaidOut (.ofKind k :: pieces) (t :: ts) := by
  refine kind same isWord ?_ (clear_of_isDelimiter delimits _) back
  cases k <;> first | rfl | cases delimits

/-- Laid out tokens start with an equals sign only if the first one does. -/
theorem head?_ne (laid : LaidOut pieces ts)
    (different : ∀ t ∈ ts.head?, t.kind ≠ .assign ∧ t.kind ≠ .equal) :
    (pieceChars pieces).head? ≠ some '=' := by
  induction laid with
  | nil => exact Option.some_ne_none '=' |>.symm
  | @blank piece pieces _ blank back ih =>
    rw [pieceChars_cons]
    cases chars : piece.text.toList with
    | nil => exact ih different
    | cons c text =>
      rw [List.cons_append, List.head?_cons]
      intro equals
      obtain rfl := Option.some.inj equals
      exact absurd (blank '=' (chars ▸ List.mem_cons_self)) (by decide)
  | @word t pieces _ isWord clear back ih =>
    obtain ⟨c, text, chars⟩ := List.exists_cons_of_ne_nil isWord.ne_nil
    have first := isWord.head?_ne (different t rfl)
    rw [chars] at first
    rw [pieceChars_cons, Piece.ofToken, Piece.text, chars]
    exact first

/-- The text of laid out tokens is cut into their words. -/
theorem tiled (laid : LaidOut pieces ts) (p : Position) :
    ∃ us q, Tiled p (pieceChars pieces) (us ++ [Token.ending q]) ∧
      us.map Token.unplaced = ts.map Token.unplaced := by
  induction laid generalizing p with
  | nil => exact ⟨[], p, .ending p, rfl⟩
  | @blank piece pieces _ blank back ih =>
    obtain ⟨us, q, tiled, same⟩ := ih (p.after piece.text.toList)
    exact ⟨us, q, pieceChars_cons piece pieces ▸ tiled.blanks blank, same⟩
  | @word t pieces _ isWord clear back ih =>
    obtain ⟨us, q, tiled, same⟩ := ih (p.after t.lexeme.toList)
    refine ⟨⟨t.kind, t.lexeme, t.literal, Span.over p t.lexeme.toList⟩ :: us, q, ?_, ?_⟩
    · have all := Tiled.word isWord clear tiled
      rw [String.ofList_toList] at all
      rw [pieceChars_cons]
      exact all
    · rw [List.map_cons, List.map_cons, same]
      rfl

/-- The text of laid out tokens is read as them. -/
theorem tokens_pieceText (laid : LaidOut pieces ts) :
    ∃ us q, tokens (pieceText pieces) = .ok (us ++ [Token.ending q]) ∧
      us.map Token.unplaced = ts.map Token.unplaced := by
  obtain ⟨us, q, tiled, same⟩ := laid.tiled .start
  exact ⟨us, q, tokens_eq_ok_iff.mpr (toList_pieceText pieces ▸ tiled), same⟩

end LaidOut

end GameLang
