import GameLang.Proofs.Lexing.Place
import GameLang.Proofs.Lexing.Shape
import Mathlib.Data.List.Pairwise

/-!
# Tokens tile a text

A text that is read is the texts of its tokens with blanks in between, and each token stands where
its text does (`tokens_tile`). So the spans follow one another, and a character that is no blank lies
in exactly one of them.
-/

namespace GameLang

open Lexer

/-! ### Tiles -/

/-- A token with the blanks in front of it. -/
structure Tile where
  blanks : List Char
  token : Token

namespace Tile

def text (tile : Tile) : List Char := tile.blanks ++ tile.token.lexeme.toList

/-- Blanks in front of a token whose text is a line, or a part of one. -/
structure Proper (tile : Tile) : Prop where
  blank : ∀ c ∈ tile.blanks, isBlank c = true
  inside : tile.token.kind ≠ .eof
  nonempty : tile.token.lexeme ≠ ""
  inLine : '\n' ∉ tile.token.lexeme.toList
  different : tile.token.lexeme ≠ Token.endLexeme

/-- The tokens of some tiles stand where their texts do, from a place on. -/
def Placed : Position → List Tile → Prop
  | _, [] => True
  | p, tile :: tiles =>
    tile.token.span = Span.over (p.after tile.blanks) tile.token.lexeme.toList ∧
      Placed (p.after tile.text) tiles

theorem Placed.span_eq {p : Position} {front others : List Tile} {tile : Tile}
    (placed : Placed p (front ++ tile :: others)) :
    tile.token.span =
      Span.over (p.after (front.flatMap text ++ tile.blanks)) tile.token.lexeme.toList := by
  induction front generalizing p with
  | nil => exact placed.1
  | cons first front ih =>
    have later := ih placed.2
    rwa [← Position.after_append, ← List.append_assoc] at later

end Tile

namespace Tiled

variable {p : Position} {text : List Char} {ts : List Token}

theorem exists_tiles (tiled : Tiled p text ts) :
    ∃ (tiles : List Tile) (back : List Char), text = tiles.flatMap Tile.text ++ back ∧
      ts = tiles.map Tile.token ++ [Token.ending (p.after text)] ∧ (∀ tile ∈ tiles, tile.Proper) ∧
      (∀ c ∈ back, isBlank c = true) ∧ Tile.Placed p tiles := by
  induction tiled with
  | ending p => exact ⟨[], [], rfl, rfl, by simp, by simp, trivial⟩
  | @blank p c text ts blank tiled ih =>
    obtain ⟨tiles, back, rfl, rfl, proper, blanks, placed⟩ := ih
    cases tiles with
    | nil => exact ⟨[], c :: back, rfl, rfl, by simp, List.forall_mem_cons.mpr ⟨blank, blanks⟩, trivial⟩
    | cons tile tiles =>
      -- The blank joins those in front of the first token.
      obtain ⟨first, others⟩ := List.forall_mem_cons.mp proper
      refine ⟨⟨c :: tile.blanks, tile.token⟩ :: tiles, back, rfl, rfl, ?_, blanks, placed⟩
      exact List.forall_mem_cons.mpr
        ⟨{ first with blank := List.forall_mem_cons.mpr ⟨blank, first.blank⟩ }, others⟩
  | @word p k w v value ts isWord clear tiled ih =>
    obtain ⟨tiles, back, rfl, rfl, proper, blanks, placed⟩ := ih
    have spelled : (String.ofList w).toList = w := String.toList_ofList
    refine ⟨⟨[], ⟨k, String.ofList w, value, Span.over p w⟩⟩ :: tiles, back, ?_, ?_, ?_, blanks, ?_⟩
    · simp [Tile.text, spelled]
    · rw [Position.after_append p w]
      rfl
    · refine List.forall_mem_cons.mpr ⟨⟨by simp, isWord.kind_ne_eof, ?_, ?_, ?_⟩, proper⟩
      · intro empty
        exact isWord.ne_nil (spelled.symm.trans (congrArg String.toList empty))
      · rw [spelled]
        exact isWord.lineFeed_not_mem
      · intro same
        exact isWord.ne_endLexeme (spelled.symm.trans (congrArg String.toList same))
    · unfold Tile.Placed Tile.text
      rw [spelled]
      exact ⟨rfl, placed⟩

/-! ### Tokens in their text -/

/-- A token is the end of its text, or a word that stands in it. -/
theorem eq_ending_or_word (tiled : Tiled p text ts) : ∀ t ∈ ts, t = Token.ending (p.after text) ∨
    t.IsWord ∧ ∃ front v, text = front ++ (t.lexeme.toList ++ v) ∧
      t.span = Span.over (p.after front) t.lexeme.toList := by
  induction tiled with
  | ending p => exact List.forall_mem_singleton.mpr (.inl rfl)
  | @blank p c text ts blank tiled ih =>
    intro t member
    rcases ih t member with same | ⟨isWord, front, v, rfl, placed⟩
    · exact .inl same
    · exact .inr ⟨isWord, c :: front, v, rfl, placed⟩
  | @word p k w v value ts isWord clear tiled ih =>
    refine List.forall_mem_cons.mpr ⟨.inr ?_, fun t member => ?_⟩
    · unfold Token.IsWord
      simp only [String.toList_ofList]
      exact ⟨isWord, [], v, rfl, rfl⟩
    · rw [Position.after_append]
      rcases ih t member with same | ⟨isWord, front, v, rfl, placed⟩
      · exact .inl same
      · refine .inr ⟨isWord, w ++ front, v, by simp, ?_⟩
        rw [Position.after_append]
        exact placed

/-! ### Spans in order -/

theorem le_start (tiled : Tiled p text ts) : ∀ t ∈ ts, p ≤ t.start := by
  induction tiled with
  | ending p => exact List.forall_mem_singleton.mpr p.le_refl
  | blank _ _ ih => exact fun t member => Position.le_trans (Position.le_next _ _) (ih t member)
  | word _ _ _ ih =>
    refine List.forall_mem_cons.mpr ⟨Position.le_refl _, fun t member => ?_⟩
    exact Position.le_trans (Position.le_after _ _) (ih t member)

theorem pairwise_before (tiled : Tiled p text ts) : ts.Pairwise fun t u => t.span.Before u.span := by
  induction tiled with
  | ending p => exact List.pairwise_singleton _ _
  | blank _ _ ih => exact ih
  | @word p k w v value ts isWord clear tiled ih =>
    refine List.pairwise_cons.mpr ⟨fun u member => ?_, ih⟩
    have behind := tiled.le_start u member
    have positive := List.length_pos_iff.mpr isWord.ne_nil
    rw [Position.after_of_not_mem isWord.lineFeed_not_mem, Position.le_iff] at behind
    rw [Span.over_of_not_mem isWord.lineFeed_not_mem isWord.ne_nil]
    unfold Span.Before
    unfold Token.start Span.start at behind
    dsimp only at *
    omega

theorem first_le_last (tiled : Tiled p text ts) : ∀ t ∈ ts, t.span.first ≤ t.span.last := by
  induction tiled with
  | ending p => exact List.forall_mem_singleton.mpr (Nat.le_refl _)
  | blank _ _ ih => exact ih
  | @word p k w v value ts isWord clear tiled ih =>
    refine List.forall_mem_cons.mpr ⟨?_, ih⟩
    have positive := List.length_pos_iff.mpr isWord.ne_nil
    rw [Span.over_of_not_mem isWord.lineFeed_not_mem isWord.ne_nil]
    dsimp only
    omega

/-- A span is that of one token. -/
theorem nodup_spans (tiled : Tiled p text ts) : (ts.map Token.span).Nodup := by
  refine List.pairwise_map.mpr (tiled.pairwise_before.imp_of_mem fun {t u} member _ before same => ?_)
  have ordered := tiled.first_le_last t member
  rw [← same] at before
  unfold Span.Before at before
  omega

theorem exists_covers {front others : List Char} {c : Char} (tiled : Tiled p text ts)
    (split : text = front ++ c :: others) (visible : isBlank c = false) :
    ∃ t ∈ ts, t.span.Covers (p.after front) := by
  induction tiled generalizing front with
  | ending p => simp at split
  | @blank p d text ts blank tiled ih =>
    cases front with
    | nil =>
      obtain ⟨rfl, -⟩ := List.cons.inj split
      rw [blank] at visible
      cases visible
    | cons first front =>
      obtain ⟨rfl, rfl⟩ := List.cons.inj split
      exact ih rfl
  | @word p k w v value ts isWord clear tiled ih =>
    by_cases within : front.length < w.length
    · -- The character is one of the word, on the line where the word starts.
      have before : front <+: w := by
        have left : front <+: w ++ v := ⟨c :: others, split.symm⟩
        exact List.prefix_of_prefix_length_le left (List.prefix_append w v) (Nat.le_of_lt within)
      have inLine : '\n' ∉ front := fun inside => isWord.lineFeed_not_mem (before.subset inside)
      refine ⟨_, List.mem_cons_self, ?_⟩
      rw [Span.over_of_not_mem isWord.lineFeed_not_mem isWord.ne_nil,
        Position.after_of_not_mem inLine]
      unfold Span.Covers
      dsimp only
      omega
    · have behind : w <+: front := by
        have right : w <+: front ++ c :: others := ⟨v, split⟩
        exact List.prefix_of_prefix_length_le right (List.prefix_append front _) (by omega)
      obtain ⟨front, rfl⟩ := behind
      rw [List.append_assoc] at split
      obtain ⟨t, member, covered⟩ := ih (List.append_cancel_left split)
      rw [Position.after_append]
      exact ⟨t, List.mem_cons_of_mem _ member, covered⟩

end Tiled

/-- The text is the texts of its tokens with blanks around them, closed by an end token at its end.
Each token is within a line and stands where its text does, the spans follow one another, and each
character that is no blank lies in one of them only. -/
theorem tokens_tile {source : String} {ts : List Token} (lexed : tokens source = .ok ts) :
    ∃ (tiles : List Tile) (back : List Char),
      source.toList = tiles.flatMap Tile.text ++ back ∧
      ts = tiles.map Tile.token ++ [Token.ending (.behind source.toList)] ∧
      (∀ tile ∈ tiles, tile.Proper) ∧ (∀ c ∈ back, isBlank c = true) ∧
      (∀ front tile others, tiles = front ++ tile :: others →
        let place := Position.behind (front.flatMap Tile.text ++ tile.blanks)
        tile.token.span =
          ⟨place.line, place.column, place.column + tile.token.lexeme.toList.length - 1⟩) ∧
      ts.Pairwise (fun t u => t.span.Before u.span) ∧
      ∀ front c others, source.toList = front ++ c :: others → isBlank c = false →
        ∃! t, t ∈ ts ∧ t.span.Covers (.behind front) := by
  have tiled := tokens_eq_ok_iff.mp lexed
  obtain ⟨tiles, back, split, all, proper, blanks, placed⟩ := tiled.exists_tiles
  rw [Position.after_start] at all
  have ordered := tiled.pairwise_before
  refine ⟨tiles, back, split, all, proper, blanks, ?_, ordered, ?_⟩
  · rintro front tile others rfl
    have good := proper tile (by simp)
    have nonempty : tile.token.lexeme.toList ≠ [] := by simpa using good.nonempty
    intro place
    rw [placed.span_eq, Position.after_start, Span.over_of_not_mem good.inLine nonempty]
  · intro front c others cut visible
    obtain ⟨t, member, covered⟩ := tiled.exists_covers cut visible
    rw [Position.after_start] at covered
    -- Of two spans one is in front of the other, so that they share no place.
    have apart : ts.Pairwise fun t u => ∀ p, t.span.Covers p → ¬ u.span.Covers p :=
      ordered.imp fun before _ => before.not_covers
    have : Std.Symm fun t u : Token => ∀ p, t.span.Covers p → ¬ u.span.Covers p :=
      ⟨fun t u only p covered also => only p also covered⟩
    refine ⟨t, ⟨member, covered⟩, ?_⟩
    rintro u ⟨other, alsoCovered⟩
    by_contra different
    exact apart.forall member other (Ne.symm different) _ covered alsoCovered

theorem tokens_tile_quoted :
    let source := "\"a\r🎲\" \n\tb"
    let ts : List Token := [⟨.stringLiteral, "\"a\r🎲\"", some (.text "a\r🎲"), ⟨1, 1, 5⟩⟩,
      ⟨.ident, "b", none, ⟨2, 2, 2⟩⟩, Token.ending ⟨2, 3⟩]
    tokens source = .ok ts ∧
      ts = ts.dropLast ++ [Token.ending (.behind source.toList)] ∧
      ∀ front c others, source.toList = front ++ c :: others → isBlank c = false →
        ∃! t, t ∈ ts ∧ t.span.Covers (.behind front) := by
  intro source ts
  have lexed : tokens source = .ok ts := by decide +kernel
  obtain ⟨tiles, back, -, all, -, -, -, -, only⟩ := tokens_tile lexed
  refine ⟨lexed, ?_, only⟩
  rw [all, List.dropLast_concat]

end GameLang
