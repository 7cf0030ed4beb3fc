import GameLang.Proofs.Lexing.Text
import Mathlib.Data.List.Induction

/-!
# Places counted in the whole text

A cursor counts lines and columns one character at a time. `Position.behind` counts them in the text
that stands in front, all at once, and gives the same (`Position.after_start`). Places are ordered as
in reading, and no text leads back (`Position.le_after`).
-/

namespace GameLang

namespace Position

/-- The place behind a text: its line feeds and the characters after the last of them, counted from
one. -/
def behind (text : List Char) : Position :=
  ⟨1 + text.count '\n', 1 + (text.reverse.takeWhile (· ≠ '\n')).length⟩

theorem behind_append_singleton (text : List Char) (c : Char) :
    behind (text ++ [c]) = (behind text).next c := by
  unfold behind next
  by_cases line : c = '\n'
  · subst line
    simp [Nat.add_assoc]
  · simp [line, List.count_append, Nat.add_comm]

theorem after_start (text : List Char) : start.after text = behind text := by
  induction text using List.reverseRecOn with
  | nil => rfl
  | append_singleton text c ih => rw [after_append, ih, after_cons, after_nil, behind_append_singleton]

/-- Within a line only the column moves. -/
theorem after_of_not_mem {text : List Char} (inLine : '\n' ∉ text) (p : Position) :
    p.after text = ⟨p.line, p.column + text.length⟩ := by
  induction text generalizing p with
  | nil => rfl
  | cons c text ih =>
    obtain ⟨different, inLine⟩ := not_or.mp (mt List.mem_cons.mpr inLine)
    have moved : p.next c = ⟨p.line, p.column + 1⟩ := if_neg (Ne.symm different)
    rw [after_cons, moved, ih inLine, List.length_cons, Nat.add_assoc, Nat.add_comm 1]

/-! ### The order of places -/

instance : LE Position := ⟨fun p q => p.line < q.line ∨ p.line = q.line ∧ p.column ≤ q.column⟩

theorem le_iff {p q : Position} : p ≤ q ↔ p.line < q.line ∨ p.line = q.line ∧ p.column ≤ q.column :=
  Iff.rfl

theorem le_refl (p : Position) : p ≤ p := .inr ⟨rfl, Nat.le_refl _⟩

theorem le_trans {p q r : Position} (first : p ≤ q) (second : q ≤ r) : p ≤ r := by
  rw [le_iff] at *
  omega

theorem le_next (p : Position) (c : Char) : p ≤ p.next c := by
  rw [le_iff]
  unfold next
  split
  · exact .inl (Nat.lt_succ_self _)
  · exact .inr ⟨rfl, Nat.le_succ _⟩

theorem le_after (p : Position) (text : List Char) : p ≤ p.after text := by
  induction text generalizing p with
  | nil => exact p.le_refl
  | cons c text ih => exact le_trans (p.le_next c) (ih (p.next c))

end Position

/-! ### Spans -/

namespace Span

/-- A place is one of those in a span. -/
def Covers (s : Span) (p : Position) : Prop := s.line = p.line ∧ s.first ≤ p.column ∧ p.column ≤ s.last

/-- A span ends in front of the start of another one. -/
def Before (s t : Span) : Prop := s.line < t.line ∨ s.line = t.line ∧ s.last < t.first

theorem Before.not_covers {s t : Span} {p : Position} (before : s.Before t) (covered : s.Covers p) :
    ¬ t.Covers p := by
  unfold Before at before
  unfold Covers at *
  omega

/-- The span of a text within a line. -/
theorem over_of_not_mem {w : List Char} (inLine : '\n' ∉ w) (some : w ≠ []) (p : Position) :
    Span.over p w = ⟨p.line, p.column, p.column + w.length - 1⟩ := by
  have positive := List.length_pos_iff.mpr some
  unfold Span.over
  rw [Position.after_of_not_mem inLine, Nat.max_eq_left (by dsimp only; omega)]

end Span

end GameLang
