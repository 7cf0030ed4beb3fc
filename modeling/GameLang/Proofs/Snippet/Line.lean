import GameLang.Proofs.Lexing.Place
import GameLang.Proofs.Lexing.Word
import GameLang.Text.Lines

/-!
# The line of a place

Places count line feeds only; lines also lose a carriage return in front of a line feed, and behind the
last line feed there may be none. `Text.lineAt_fault` finds the line of a place with some text at it,
`Text.lineAt_end` that of the end of a text.
-/

namespace GameLang

namespace Text

variable {front row line w v : List Char} {ended : Bool}

/-! ### Lines without their ending -/

theorem withoutReturn_eq_dropLast (last : line.getLast? = some '\r') :
    withoutReturn line true = line.dropLast := by
  simp [withoutReturn, last]

theorem withoutReturn_eq_self (other : ended = true → line.getLast? ≠ some '\r') :
    withoutReturn line ended = line := by
  unfold withoutReturn
  cases ended with
  | false => rfl
  | true => simp [other rfl]

/-- Only the end of a line decides what it loses. -/
theorem withoutReturn_append (row : List Char) (some : w ≠ []) :
    withoutReturn (row ++ w) ended = row ++ withoutReturn w ended := by
  unfold withoutReturn
  have last : (row ++ w).getLast? = w.getLast? := by
    rw [List.getLast?_append, List.getLast?_eq_some_getLast some, Option.some_or]
  rw [last, List.dropLast_append_of_ne_nil some]
  split <;> rfl

/-! ### Skipping lines -/

theorem lineAt_nil (n : Nat) : lineAt n [] = none := by cases n <;> rfl

theorem lineAt_lineFeed (n : Nat) (rest : List Char) :
    lineAt (n + 1) ('\n' :: rest) = lineAt n rest := rfl

theorem lineAt_cons {c : Char} (inLine : c ≠ '\n') (n : Nat) (rest : List Char) :
    lineAt (n + 1) (c :: rest) = lineAt (n + 1) rest := by
  have skipped : lineAt (n + 1) (c :: rest) = lineAt n (rest.dropWhile (· ≠ '\n')).tail := by
    rw [lineAt, List.dropWhile_cons_of_pos (by simpa using inLine)]
    simp
  rw [skipped]
  cases rest with
  | nil => rw [List.dropWhile_nil, List.tail_nil, lineAt_nil, lineAt_nil]
  | cons d rest => rfl

/-- Whole lines in front of a text are skipped. -/
theorem lineAt_lines {lead : List Char} (whole : lead = [] ∨ lead.getLast? = some '\n')
    (rest : List Char) : lineAt (lead.count '\n') (lead ++ rest) = lineAt 0 rest := by
  induction lead with
  | nil => rfl
  | cons c lead ih =>
    rcases whole with nothing | last
    · cases nothing
    cases lead with
    | nil =>
      obtain rfl : c = '\n' := Option.some.inj last
      rfl
    | cons d lead =>
      rw [List.getLast?_cons_cons] at last
      have skipped := ih (.inr last)
      by_cases feed : c = '\n'
      · rw [feed, List.count_cons_self, List.cons_append, lineAt_lineFeed, skipped]
      · obtain ⟨n, more⟩ := Nat.exists_eq_add_one.mpr
          (List.count_pos_iff.mpr (List.mem_of_getLast? last))
        rw [more] at skipped
        rw [List.count_cons_of_ne feed, more, List.cons_append, lineAt_cons feed, skipped]

/-! ### The line behind a text -/

/-- The place behind a text is in the last row of it. -/
theorem lineAt_behind (front rest : List Char) :
    ∃ row, '\n' ∉ row ∧ (Position.behind front).column = row.length + 1 ∧
      (row = [] → front = [] ∨ front.getLast? = some '\n') ∧
      lineAt ((Position.behind front).line - 1) (front ++ rest) = lineAt 0 (row ++ rest) := by
  obtain ⟨run, lines, split, inLine, stop⟩ := exists_run (fun c => decide (c ≠ '\n')) front.reverse
  have outside : '\n' ∉ run := run_ne_iff.mp inLine
  have cut : front = lines.reverse ++ run.reverse := by
    rw [← List.reverse_append, ← split, List.reverse_reverse]
  have whole : lines.reverse = [] ∨ lines.reverse.getLast? = some '\n' := by
    cases lines with
    | nil => exact .inl rfl
    | cons c lines => exact .inr (by simpa using stop)
  have line : (Position.behind front).line - 1 = lines.reverse.count '\n' := by
    rw [Position.behind, Nat.add_sub_cancel_left, cut, List.count_append,
      List.count_eq_zero_of_not_mem (mt List.mem_reverse.mp outside), Nat.add_zero]
  refine ⟨run.reverse, mt List.mem_reverse.mp outside, ?_, ?_, ?_⟩
  · rw [Position.behind, split, takeWhile_run inLine stop, List.length_reverse]
    exact Nat.add_comm 1 run.length
  · intro nothing
    rw [cut, nothing, List.append_nil]
    exact whole
  · rw [line, cut, List.append_assoc, lineAt_lines whole]

theorem lineAt_zero (inLine : '\n' ∉ row) (stop : v.head?.any (fun c => decide (c ≠ '\n')) = false)
    (some : row ++ v ≠ []) : lineAt 0 (row ++ v) = .some (withoutReturn row (!v.isEmpty)) := by
  have all : ∀ c ∈ row, decide (c ≠ '\n') = true := run_ne_iff.mpr inLine
  have shown : ∀ text : List Char, text ≠ [] → lineAt 0 text = .some (withoutReturn
      (text.takeWhile (· ≠ '\n')) (!(text.dropWhile (· ≠ '\n')).isEmpty)) := by
    intro text nonempty
    cases text with
    | nil => exact absurd rfl nonempty
    | cons c rest => rfl
  rw [shown _ some, takeWhile_run all stop, dropWhile_run all stop]

/-- A text at a place stands in the line of it, but for a carriage return at the very end. -/
theorem lineAt_fault (front : List Char) (inLine : '\n' ∉ w) (some : w ≠ []) (v : List Char) :
    ∃ row seen, (Position.behind front).column = row.length + 1 ∧
      lineAt ((Position.behind front).line - 1) (front ++ (w ++ v)) = .some (row ++ seen) ∧
      (¬ (w.getLast? = .some '\r' ∧ v.head? = .some '\n') → w <+: seen) ∧
      (w.getLast? = .some '\r' → v.head? = .some '\n' → seen = w.dropLast) := by
  obtain ⟨row, inRow, column, -, found⟩ := lineAt_behind front (w ++ v)
  obtain ⟨tail, v, rfl, inTail, stop⟩ := exists_run (fun c => decide (c ≠ '\n')) v
  have outside : '\n' ∉ tail := run_ne_iff.mp inTail
  have whole : '\n' ∉ row ++ (w ++ tail) := by simp [inRow, inLine, outside]
  have shown : lineAt 0 (row ++ (w ++ (tail ++ v))) =
      .some (row ++ withoutReturn (w ++ tail) (!v.isEmpty)) := by
    rw [← List.append_assoc w, ← List.append_assoc row, lineAt_zero whole stop (by simp [some]),
      withoutReturn_append row (by simp [some])]
  refine ⟨row, _, column, found.trans shown, ?_, ?_⟩
  · intro other
    cases tail with
    | nil =>
      have same : withoutReturn w (!v.isEmpty) = w := by
        refine withoutReturn_eq_self fun ended last => ?_
        cases v with
        | nil => cases ended
        | cons c v => exact other ⟨last, by simpa using stop⟩
      exact ⟨[], by rw [List.append_nil, same]⟩
    | cons c tail =>
      rw [withoutReturn_append w (List.cons_ne_nil c tail)]
      exact List.prefix_append _ _
  · intro last feed
    cases tail with
    | nil =>
      cases v with
      | nil => cases feed
      | cons c v => rw [List.append_nil]; exact withoutReturn_eq_dropLast last
    | cons c tail =>
      obtain rfl : c = '\n' := Option.some.inj feed
      exact absurd List.mem_cons_self outside

/-- The end of a text is behind the last line feed of it, or behind its last line. -/
theorem lineAt_end (text : List Char) :
    (lineAt ((Position.behind text).line - 1) text = none ∧ (Position.behind text).column = 1 ∧
      (text = [] ∨ text.getLast? = some '\n')) ∨
    ∃ line, lineAt ((Position.behind text).line - 1) text = some line ∧
      (Position.behind text).column = line.length + 1 := by
  obtain ⟨row, inRow, column, start, found⟩ := lineAt_behind text []
  rw [List.append_nil, List.append_nil] at found
  by_cases nothing : row = []
  · refine .inl ⟨?_, ?_, start nothing⟩
    · rw [found, nothing, lineAt_nil]
    · rw [column, nothing, List.length_nil]
  · refine .inr ⟨row, ?_, column⟩
    have shown := @lineAt_zero row [] inRow rfl (by simpa using nothing)
    rw [List.append_nil] at shown
    rw [found, shown]
    rfl

end Text

end GameLang
