import GameLang.Proofs.Lexing.Tiles

/-!
# Texts in rows

A text in rows is some rows, each closed by a line feed. Rows without line feeds are told by their text
(`Text.ofRows_inj`). Behind rows of which none is empty, an empty one is the first in the text
(`Text.emptyRow_first`). The tokens of a text in rows stand each in one of them (`Tiled.exists_row`).
-/

namespace GameLang

namespace Text

/-- Rows as a text, each closed by a line feed. -/
def ofRows (rows : List (List Char)) : List Char := rows.flatMap (· ++ ['\n'])

variable {row row' front back back' rest w : List Char} {rows rows' : List (List Char)}

@[simp] theorem ofRows_nil : ofRows [] = [] := rfl

@[simp] theorem ofRows_cons (row : List Char) (rows : List (List Char)) :
    ofRows (row :: rows) = row ++ '\n' :: ofRows rows := by
  simp [ofRows]

theorem ofRows_append (rows rows' : List (List Char)) :
    ofRows (rows ++ rows') = ofRows rows ++ ofRows rows' := List.flatMap_append

theorem row_append_inj (inRow : '\n' ∉ row) (inRow' : '\n' ∉ row')
    (same : row ++ '\n' :: back = row' ++ '\n' :: back') : row = row' ∧ back = back' := by
  obtain ⟨first, behind⟩ :=
    run_append_inj (run_ne_iff.mpr inRow) (run_ne_iff.mpr inRow') rfl rfl same
  exact ⟨first, (List.cons.inj behind).2⟩

theorem ofRows_inj (inRow : ∀ row ∈ rows, '\n' ∉ row) (inRow' : ∀ row ∈ rows', '\n' ∉ row)
    (same : ofRows rows = ofRows rows') : rows = rows' := by
  induction rows generalizing rows' with
  | nil =>
    cases rows' with
    | nil => rfl
    | cons row' rows' => simp at same
  | cons row rows ih =>
    cases rows' with
    | nil => simp at same
    | cons row' rows' =>
      obtain ⟨first, others⟩ := List.forall_mem_cons.mp inRow
      obtain ⟨first', others'⟩ := List.forall_mem_cons.mp inRow'
      rw [ofRows_cons, ofRows_cons] at same
      obtain ⟨rfl, behind⟩ := row_append_inj first first' same
      rw [ih others others' behind]

/-! ### Empty rows -/

/-- An empty row stands in a text, with some text in front of it and some behind. -/
def EmptyRow (text front back : List Char) : Prop :=
  text = front ++ '\n' :: back ∧ (front = [] ∨ front.getLast? = some '\n')

theorem getLast?_ofRows (some : rows ≠ []) : (ofRows rows).getLast? = .some '\n' := by
  obtain ⟨init, row, rfl⟩ := (List.eq_nil_or_concat rows).resolve_left some
  simp [ofRows_append]

theorem emptyRow_ofRows (rows : List (List Char)) (rest : List Char) :
    EmptyRow (ofRows rows ++ '\n' :: rest) (ofRows rows) rest := by
  refine ⟨rfl, ?_⟩
  by_cases nothing : rows = []
  · exact .inl (by rw [nothing, ofRows_nil])
  · exact .inr (getLast?_ofRows nothing)

/-- Where a text with a line feed starts with a row, it starts with the whole row. -/
theorem exists_of_row_append (inRow : '\n' ∉ row) (feed : '\n' ∈ front)
    (same : row ++ '\n' :: rest = front ++ back) : ∃ tail, front = row ++ '\n' :: tail ∧
      rest = tail ++ back := by
  obtain ⟨run, v, rfl, inside, stop⟩ := exists_run (fun c => decide (c ≠ '\n')) front
  have inRun : '\n' ∉ run := run_ne_iff.mp inside
  cases v with
  | nil => exact absurd (by simpa using feed) inRun
  | cons c v =>
    obtain rfl : c = '\n' := by simpa using stop
    rw [List.append_assoc] at same
    obtain ⟨rfl, behind⟩ := row_append_inj inRow inRun same
    exact ⟨v, rfl, behind⟩

/-- In front of an empty row are all rows that none such precede. -/
theorem emptyRow_first (proper : ∀ row ∈ rows, row ≠ [] ∧ '\n' ∉ row)
    (found : EmptyRow (ofRows rows ++ rest) front back) :
    (ofRows rows).length ≤ front.length := by
  induction rows generalizing front with
  | nil => exact Nat.zero_le _
  | cons row rows ih =>
    obtain ⟨⟨nonempty, inRow⟩, others⟩ := List.forall_mem_cons.mp proper
    obtain ⟨split, start⟩ := found
    rw [ofRows_cons, List.append_assoc, List.cons_append] at split
    rcases start with rfl | last
    · obtain ⟨c, tail, rfl⟩ := List.exists_cons_of_ne_nil nonempty
      obtain ⟨rfl, -⟩ := List.cons.inj split
      exact absurd List.mem_cons_self inRow
    · obtain ⟨tail, rfl, behind⟩ := exists_of_row_append inRow (List.mem_of_getLast? last) split
      have start : tail = [] ∨ tail.getLast? = some '\n' := by
        cases tail with
        | nil => exact .inl rfl
        | cons c tail => exact .inr (by simpa [List.getLast?_append] using last)
      have shorter := ih others ⟨behind, start⟩
      rw [ofRows_cons, List.length_append, List.length_append, List.length_cons, List.length_cons]
      omega

/-! ### Words in rows -/

/-- A text within a line stands in the row that its place tells. -/
theorem exists_getElem?_ofRows (inRow : ∀ row ∈ rows, '\n' ∉ row) (inLine : '\n' ∉ w) (some : w ≠ [])
    (split : ofRows rows = front ++ (w ++ back)) (line : Nat) :
    ∃ i lead tail, rows[i]? = .some (lead ++ (w ++ tail)) ∧
      (⟨line, 1⟩ : Position).after front = ⟨line + i, lead.length + 1⟩ := by
  induction rows generalizing front line with
  | nil => simp [some] at split
  | cons row rows ih =>
    obtain ⟨first, others⟩ := List.forall_mem_cons.mp inRow
    rw [ofRows_cons] at split
    by_cases feed : '\n' ∈ front
    · obtain ⟨front, rfl, behind⟩ := exists_of_row_append first feed split
      obtain ⟨i, lead, tail, found, place⟩ := ih others behind (line + 1)
      have moved : ((⟨line, 1⟩ : Position).after row).next '\n' = ⟨line + 1, 1⟩ := by
        rw [Position.after_of_not_mem first]
        rfl
      refine ⟨i + 1, lead, tail, found, ?_⟩
      rw [Position.after_append, Position.after_cons, moved, place, Position.mk.injEq]
      exact ⟨by omega, rfl⟩
    · have whole : '\n' ∉ front ++ w := by simp [feed, inLine]
      have place : (⟨line, 1⟩ : Position).after front = ⟨line + 0, front.length + 1⟩ := by
        rw [Position.after_of_not_mem feed, Nat.add_comm front.length 1]
        rfl
      rw [← List.append_assoc] at split
      rcases List.append_eq_append_iff.mp split with ⟨tail, longer, rest⟩ | ⟨tail, rfl, -⟩
      · -- Nothing of what stands in the line is behind the row.
        cases tail with
        | nil =>
          have same : row = front ++ (w ++ []) := by simpa using longer.symm
          exact ⟨0, front, [], congrArg Option.some same, place⟩
        | cons c tail =>
          obtain ⟨rfl, -⟩ := List.cons.inj rest
          exact absurd (by simp [longer]) whole
      · exact ⟨0, front, tail, by simp, place⟩

end Text

/-- A token of a text in rows does not leave its row. -/
theorem Tiled.exists_row {rows : List (List Char)} {ts : List Token}
    (tiled : Tiled .start (Text.ofRows rows) ts) (inRow : ∀ row ∈ rows, '\n' ∉ row) :
    ∀ t ∈ ts, t.IsWord → ∃ lead tail, rows[t.span.line - 1]? = some (lead ++ (t.lexeme.toList ++ tail)) ∧
      t.span.first = lead.length + 1 := by
  intro t member isWord
  rcases tiled.eq_ending_or_word t member with same | ⟨-, front, back, split, placed⟩
  · rw [same] at isWord
    exact absurd rfl isWord.kind_ne_eof
  · obtain ⟨i, lead, tail, found, place⟩ := Text.exists_getElem?_ofRows inRow isWord.lineFeed_not_mem
      isWord.ne_nil split 1
    have start : Position.start.after front = ⟨1 + i, lead.length + 1⟩ := place
    rw [start, Span.over_of_not_mem isWord.lineFeed_not_mem isWord.ne_nil] at placed
    rw [placed]
    exact ⟨lead, tail, by simpa using found, rfl⟩

end GameLang
