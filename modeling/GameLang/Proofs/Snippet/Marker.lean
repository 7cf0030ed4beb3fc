import GameLang.Proofs.Snippet.Fault
import GameLang.Proofs.Snippet.Line

/-!
# The marker under an error

The snippet of an error leads to its text: blanks that line up with the displayed line, then a mark for
each character of the text (`SourceError.snippet_points`). The marks are under the text itself, unless
the displayed line lacks the carriage return that the text ends in (`SourceError.marked_iff`).
-/

namespace GameLang.SourceError

variable {text : String} {e : SourceError} {row : List Char}

/-! ### Blanks in front of the marker -/

theorem length_padding (row seen : List Char) :
    (padding (row ++ seen) (row.length + 1)).length = row.length := by
  simp [padding]

/-- A blank in front of the marker is a tab exactly under a tab. -/
theorem padding_spec {column i : Nat} {c : Char} (found : (padding row column)[i]? = some c) :
    (c = '\t' ↔ row[i]? = some '\t') ∧ (c ≠ '\t' → c = ' ') := by
  have mapped : ((row.take (column - 1))[i]?).map (fun c => if c = '\t' then '\t' else ' ') = some c := by
    rwa [← List.getElem?_map]
  obtain ⟨d, taken, rfl⟩ := Option.map_eq_some_iff.mp mapped
  have shown : row[i]? = some d := by
    rw [List.getElem?_take] at taken
    split at taken
    · exact taken
    · cases taken
  rw [shown]
  by_cases tab : d = '\t'
  · simp [tab]
  · simp [tab]

/-! ### Widths and lines of errors -/

theorem width_of_ending {cause : Cause} {p : Position} :
    (grammatical ⟨cause, Token.ending p⟩).width = 1 := Nat.add_sub_cancel_left _ _

theorem Stands.width_pos {source front v : List Char} (stands : e.Stands source front v) :
    1 ≤ e.width := by
  rw [stands.width]
  exact List.length_pos_iff.mpr stands.nonempty

/-- Lines and columns are counted from one, and something is marked. -/
theorem one_le_of_read (failed : Source.read text = .error e) :
    1 ≤ e.place.line ∧ 1 ≤ e.place.column ∧ 1 ≤ e.width := by
  rcases Source.stands_or_atEnd failed with ⟨-, front, v, stands⟩ | ⟨cause, rfl⟩
  · rw [stands.place]
    exact ⟨Nat.le_add_right 1 _, Nat.le_add_right 1 _, stands.width_pos⟩
  · rw [width_of_ending]
    exact ⟨Nat.le_add_right 1 _, Nat.le_add_right 1 _, Nat.le_refl 1⟩

/-- The width of an error at a token is no difference below zero, and is that of the text there. -/
theorem width_of_read {s : SyntaxError} (failed : Source.read text = .error (.grammatical s)) :
    s.token.span.first ≤ s.token.span.last + 1 ∧
      (grammatical s).width = if s.token.kind = .eof then 1 else s.token.lexeme.length := by
  have wide : 1 ≤ s.token.span.last + 1 - s.token.span.first := (one_le_of_read failed).2.2
  refine ⟨by omega, ?_⟩
  rcases Source.stands_or_atEnd failed with ⟨inside, front, v, stands⟩ | ⟨cause, same⟩
  · have inside : s.token.kind ≠ .eof := inside
    rw [if_neg inside, stands.width]
    exact String.length_toList
  · obtain rfl := SourceError.grammatical.inj same
    exact width_of_ending

/-- An error stands in a line, at its end at most, or at the end of a text without a last line. -/
theorem line_of_read (failed : Source.read text = .error e) :
    (∃ row seen, e.place.column = row.length + 1 ∧
      Text.lineAt (e.place.line - 1) text.toList = some (row ++ seen)) ∨
    Text.lineAt (e.place.line - 1) text.toList = none ∧ e.AtEnd ∧ e.place.column = 1 ∧
      (text = "" ∨ text.toList.getLast? = some '\n') := by
  rcases Source.stands_or_atEnd failed with ⟨-, front, v, stands⟩ | ⟨cause, rfl⟩
  · obtain ⟨row, seen, column, found, -⟩ :=
      Text.lineAt_fault front stands.inLine stands.nonempty v
    rw [stands.split, stands.place]
    exact .inl ⟨row, seen, column, found⟩
  · rcases Text.lineAt_end text.toList with ⟨found, column, last⟩ | ⟨line, found, column⟩
    · exact .inr ⟨found, rfl, column, last.imp_left String.toList_eq_nil_iff.mp⟩
    · exact .inl ⟨line, [], column, by rw [List.append_nil]; exact found⟩

/-! ### Snippets -/

/-- A snippet shows the line of the error, and under it, in front of the marker, as many blanks as
there are characters in front of the error, tabs exactly under tabs. Only an error at the end of a text
that is empty or ends in a line feed has no line. The marker has a width, which for an error at a token
is that of its text. -/
theorem snippet_points (failed : Source.read text = .error e) (path : String) :
    let number := Decimal.shownNat e.place.line
    let place := "--> " ++ path ++ ":" ++ number ++ ":" ++ Decimal.shownNat e.place.column ++ "\n"
    let gutter := Text.copies number.length ' '
    1 ≤ e.place.line ∧ 1 ≤ e.place.column ∧ 1 ≤ e.width ∧
      (∀ s, e = .grammatical s → s.token.span.first ≤ s.token.span.last + 1 ∧
        e.width = if s.token.kind = .eof then 1 else s.token.lexeme.length) ∧
      (∀ row, Text.lineAt (e.place.line - 1) text.toList = some row →
        e.place.column - 1 ≤ row.length ∧ ∃ blanks : List Char,
          e.snippet text path = gutter ++ place ++ gutter ++ " |\n" ++ number ++ " | " ++
            String.ofList row ++ "\n" ++ gutter ++ " | " ++ String.ofList blanks ++
            Text.copies e.width '^' ++ "\n" ∧
          blanks.length = e.place.column - 1 ∧
          ∀ (i : Nat) (c : Char), blanks[i]? = some c →
            (c = '\t' ↔ row[i]? = some '\t') ∧ (c ≠ '\t' → c = ' ')) ∧
      (Text.lineAt (e.place.line - 1) text.toList = none →
        e.snippet text path = " " ++ place ∧ e.AtEnd ∧ e.place.column = 1 ∧
          (text = "" ∨ text.toList.getLast? = some '\n')) := by
  intro number place gutter
  obtain ⟨onLine, inColumn, wide⟩ := one_le_of_read failed
  refine ⟨onLine, inColumn, wide, ?_, ?_, ?_⟩
  · rintro s rfl
    exact width_of_read failed
  · intro line found
    rcases line_of_read failed with ⟨row, seen, column, shown⟩ | ⟨none, -⟩
    · obtain rfl : row ++ seen = line := Option.some.inj (shown.symm.trans found)
      refine ⟨by simp [column], padding (row ++ seen) e.place.column, ?_, ?_, fun i c => padding_spec⟩
      · unfold snippet
        rw [shown, Nat.max_eq_left wide]
      · rw [column, length_padding, Nat.add_sub_cancel]
    · rw [none] at found
      cases found
  · intro nothing
    rcases line_of_read failed with ⟨row, seen, -, shown⟩ | ⟨-, ended, column, last⟩
    · rw [shown] at nothing
      cases nothing
    · refine ⟨?_, ended, column, last⟩
      unfold snippet
      rw [nothing]

theorem snippet_points_tab :
    let text := "moj\r\n\tx;\r\n"
    let e : SourceError := .grammatical ⟨.missingType .variable, ⟨.ident, "x", none, ⟨2, 2, 2⟩⟩⟩
    Source.read text = .error e ∧ Text.lineAt 1 text.toList = some "\tx;".toList ∧
      e.snippet text "a" = " --> a:2:2\n  |\n2 | \tx;\n  | \t^\n" := by
  intro text e
  have lexed : tokens text = .ok [⟨.varWord, "moj", none, ⟨1, 1, 3⟩⟩, ⟨.ident, "x", none, ⟨2, 2, 2⟩⟩,
      ⟨.semicolon, ";", none, ⟨2, 3, 3⟩⟩, Token.ending ⟨3, 1⟩] := by decide +kernel
  have failed : Source.read text = .error e := by
    unfold Source.read
    rw [lexed]
    rfl
  have found : Text.lineAt (e.place.line - 1) text.toList = some "\tx;".toList := by decide +kernel
  obtain ⟨-, -, -, -, lines, -⟩ := snippet_points failed "a"
  obtain ⟨-, blanks, shown, length, tabs⟩ := lines _ found
  obtain ⟨c, rfl⟩ := List.length_eq_one_iff.mp length
  obtain rfl : c = '\t' := (tabs 0 c rfl).1.mpr (by decide +kernel)
  refine ⟨failed, found, shown.trans ?_⟩
  decide +kernel

/-- There is a mark for each character of the text of the error. They are under that text exactly if the
line has all of it, which it lacks where a quote is not closed in front of a carriage return and a line
feed. There the last mark is beyond the end of the line. -/
theorem marked_iff (failed : Source.read text = .error e) (inside : ¬ e.AtEnd) :
    ∃ line front v, Text.lineAt (e.place.line - 1) text.toList = some line ∧
      text.toList = front ++ (e.offending.toList ++ v) ∧ e.place = .behind front ∧
      e.width = e.offending.length ∧
      ((line.drop (e.place.column - 1)).take (max e.width 1) = e.offending.toList ↔
        ¬ (e.offending.toList.getLast? = some '\r' ∧ v.head? = some '\n')) ∧
      (e.offending.toList.getLast? = some '\r' → v.head? = some '\n' →
        line.drop (e.place.column - 1) = e.offending.toList.dropLast ∧
        e.place.column - 1 + max e.width 1 = line.length + 1 ∧
        ∃ l, e = .lexical l ∧ (l.cause = .unterminatedString ∨ l.cause = .malformedChar)) := by
  rcases Source.stands_or_atEnd failed with ⟨-, front, v, stands⟩ | ⟨cause, rfl⟩
  · obtain ⟨row, seen, column, found, whole, short⟩ :=
      Text.lineAt_fault front stands.inLine stands.nonempty v
    rw [← stands.place] at column found
    rw [← stands.split] at found
    have shown : (row ++ seen).drop (e.place.column - 1) = seen := by
      rw [column, Nat.add_sub_cancel, List.drop_left]
    have width : e.width = e.offending.length := stands.width.trans String.length_toList
    refine ⟨row ++ seen, front, v, found, stands.split, stands.place, width, ?_, ?_⟩
    · rw [shown, Nat.max_eq_left stands.width_pos, stands.width]
      constructor
      · rintro marked ⟨last, feed⟩
        have fewer := congrArg List.length marked
        have some := List.length_pos_iff.mpr stands.nonempty
        rw [short last feed, List.length_take, List.length_dropLast] at fewer
        omega
      · intro other
        exact (List.prefix_iff_eq_take.mp (whole other)).symm
    · intro last feed
      have some := List.length_pos_iff.mpr stands.nonempty
      refine ⟨shown.trans (short last feed), ?_, stands.quoted last feed⟩
      rw [Nat.max_eq_left stands.width_pos, stands.width, column, short last feed, List.length_append,
        List.length_dropLast]
      omega
  · exact absurd rfl inside

theorem marked_iff_inside :
    let text := "x\r\n'ab'\r\n"
    let e : SourceError := .lexical ⟨.malformedChar, ⟨2, 1⟩, "'ab"⟩
    Source.read text = .error e ∧ ¬ e.AtEnd ∧ e.width = "'ab".length ∧
      ∃ line, Text.lineAt (e.place.line - 1) text.toList = some line ∧
        (line.drop (e.place.column - 1)).take (max e.width 1) = "'ab".toList := by
  intro text e
  have failed : Source.read text = .error e := by
    have lexed : tokens text = .error ⟨.malformedChar, ⟨2, 1⟩, "'ab"⟩ := by decide +kernel
    unfold Source.read
    rw [lexed]
  obtain ⟨line, front, v, found, -, -, width, marked, -⟩ := marked_iff failed id
  refine ⟨failed, id, width, line, found, marked.mpr ?_⟩
  rintro ⟨last, -⟩
  exact absurd last (by decide +kernel)

/-- An unclosed quote in front of a carriage return and a line feed is marked beyond the end of its
line. -/
theorem not_marked_return :
    let text := "\"abc\r\n"
    let e : SourceError := .lexical ⟨.unterminatedString, ⟨1, 1⟩, "\"abc\r"⟩
    Source.read text = .error e ∧ ¬ e.AtEnd ∧
      Text.lineAt (e.place.line - 1) text.toList = some "\"abc".toList ∧ e.width = 5 ∧
      ("\"abc".toList.drop (e.place.column - 1)).take (max e.width 1) ≠ e.offending.toList ∧
      e.snippet text "a" = " --> a:1:1\n  |\n1 | \"abc\n  | ^^^^^\n" := by
  intro text e
  have failed : Source.read text = .error e := by
    have lexed : tokens text = .error ⟨.unterminatedString, ⟨1, 1⟩, "\"abc\r"⟩ := by decide +kernel
    unfold Source.read
    rw [lexed]
  exact ⟨failed, id, by decide +kernel, by decide +kernel, by decide +kernel, by decide +kernel⟩

end GameLang.SourceError
