import GameLang.Proofs.Completeness.Program
import GameLang.Proofs.Lexing.Shape
import GameLang.Proofs.Lookahead.Reader
import GameLang.Proofs.Viability.Program

/-!
# Syntax errors are found as early as can be

The tokens in front of the one at fault can be completed to a tree, and with the one at fault they
cannot, whatever the number of levels (`Goal.read_error_earliest`).
-/

namespace GameLang

/-! ### Tokens of the same kinds -/

/-- Tokens of the same kinds. Where a literal of the second reading has a value, that of the first has
one; the second may give up at one without. -/
def Likeness.kinds : Likeness where
  token t u := u.kind = t.kind ∧
    (t.kind.isLiteral = true → u.literal.isSome = true → t.literal.isSome = true)
  cause c d := d = .nestingTooDeep → c = .nestingTooDeep
  quits d := d = .missingValue
  token_refl _ := ⟨rfl, fun _ => id⟩
  kind_eq alike := alike.1
  cause_refl _ := id
  cause_word := by
    intro t u k place alike same
    cases same
  literal := by
    intro t u alike isLiteral
    cases value : u.literal with
    | none => exact .inr ⟨rfl, rfl⟩
    | some v => exact .inl (alike.2 isLiteral (by rw [value]; rfl)).symm

theorem Beside.of_kinds {front us : List Token} {t : Token} (back : List Token)
    (valued : ∀ v ∈ front ++ [t], v.kind.isLiteral = true → v.literal.isSome = true)
    (same : (front ++ [t]).map Token.kind <+: us.map Token.kind) :
    ∃ others, Beside .kinds (front ++ t :: back) us (t :: back) others := by
  induction front generalizing us with
  | nil =>
    obtain ⟨more, split⟩ := same
    obtain ⟨u, us, rfl, kind, -⟩ := List.map_eq_cons_iff.mp split.symm
    have valued := valued t (List.mem_singleton_self t)
    exact ⟨u :: us, .stop ⟨kind, fun isLiteral _ => valued isLiteral⟩⟩
  | cons v front ih =>
    obtain ⟨more, split⟩ := same
    obtain ⟨u, us, rfl, kind, rest⟩ := List.map_eq_cons_iff.mp split.symm
    obtain ⟨first, valued⟩ := List.forall_mem_cons.mp valued
    obtain ⟨others, beside⟩ := ih valued ⟨more, rest.symm⟩
    exact ⟨others, .step ⟨kind, fun isLiteral _ => first isLiteral⟩ beside⟩

/-! ### Errors -/

/-- A message starts with what its cause says. -/
theorem SyntaxError.prefix_reason (cause : Cause) (t : Token) :
    cause.shown.toList <+: (SyntaxError.mk cause t).reason.toList := by
  unfold reason
  rw [String.toList_append, String.toList_append, List.append_assoc]
  exact List.prefix_append _ _

namespace Goal

variable {ts us rest left : List Token} {goal : Goal} {tree : Tree} {cause : Cause}

/-- Tokens that are accepted with some number of levels, with or without a token that ends them, are
accepted with every other number of levels or stopped for want of one. -/
theorem within_of_accepted {levels : Nat} (accepted : goal.within levels us = .ok tree left)
    (others : Nat) (p : Position) :
    goal.within others (us ++ [Token.ending p]) = .ok tree (left ++ [Token.ending p]) ∨
      ∃ stopped, goal.within others (us ++ [Token.ending p]) = .fail .nestingTooDeep stopped := by
  obtain ⟨rfl, formed, ⟨ws, rfl, written, -⟩, ended⟩ := within_ok accepted
  have endedToo : (Reader.current (left ++ [Token.ending p])).kind = .eof := by
    cases left with
    | nil => rfl
    | cons => exact ended
  have accepts := within_accepts others formed written endedToo
  rw [List.append_assoc]
  by_cases enough : tree.need ≤ others
  · exact .inl (accepts.read enough)
  · obtain ⟨_, _, _, -, stopped⟩ := accepts.stop enough
    exact .inr ⟨_, stopped⟩

/-- Where reading stops for another cause than nesting, no tokens of the same kinds up to there are
accepted, with any number of levels. -/
theorem not_accepted_of_fail {levels others : Nat} {front back : List Token} {t : Token}
    (failed : goal.within levels (front ++ t :: back) = .fail cause (t :: back))
    (different : cause ≠ .nestingTooDeep)
    (valued : ∀ v ∈ front ++ [t], v.kind.isLiteral = true → v.literal.isSome = true)
    (same : (front ++ [t]).map Token.kind <+: (us ++ [Token.ending .start]).map Token.kind) :
    goal.within others us ≠ .ok tree left := by
  intro accepted
  obtain ⟨more, beside⟩ := Beside.of_kinds back valued same
  have agree := (goal.within_local levels).agree beside (congrArg Outcome.rest failed)
  rw [failed] at agree
  rcases within_of_accepted accepted levels .start with again | ⟨stopped, again⟩
  · rw [again] at agree
    exact agree
  · rw [again] at agree
    rcases agree with ⟨tooDeep, -⟩ | quits
    · exact different (tooDeep rfl)
    · cases quits

/-- What stands in front of a token at fault can be completed. -/
theorem exists_accepted_of_fail {levels : Nat} {front : List Token}
    (failed : goal.within levels (front ++ rest) = .fail cause rest) :
    ∃ more needed tree, goal.within needed (front ++ more) = .ok tree [] := by
  obtain ⟨tree, rfl, formed, begun, split, more, written⟩ := within_fail failed
  obtain rfl := List.append_cancel_right split
  have ended : (Reader.current []).kind = .eof := rfl
  have read := (within_accepts tree.need formed written ended).read (Nat.le_refl _)
  rw [List.append_nil] at read
  exact ⟨more, tree.need, tree, read⟩

/-- A token at fault for another cause than nesting is the earliest with which the tokens cannot be
completed any more. In front of it they can, and with tokens of the same kinds up to it, an end
included, nothing is accepted, however many levels may be opened. -/
theorem read_error_earliest {source : String} {e : SyntaxError} (lexed : tokens source = .ok ts)
    (failed : goal.read ts = (.error e, rest))
    (other : ¬ "Nesting too deep".toList <+: e.reason.toList) :
    ∃ front t back, ts = front ++ t :: back ∧ rest = t :: back ∧ e.token = t ∧
      (∃ more levels tree left, goal.within levels (front ++ more) = .ok tree left) ∧
      ∀ us levels tree left,
        (front ++ [t]).map Token.kind <+: (us ++ [Token.ending .start]).map Token.kind →
        goal.within levels us ≠ .ok tree left := by
  obtain ⟨cause, stopped, rfl⟩ := Reader.run_error_iff.mp failed
  have different : cause ≠ .nestingTooDeep := by
    rintro rfl
    exact other (SyntaxError.prefix_reason .nestingTooDeep _)
  obtain ⟨us, q, split, words⟩ := (tokens_eq_ok_iff.mp lexed).exists_words
  have valued : ∀ v ∈ ts, v.kind.isLiteral = true → v.literal.isSome = true := by
    rw [split]
    refine List.forall_mem_append.mpr ⟨fun v member isLiteral => ?_, ?_⟩
    · exact (words v member).isSome_eq_isLiteral.trans isLiteral
    · simp [Token.ending, Kind.isLiteral]
  -- Reading does not pass the end, so that it stopped at a token.
  have mirrors : Local Likeness.kinds (goal.within nestingLimit) := goal.within_local nestingLimit
  have passes := mirrors.passes ts
  rw [show goal.within nestingLimit ts = .fail cause rest from stopped] at passes
  have ended : Token.ending q ∈ ts := by simp [split]
  obtain ⟨front, t, back, rfl, left⟩ := passes.exists_cons ended rfl
  obtain rfl : rest = t :: back := left
  refine ⟨front, t, back, rfl, rfl, rfl, ?_, ?_⟩
  · obtain ⟨more, levels, tree, read⟩ := exists_accepted_of_fail stopped
    exact ⟨more, levels, tree, [], read⟩
  · intro us levels tree left same
    refine not_accepted_of_fail stopped different (fun v member => valued v ?_) same
    simpa [or_assoc] using List.mem_append_left back member

theorem read_error_earliest_operand :
    let one : Token := ⟨.intLiteral, "1", some (.int 1), ⟨1, 1, 1⟩⟩
    let plus : Token := ⟨.plus, "+", none, ⟨1, 3, 3⟩⟩
    let semicolon : Token := ⟨.semicolon, ";", none, ⟨1, 5, 5⟩⟩
    let stop : Token := Token.ending ⟨1, 6⟩
    let e : SyntaxError := ⟨.missingExpression, semicolon⟩
    tokens "1 + ;" = .ok [one, plus, semicolon, stop] ∧
      expression.read [one, plus, semicolon, stop] = (.error e, [semicolon, stop]) ∧
      ¬ "Nesting too deep".toList <+: e.reason.toList ∧
      (∃ more levels tree left, expression.within levels ([one, plus] ++ more) = .ok tree left) ∧
      ∀ us levels tree left,
        [Kind.intLiteral, .plus, .semicolon] <+: (us ++ [Token.ending .start]).map Token.kind →
        expression.within levels us ≠ .ok tree left := by
  intro one plus semicolon stop e
  have lexed : tokens "1 + ;" = .ok [one, plus, semicolon, stop] := by decide +kernel
  have failed : expression.read [one, plus, semicolon, stop] = (.error e, [semicolon, stop]) := rfl
  have other : ¬ "Nesting too deep".toList <+: e.reason.toList := by decide +kernel
  obtain ⟨front, t, back, split, same, -, completed, never⟩ :=
    read_error_earliest lexed failed other
  obtain ⟨rfl, rfl⟩ := List.cons.inj same
  obtain rfl : [one, plus] = front := List.append_cancel_right split
  exact ⟨lexed, failed, other, completed, never⟩

end Goal

end GameLang
