import GameLang.Proofs.Lookahead.Reader
import GameLang.Proofs.Reading

/-!
# Nothing behind the token where reading stops counts

Reading stops at a token: the one at fault, or an end. Tokens that agree with others up to and
including that one are read alike (`Goal.read_of_take_eq`).
-/

namespace GameLang

/-- The same tokens and the same causes. -/
def Likeness.same : Likeness where
  token := Eq
  cause := Eq
  quits _ := False
  token_refl _ := rfl
  kind_eq := by rintro t _ rfl; rfl
  cause_refl _ := rfl
  cause_word := by rintro t _ k place rfl; rfl
  literal := by
    rintro t _ rfl -
    exact .inl rfl

theorem Beside.of_append (front : List Token) (t : Token) (back more : List Token) :
    Beside .same (front ++ t :: back) (front ++ t :: more) (t :: back) (t :: more) := by
  induction front with
  | nil => exact .stop rfl
  | cons u front ih => exact .step rfl ih

/-- Lists that agree up to and including an index are the same up to there. -/
theorem exists_append_of_take_eq {α : Type} {a b : List α} {n : Nat} (inside : n < a.length)
    (agree : b.take (n + 1) = a.take (n + 1)) :
    ∃ more, b = a.take n ++ a[n] :: more ∧ b.drop n = a[n] :: more := by
  have split : b = a.take n ++ a[n] :: b.drop (n + 1) := by
    have whole := List.take_append_drop (n + 1) b
    rw [agree, List.take_succ_eq_append_getElem inside, List.append_assoc] at whole
    exact whole.symm
  have length : (a.take n).length = n := List.length_take_of_le (Nat.le_of_lt inside)
  refine ⟨b.drop (n + 1), split, ?_⟩
  have left := congrArg (List.drop n) split
  rwa [List.drop_left' length] at left

namespace Goal

variable {goal : Goal} {levels : Nat} {front back : List Token} {t : Token}

/-- What stands behind a token at fault is not looked at. -/
theorem within_append_of_fail {cause : Cause}
    (failed : goal.within levels (front ++ t :: back) = .fail cause (t :: back))
    (more : List Token) :
    goal.within levels (front ++ t :: more) = .fail cause (t :: more) := by
  have mirrors : Local Likeness.same (goal.within levels) := goal.within_local levels
  have agree := mirrors.agree (.of_append front t back more) (congrArg Outcome.rest failed)
  rw [failed] at agree
  cases again : goal.within levels (front ++ t :: more) with
  | ok tree rest =>
    rw [again] at agree
    exact agree.elim
  | fail other rest =>
    rw [again] at agree
    obtain ⟨same, rfl⟩ | never := agree
    · rw [same]
    · exact never.elim

/-- What stands behind the end of a tree is not looked at. -/
theorem within_append_of_ok {tree : Tree}
    (read : goal.within levels (front ++ t :: back) = .ok tree (t :: back)) (more : List Token) :
    t.kind = .eof ∧ goal.within levels (front ++ t :: more) = .ok tree (t :: more) := by
  have enough := need_le_of_ok read
  obtain ⟨rfl, formed, ⟨us, split, written, -⟩, ended⟩ := within_ok read
  obtain rfl := List.append_cancel_right split
  have endedToo : (Reader.current (t :: more)).kind = .eof := ended
  exact ⟨ended, (within_accepts levels formed written endedToo).read enough⟩

/-- Reading stops at a token, if any is left: the one at fault or an end. What follows it does not
count: with the same tokens up to and including that one, the tree or the error is the same, after the
same number of tokens. -/
theorem read_of_take_eq {a b : List Token} {n : Nat} {result : Except SyntaxError Tree}
    (read : goal.read a = (result, a.drop n)) (inside : n < a.length)
    (agree : b.take (n + 1) = a.take (n + 1)) :
    goal.read b = (result, b.drop n) ∧ (∀ e, result = .error e → e.token = a[n]) ∧
      ∀ tree, result = .ok tree → a[n].kind = .eof := by
  obtain ⟨more, split, left⟩ := exists_append_of_take_eq inside agree
  have behind : a.drop n = a[n] :: a.drop (n + 1) := (List.getElem_cons_drop inside).symm
  have whole : a.take n ++ a[n] :: a.drop (n + 1) = a := by rw [← behind, List.take_append_drop]
  have stopped : goal.within nestingLimit (a.take n ++ a[n] :: a.drop (n + 1)) = goal.reader a := by
    rw [whole, reader]
  rw [behind] at read
  rw [left]
  cases result with
  | error e =>
    obtain ⟨cause, failed, rfl⟩ := Reader.run_error_iff.mp read
    have again := within_append_of_fail (stopped.trans failed) more
    rw [← split] at again
    refine ⟨Reader.run_error_iff.mpr ⟨cause, again, rfl⟩, ?_, ?_⟩
    · intro e same
      cases same
      rfl
    · intro tree absent
      cases absent
  | ok tree =>
    have accepted := Reader.run_ok_iff.mp read
    obtain ⟨ended, again⟩ := within_append_of_ok (stopped.trans accepted) more
    rw [← split] at again
    refine ⟨Reader.run_ok_iff.mpr again, ?_, fun _ _ => ended⟩
    intro e absent
    cases absent

theorem read_of_take_eq_operand :
    let one : Token := ⟨.intLiteral, "1", some (.int 1), ⟨1, 1, 1⟩⟩
    let plus : Token := ⟨.plus, "+", none, ⟨1, 3, 3⟩⟩
    let closer : Token := ⟨.rightParen, ")", none, ⟨1, 5, 5⟩⟩
    let a := [one, plus, closer, Token.ending ⟨1, 6⟩]
    let b := [one, plus, closer, one, closer]
    let e : SyntaxError := ⟨.missingExpression, closer⟩
    expression.read a = (.error e, a.drop 2) ∧ 2 < a.length ∧ b.take 3 = a.take 3 ∧
      expression.read b = (.error e, b.drop 2) := by
  intro one plus closer a b e
  have read : expression.read a = (.error e, a.drop 2) := rfl
  have inside : 2 < a.length := by decide
  have agree : b.take 3 = a.take 3 := rfl
  exact ⟨read, inside, agree, (read_of_take_eq read inside agree).1⟩

end Goal

end GameLang
