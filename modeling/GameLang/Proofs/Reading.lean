import GameLang.Proofs.Completeness.Program
import GameLang.Proofs.Soundness.Program

/-!
# What reading says about tokens and trees

A tree that is read has all tokens in front of the end, in order, and its operators are read by
precedence and from left to right, which is so in no other tree of these tokens. Conversely a tree
of the grammar is read back from its tokens, unless more levels are needed than may be opened.
-/

namespace GameLang

namespace Goal

variable {ts us rest : List Token} {goal : Goal} {tree : Tree}

/-- A tree that is read needs no more levels than may be opened. -/
theorem need_le_of_ok {levels : Nat} (read : goal.within levels ts = .ok tree rest) :
    tree.need ≤ levels := by
  obtain ⟨rfl, formed, ⟨us, rfl, written, -⟩, ended⟩ := within_ok read
  by_contra lacking
  obtain ⟨front, t, back, -, stopped⟩ := (within_accepts levels formed written ended).stop lacking
  rw [read] at stopped
  cases stopped

/-- Nothing is lost: the tokens in front of the first end are those of the tree, one for one and in
order, and the tokens from that end on are left. -/
theorem written_of_read (read : goal.read ts = (.ok tree, rest)) :
    tree.goal = goal ∧ tree.Formed ∧ Written tree.yield (ts.takeWhile (·.kind ≠ .eof)) ∧
      rest = ts.dropWhile (·.kind ≠ .eof) := by
  obtain ⟨same, formed, taken, ended⟩ := within_ok (Reader.run_ok_iff.mp read)
  exact ⟨same, formed, taken.takeWhile ended⟩

theorem written_of_read_negation :
    let minus : Token := ⟨.minus, "-", none, ⟨1, 1, 1⟩⟩
    let name : Token := ⟨.ident, "x", none, ⟨1, 2, 2⟩⟩
    let stop : Token := Token.ending ⟨1, 3⟩
    let tree : Tree := .expression (.unary .neg minus (.ident name))
    expression.read [minus, name, stop, name] = (.ok tree, [stop, name]) ∧
      Written tree.yield [minus, name] := by
  intro minus name stop tree
  have read : expression.read [minus, name, stop, name] = (.ok tree, [stop, name]) := rfl
  exact ⟨read, (written_of_read read).2.2.1⟩

/-- Every node of every expression that is read has the operator of its token and operands that bind
as tightly as they must, and no other tree of the grammar with these tokens is so. -/
theorem ordered_of_read (read : goal.read ts = (.ok tree, rest)) :
    (∀ e ∈ tree.nodesOfExprs, e.Ordered) ∧
      ∀ other : Tree, other.goal = goal → other.Shaped → (∀ e ∈ other.nodesOfExprs, e.Ordered) →
        Written other.yield (ts.takeWhile (·.kind ≠ .eof)) → other = tree := by
  obtain ⟨same, formed, taken, ended⟩ := within_ok (Reader.run_ok_iff.mp read)
  refine ⟨formed.2, fun other sameGoal shaped ordered written => ?_⟩
  exact Tree.eq_of_written (sameGoal.trans same.symm) formed ⟨shaped, ordered⟩
    (taken.takeWhile ended).1 written

theorem ordered_of_read_chain :
    let x : Token := ⟨.ident, "x", none, ⟨1, 1, 1⟩⟩
    let minus : Token := ⟨.minus, "-", none, ⟨1, 2, 2⟩⟩
    let times : Token := ⟨.star, "*", none, ⟨1, 4, 4⟩⟩
    let left : Expr := .binary (.ident x) .sub minus (.ident x)
    let tree : Tree := .expression (.binary left .sub minus (.binary (.ident x) .mul times (.ident x)))
    expression.read [x, minus, x, minus, x, times, x] = (.ok tree, []) ∧
      ∀ e ∈ tree.nodesOfExprs, e.Ordered := by
  intro x minus times left tree
  have read : expression.read [x, minus, x, minus, x, times, x] = (.ok tree, []) := rfl
  exact ⟨read, (ordered_of_read read).1⟩

/-- Every tree of the grammar is read back from its tokens in front of an end, if its need is within
the limit, and otherwise reading stops at one of its tokens for want of a level. The tokens are
those of no other tree of the grammar. -/
theorem read_of_written (formed : tree.Formed) (written : Written tree.yield us)
    (ended : (Reader.current rest).kind = .eof) :
    (tree.need ≤ nestingLimit → tree.goal.read (us ++ rest) = (.ok tree, rest)) ∧
      (nestingLimit < tree.need → ∃ front t back, us = front ++ t :: back ∧
        tree.goal.read (us ++ rest) = (.error ⟨.nestingTooDeep, t⟩, t :: back ++ rest)) ∧
      ∀ other : Tree, other.goal = tree.goal → other.Formed → Written other.yield us →
        other = tree := by
  have accepts := within_accepts nestingLimit formed written ended
  refine ⟨?_, ?_, ?_⟩
  · intro enough
    exact Reader.run_ok_iff.mpr (accepts.read enough)
  · intro lacking
    obtain ⟨front, t, back, split, stopped⟩ := accepts.stop (Nat.not_le.mpr lacking)
    refine ⟨front, t, back, split, ?_⟩
    unfold Goal.read Reader.run reader
    rw [stopped]
    rfl
  · intro other same formedOther writtenOther
    exact Tree.eq_of_written same formed formedOther written writtenOther

theorem read_of_written_group :
    let opener : Token := ⟨.leftParen, "(", none, ⟨1, 1, 1⟩⟩
    let name : Token := ⟨.ident, "x", none, ⟨1, 2, 2⟩⟩
    let closer : Token := ⟨.rightParen, ")", none, ⟨1, 3, 3⟩⟩
    let tree : Tree := .expression (.group (.ident name))
    tree.Formed ∧ Written tree.yield [opener, name, closer] ∧ tree.need ≤ nestingLimit ∧
      expression.read ([opener, name, closer] ++ [Token.ending ⟨1, 4⟩]) =
        (.ok tree, [Token.ending ⟨1, 4⟩]) := by
  intro opener name closer tree
  have formed : tree.Formed := Expr.formed_group.mpr (Expr.formed_ident.mpr rfl)
  have written : Written tree.yield [opener, name, closer] :=
    .cons rfl (.cons rfl (.cons rfl .nil))
  have enough : tree.need ≤ nestingLimit := by decide
  exact ⟨formed, written, enough, (read_of_written formed written rfl).1 enough⟩

end Goal

end GameLang
