import GameLang.Proofs.Soundness.Basic
import GameLang.Reader.Expr

/-!
# What the readers of expressions take

An expression that was read is one of the grammar and is written by the tokens that were taken
(`expression_reads`). The readers of the levels share one loop, so the statement is about a level:
what `chain` reads has no operator outside of its operands that is looser than the level.
-/

namespace GameLang

namespace Reader

variable {ts rest : List Token} {e : Expr}

/-- What a reader gives is an expression of the grammar with operators from a level on, written by
the tokens taken. -/
def ReadsFrom (level : Nat) (r : Reader Expr) : Prop :=
  ∀ ts e rest, r ts = .ok e rest → e.Formed ∧ e.BindsFrom level ∧ Taken ts e.yield rest

theorem tooDeep_readsFrom (level : Nat) : ReadsFrom level tooDeep := fun _ _ _ h => (fail_ok h).elim

/-! ### Operands -/

theorem literal_ok (isLiteral : (current ts).kind.isLiteral = true)
    (h : (literal : Reader _) ts = .ok e rest) :
    e.Formed ∧ e.operator? = none ∧ Taken ts e.yield rest := by
  unfold literal at h
  obtain ⟨t, _, peeked, h⟩ := bind_ok h
  obtain ⟨rfl, rfl⟩ := peek_ok peeked
  have more : (current ts).kind ≠ .eof := by
    intro same
    rw [same] at isLiteral
    cases isLiteral
  cases found : (current ts).literal with
  | some value =>
    rw [found] at h
    obtain ⟨t, _, advanced, h⟩ := bind_ok h
    obtain ⟨rfl, rfl⟩ := pure_ok h
    obtain ⟨rfl, taken⟩ := advance_ok advanced more
    exact ⟨Expr.formed_literal.mpr ⟨isLiteral, found⟩, rfl, taken⟩
  | none =>
    rw [found] at h
    exact (fail_ok h).elim

variable {expr : Reader Expr}

theorem nextArgument_rounds (reads : ReadsFrom 0 expr) :
    Rounds (nextArgument expr) Expr.Formed fun e => .kind .comma :: e.yield := by
  intro ts o rest h
  unfold nextArgument at h
  rcases accept_bind_ok h (by decide) with ⟨_, _, comma, h⟩ | ⟨-, h⟩
  · obtain ⟨arg, _, read, h⟩ := bind_ok h
    obtain ⟨rfl, rfl⟩ := pure_ok h
    obtain ⟨formed, -, taken⟩ := reads _ _ _ read
    exact .inl ⟨arg, rfl, formed, comma.trans taken⟩
  · exact .inr (pure_ok h)

theorem arguments_ok {args : List Expr} (reads : ReadsFrom 0 expr)
    (h : arguments expr ts = .ok args rest) :
    (∀ e ∈ args, e.Formed) ∧ Taken ts (Expr.argYield args) rest := by
  unfold arguments at h
  obtain ⟨kind, _, peeked, h⟩ := bind_ok h
  obtain ⟨rfl, rfl⟩ := peekKind_ok peeked
  split at h
  · obtain ⟨rfl, rfl⟩ := pure_ok h
    exact ⟨by simp, .nothing _⟩
  · obtain ⟨first, _, read, h⟩ := bind_ok h
    obtain ⟨others, _, looped, h⟩ := bind_ok h
    obtain ⟨rfl, rfl⟩ := pure_ok h
    obtain ⟨formed, -, taken⟩ := reads _ _ _ read
    obtain ⟨formedOthers, takenOthers⟩ := many_ok (nextArgument_rounds reads) looped
    rw [Expr.argYield, Expr.nextArgYield_eq_flatMap]
    exact ⟨List.forall_mem_cons.mpr ⟨formed, formedOthers⟩, taken.trans takenOthers⟩

/-- A call after its callee. The callee is looked at by whoever read it. -/
theorem callOf_ok {callee : Token} (reads : ReadsFrom 0 expr)
    (h : callOf expr callee ts = .ok e rest) :
    ∃ args, e = .call callee args ∧ (∀ arg ∈ args, arg.Formed) ∧
      Taken ts (.kind .leftParen :: (Expr.argYield args ++ [.kind .rightParen])) rest := by
  unfold callOf at h
  obtain ⟨_, _, opened, h⟩ := bind_ok h
  obtain ⟨args, _, read, h⟩ := bind_ok h
  obtain ⟨_, _, closed, h⟩ := bind_ok h
  obtain ⟨rfl, rfl⟩ := pure_ok h
  obtain ⟨formed, taken⟩ := arguments_ok reads read
  exact ⟨args, rfl, formed,
    (expect_taken opened (by decide)).trans (taken.trans (expect_taken closed (by decide)))⟩

theorem nextIndex_rounds (reads : ReadsFrom 0 expr) :
    Rounds (nextIndex expr) Expr.Formed
      fun e => .kind .leftBracket :: (e.yield ++ [.kind .rightBracket]) := by
  intro ts o rest h
  unfold nextIndex at h
  rcases accept_bind_ok h (by decide) with ⟨_, _, opened, h⟩ | ⟨-, h⟩
  · obtain ⟨index, _, read, h⟩ := bind_ok h
    obtain ⟨_, _, closed, h⟩ := bind_ok h
    obtain ⟨rfl, rfl⟩ := pure_ok h
    obtain ⟨formed, -, taken⟩ := reads _ _ _ read
    exact .inl ⟨index, rfl, formed, opened.trans (taken.trans (expect_taken closed (by decide)))⟩
  · exact .inr (pure_ok h)

/-- Where an opening bracket is next there is at least one index. -/
theorem indexOf_ok {name : Token} (reads : ReadsFrom 0 expr)
    (next : (current ts).kind = .leftBracket) (h : indexOf expr name ts = .ok e rest) :
    ∃ indices, e = .index name indices ∧ indices ≠ [] ∧ (∀ index ∈ indices, index.Formed) ∧
      Taken ts (Expr.indexYield indices) rest := by
  unfold indexOf at h
  obtain ⟨indices, _, looped, h⟩ := bind_ok h
  obtain ⟨rfl, rfl⟩ := pure_ok h
  obtain ⟨formed, taken⟩ := many_ok (nextIndex_rounds reads) looped
  rw [← Expr.indexYield_eq_flatMap] at taken
  refine ⟨indices, rfl, ?_, formed, taken⟩
  -- Without an index the loop stopped at the bracket, where a round takes it.
  rintro rfl
  rcases many_ok_nil (nextIndex_rounds reads) looped with rfl | stopped
  · cases next
  · unfold nextIndex at stopped
    rcases accept_bind_ok stopped (by decide) with ⟨_, _, _, stopped⟩ | ⟨different, _⟩
    · obtain ⟨_, _, _, stopped⟩ := bind_ok stopped
      obtain ⟨_, _, _, stopped⟩ := bind_ok stopped
      cases (pure_ok stopped).1
    · exact different next

theorem nameUse_ok (reads : ReadsFrom 0 expr) (next : (current ts).kind = .ident)
    (h : nameUse expr ts = .ok e rest) : e.Formed ∧ e.operator? = none ∧ Taken ts e.yield rest := by
  unfold nameUse at h
  obtain ⟨name, _, advanced, h⟩ := bind_ok h
  obtain ⟨rfl, named⟩ := advance_ok advanced (by rw [next]; decide)
  obtain ⟨kind, _, peeked, h⟩ := bind_ok h
  obtain ⟨rfl, rfl⟩ := peekKind_ok peeked
  split at h
  · obtain ⟨args, rfl, formed, taken⟩ := callOf_ok reads h
    exact ⟨Expr.formed_call.mpr ⟨next, formed⟩, rfl, named.trans taken⟩
  · split at h
    · rename_i bracket
      obtain ⟨indices, rfl, some, formed, taken⟩ := indexOf_ok reads bracket h
      exact ⟨Expr.formed_index.mpr ⟨next, some, formed⟩, rfl, named.trans taken⟩
    · obtain ⟨rfl, rfl⟩ := pure_ok h
      exact ⟨Expr.formed_ident.mpr next, rfl, named⟩

theorem group_ok (reads : ReadsFrom 0 expr) (next : (current ts).kind = .leftParen)
    (h : group expr ts = .ok e rest) : e.Formed ∧ e.operator? = none ∧ Taken ts e.yield rest := by
  unfold group at h
  obtain ⟨_, _, advanced, h⟩ := bind_ok h
  obtain ⟨rfl, opened⟩ := advance_ok advanced (by rw [next]; decide)
  obtain ⟨inner, _, read, h⟩ := bind_ok h
  obtain ⟨_, _, closed, h⟩ := bind_ok h
  obtain ⟨rfl, rfl⟩ := pure_ok h
  obtain ⟨formed, -, taken⟩ := reads _ _ _ read
  exact ⟨Expr.formed_group.mpr formed, rfl,
    (opened.drop next).trans (taken.trans (expect_taken closed (by decide)))⟩

theorem primary_ok (reads : ReadsFrom 0 expr) (h : primary expr ts = .ok e rest) :
    e.Formed ∧ e.operator? = none ∧ Taken ts e.yield rest := by
  unfold primary at h
  obtain ⟨kind, _, peeked, h⟩ := bind_ok h
  obtain ⟨rfl, rfl⟩ := peekKind_ok peeked
  split at h
  · rename_i isLiteral
    exact literal_ok isLiteral h
  · split at h
    · rename_i next
      exact nameUse_ok reads next h
    · split at h
      · rename_i next
        exact group_ok reads next h
      · exact (fail_ok h).elim

/-- The two operators in front of an operand, each written by a kind of its own. -/
theorem ofKind?_unary {k : Kind} {op : UnOp} (h : UnOp.ofKind? k = some op) :
    (k = .minus ∧ op = .neg ∨ k = .bang ∧ op = .not) ∧ k ≠ .eof := by
  unfold UnOp.ofKind? at h
  split at h
  · cases h
    exact ⟨.inl ⟨rfl, rfl⟩, by decide⟩
  · cases h
    exact ⟨.inr ⟨rfl, rfl⟩, by decide⟩
  · cases h

theorem operandWith_readsFrom {operand : Reader Expr} (readsOperand : ReadsFrom 6 operand)
    (reads : ReadsFrom 0 expr) : ReadsFrom 6 (operandWith operand expr) := by
  intro ts e rest h
  unfold operandWith at h
  obtain ⟨kind, _, peeked, h⟩ := bind_ok h
  obtain ⟨rfl, rfl⟩ := peekKind_ok peeked
  cases found : UnOp.ofKind? (current ts).kind with
  | some op =>
    rw [found] at h
    obtain ⟨written, more⟩ := ofKind?_unary found
    obtain ⟨t, _, advanced, h⟩ := bind_ok h
    obtain ⟨inner, _, read, h⟩ := bind_ok h
    obtain ⟨rfl, rfl⟩ := pure_ok h
    obtain ⟨rfl, taken⟩ := advance_ok advanced more
    obtain ⟨formed, binds, inside⟩ := readsOperand _ _ _ read
    exact ⟨Expr.formed_unary.mpr
      ⟨⟨written, Expr.operator?_eq_none_of_bindsFrom binds⟩, formed⟩,
      Expr.bindsFrom_of_none 6 rfl, taken.trans inside⟩
  | none =>
    rw [found] at h
    obtain ⟨formed, alone, taken⟩ := primary_ok reads h
    exact ⟨formed, Expr.bindsFrom_of_none 6 alone, taken⟩

/-! ### Chains -/

theorem ofKind?_binary_ne_eof {k : Kind} {op : BinOp} (h : BinOp.ofKind? k = some op) :
    k ≠ .eof := by
  rintro rfl
  cases h

theorem nextOperand_rounds {level : Precedence} {operand : Reader Expr}
    (reads : ReadsFrom (level.rank + 1) operand) :
    Rounds (nextOperand level operand) (Expr.GoodLink level) Expr.linkYield := by
  intro ts o rest h
  unfold nextOperand at h
  obtain ⟨kind, _, peeked, h⟩ := bind_ok h
  obtain ⟨rfl, rfl⟩ := peekKind_ok peeked
  cases found : BinOp.ofKind? (current ts).kind with
  | some op =>
    rw [found] at h
    dsimp only at h
    split at h
    · rename_i same
      obtain ⟨t, _, advanced, h⟩ := bind_ok h
      obtain ⟨right, _, read, h⟩ := bind_ok h
      obtain ⟨rfl, rfl⟩ := pure_ok h
      obtain ⟨rfl, taken⟩ := advance_ok advanced (ofKind?_binary_ne_eof found)
      obtain ⟨formed, binds, inside⟩ := reads _ _ _ read
      exact .inl ⟨(op, current ts, right), rfl, ⟨same, found, formed, binds⟩, taken.trans inside⟩
    · exact .inr (pure_ok h)
  | none =>
    rw [found] at h
    exact .inr (pure_ok h)

theorem chain_readsFrom (level : Precedence) {operand : Reader Expr}
    (reads : ReadsFrom (level.rank + 1) operand) : ReadsFrom level.rank (chain level operand) := by
  intro ts e rest h
  unfold chain at h
  obtain ⟨first, _, read, h⟩ := bind_ok h
  obtain ⟨links, _, looped, h⟩ := bind_ok h
  obtain ⟨same, rfl⟩ := pure_ok h
  obtain rfl : e = links.foldl Expr.join first := same
  obtain ⟨formed, binds, taken⟩ := reads _ _ _ read
  obtain ⟨good, takenLinks⟩ := many_ok (nextOperand_rounds reads) looped
  obtain ⟨formedAll, bindsAll⟩ :=
    Expr.formed_foldl_join formed (binds.mono (Nat.le_succ _)) good
  rw [Expr.yield_foldl_join]
  exact ⟨formedAll, bindsAll, taken.trans takenLinks⟩

/-- The levels hand on to one another, from operands to the loosest operators. -/
theorem chains_induction {P : Nat → Reader Expr → Prop} {operand : Reader Expr}
    (step : ∀ (level : Precedence) (r : Reader Expr), ReadsFrom (level.rank + 1) r →
      P (level.rank + 1) r → P level.rank (chain level r))
    (reads : ReadsFrom 6 operand) (tightest : P 6 operand) : P 0 (chains operand) := by
  have readsProduct : ReadsFrom 5 (chain .product operand) := chain_readsFrom .product reads
  have readsSum : ReadsFrom 4 (chain .sum (chain .product operand)) :=
    chain_readsFrom .sum readsProduct
  have readsComparison := chain_readsFrom .comparison readsSum
  have readsEquality := chain_readsFrom .equality readsComparison
  have readsConjunction := chain_readsFrom .conjunction readsEquality
  have product : P 5 (chain .product operand) := step .product _ reads tightest
  have sum : P 4 (chain .sum (chain .product operand)) := step .sum _ readsProduct product
  have comparison := step .comparison _ readsSum sum
  have equality := step .equality _ readsComparison comparison
  have conjunction := step .conjunction _ readsEquality equality
  exact step .disjunction _ readsConjunction conjunction

theorem chains_readsFrom {operand : Reader Expr} (reads : ReadsFrom 6 operand) :
    ReadsFrom 0 (chains operand) :=
  chains_induction (fun level _ reads _ => chain_readsFrom level reads) reads reads

/-! ### All levels of nesting -/

theorem operand_readsFrom (levels : Nat) : ReadsFrom 6 (operand levels) := by
  induction levels with
  | zero => exact operandWith_readsFrom (tooDeep_readsFrom 6) (tooDeep_readsFrom 0)
  | succ levels ih => exact operandWith_readsFrom ih (chains_readsFrom ih)

/-- An expression that is read is one of the grammar, written by the tokens taken. -/
theorem expression_reads (levels : Nat) : ReadsFrom 0 (expression levels) := by
  cases levels with
  | zero => exact tooDeep_readsFrom 0
  | succ levels => exact chains_readsFrom (operand_readsFrom levels)

end Reader

end GameLang
