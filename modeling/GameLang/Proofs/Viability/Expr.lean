import GameLang.Proofs.Soundness.Expr
import GameLang.Proofs.Viability.Basic

/-!
# Expressions that can still be completed

Where a reader of expressions fails, the tokens in front have begun an expression of the grammar
(`expression_completes`). As in reading, the readers of the levels share one loop: what `chain` has
begun has no operator outside of its operands that is looser than the level.
-/

namespace GameLang

/-- An expression that completes what needs one. -/
def Expr.someName : Expr := .ident (.ofKind .ident)

theorem Expr.formed_someName : someName.Formed := formed_ident.mpr rfl

namespace Reader

variable {ts rest : List Token} {cause : Cause} {expr : Reader Expr}

/-- Where a reader fails, it has begun an expression of the grammar with operators from a level on. -/
def CompletesFrom (level : Nat) (r : Reader Expr) : Prop :=
  Completes r (fun e => e.Formed ∧ e.BindsFrom level) Expr.yield

theorem tooDeep_completesFrom (level : Nat) : CompletesFrom level tooDeep := by
  intro ts cause rest h
  cases h
  exact ⟨.someName, ⟨Expr.formed_someName, Expr.bindsFrom_of_none level rfl⟩, .nothing ts _⟩

theorem CompletesFrom.formed (completes : CompletesFrom 0 expr) :
    Completes expr Expr.Formed Expr.yield := by
  intro ts cause rest h
  obtain ⟨e, ⟨formed, -⟩, short⟩ := completes _ _ _ h
  exact ⟨e, formed, short⟩

/-! ### Operands -/

theorem literal_fail (h : (literal : Reader _) ts = .fail cause rest) : rest = ts := by
  unfold literal at h
  rcases bind_fail h with stopped | ⟨t, mid, peeked, went⟩
  · cases stopped
  · obtain ⟨rfl, rfl⟩ := peek_ok peeked
    cases found : (current ts).literal with
    | some value =>
      rw [found] at went
      exact (advance_ne_fail (map_fail went)).elim
    | none =>
      rw [found] at went
      cases went
      rfl

theorem nextArgument_completes (completes : CompletesFrom 0 expr) :
    Completes (nextArgument expr) Expr.Formed fun e => .kind .comma :: e.yield := by
  intro ts cause rest h
  unfold nextArgument at h
  rcases accept_bind_fail (by decide) h with ⟨_, _, comma, went⟩ | went
  · obtain ⟨arg, formed, short⟩ := completes.formed _ _ _ (map_fail went)
    exact ⟨arg, formed, comma.short short⟩
  · cases went

theorem arguments_completes (reads : ReadsFrom 0 expr) (completes : CompletesFrom 0 expr) :
    Completes (arguments expr) (fun args => ∀ e ∈ args, e.Formed) Expr.argYield := by
  intro ts cause rest h
  unfold arguments at h
  have went := peekKind_bind_fail h
  split at went
  · cases went
  rcases bind_fail went with stopped | ⟨first, _, read, went⟩
  · obtain ⟨first, formed, short⟩ := completes.formed _ _ _ stopped
    exact ⟨[first], List.forall_mem_singleton.mpr formed, short.append []⟩
  · obtain ⟨formed, -, taken⟩ := reads _ _ _ read
    obtain ⟨others, -, formedOthers, short⟩ :=
      many_fail (nextArgument_rounds reads) (nextArgument_completes completes) (map_fail went)
    refine ⟨first :: others, List.forall_mem_cons.mpr ⟨formed, formedOthers⟩, ?_⟩
    rw [Expr.argYield, Expr.nextArgYield_eq_flatMap]
    exact taken.short short

/-- A call after its callee. -/
theorem callOf_fail {callee : Token} (reads : ReadsFrom 0 expr) (completes : CompletesFrom 0 expr)
    (h : callOf expr callee ts = .fail cause rest) :
    ∃ args : List Expr, (∀ arg ∈ args, arg.Formed) ∧
      Short ts (.kind .leftParen :: (Expr.argYield args ++ [.kind .rightParen])) rest := by
  unfold callOf at h
  rcases expect_bind_fail (by decide) h with rfl | ⟨_, _, same, opened, went⟩
  · exact ⟨[], by simp, .nothing _ _⟩
  rcases bind_fail went with stopped | ⟨args, _, read, went⟩
  · obtain ⟨args, formed, short⟩ := arguments_completes reads completes _ _ _ stopped
    exact ⟨args, formed, (opened.drop same).short (short.append _)⟩
  · obtain ⟨formed, taken⟩ := arguments_ok reads read
    rcases expect_bind_fail (by decide) went with rfl | ⟨_, _, _, _, went⟩
    · exact ⟨args, formed, (opened.drop same).short (taken.stop _)⟩
    · cases went

theorem nextIndex_completes (reads : ReadsFrom 0 expr) (completes : CompletesFrom 0 expr) :
    Completes (nextIndex expr) Expr.Formed
      fun e => .kind .leftBracket :: (e.yield ++ [.kind .rightBracket]) := by
  intro ts cause rest h
  unfold nextIndex at h
  rcases accept_bind_fail (by decide) h with ⟨_, _, opened, went⟩ | went
  · rcases bind_fail went with stopped | ⟨index, _, read, went⟩
    · obtain ⟨index, formed, short⟩ := completes.formed _ _ _ stopped
      exact ⟨index, formed, opened.short (short.append _)⟩
    · obtain ⟨formed, -, taken⟩ := reads _ _ _ read
      rcases expect_bind_fail (by decide) went with rfl | ⟨_, _, _, _, went⟩
      · exact ⟨index, formed, opened.short (taken.stop _)⟩
      · cases went
  · cases went

theorem indexOf_fail {name : Token} (reads : ReadsFrom 0 expr) (completes : CompletesFrom 0 expr)
    (h : indexOf expr name ts = .fail cause rest) :
    ∃ indices : List Expr, indices ≠ [] ∧ (∀ index ∈ indices, index.Formed) ∧
      Short ts (Expr.indexYield indices) rest := by
  obtain ⟨indices, some, formed, short⟩ :=
    many_fail (nextIndex_rounds reads) (nextIndex_completes reads completes) (map_fail h)
  rw [← Expr.indexYield_eq_flatMap] at short
  exact ⟨indices, some, formed, short⟩

/-- A list of tokens has begun an expression that is no chain of operators. -/
def BeginsOperand (ts rest : List Token) : Prop :=
  ∃ e : Expr, e.Formed ∧ e.operator? = none ∧ Short ts e.yield rest

theorem beginsOperand_refl (ts : List Token) : BeginsOperand ts ts :=
  ⟨.someName, Expr.formed_someName, rfl, .nothing ts _⟩

theorem nameUse_fail (reads : ReadsFrom 0 expr) (completes : CompletesFrom 0 expr)
    (next : (current ts).kind = .ident) (h : nameUse expr ts = .fail cause rest) :
    BeginsOperand ts rest := by
  unfold nameUse at h
  obtain ⟨_, named, went⟩ := advance_bind_fail (by rw [next]; decide) h
  have went := peekKind_bind_fail went
  split at went
  · obtain ⟨args, formed, short⟩ := callOf_fail reads completes went
    exact ⟨.call (current ts) args, Expr.formed_call.mpr ⟨next, formed⟩, rfl, named.short short⟩
  · split at went
    · obtain ⟨indices, some, formed, short⟩ := indexOf_fail reads completes went
      exact ⟨.index (current ts) indices, Expr.formed_index.mpr ⟨next, some, formed⟩, rfl,
        named.short short⟩
    · cases went

theorem group_fail (reads : ReadsFrom 0 expr) (completes : CompletesFrom 0 expr)
    (next : (current ts).kind = .leftParen) (h : group expr ts = .fail cause rest) :
    BeginsOperand ts rest := by
  unfold group at h
  obtain ⟨_, opened, went⟩ := advance_bind_fail (by rw [next]; decide) h
  rcases bind_fail went with stopped | ⟨inner, _, read, went⟩
  · obtain ⟨inner, formed, short⟩ := completes.formed _ _ _ stopped
    exact ⟨.group inner, Expr.formed_group.mpr formed, rfl,
      (opened.drop next).short (short.append _)⟩
  · obtain ⟨formed, -, taken⟩ := reads _ _ _ read
    rcases expect_bind_fail (by decide) went with rfl | ⟨_, _, _, _, went⟩
    · exact ⟨.group inner, Expr.formed_group.mpr formed, rfl, (opened.drop next).short (taken.stop _)⟩
    · cases went

theorem primary_fail (reads : ReadsFrom 0 expr) (completes : CompletesFrom 0 expr)
    (h : primary expr ts = .fail cause rest) : BeginsOperand ts rest := by
  unfold primary at h
  have went := peekKind_bind_fail h
  split at went
  · rw [literal_fail went]
    exact beginsOperand_refl ts
  · split at went
    · rename_i next
      exact nameUse_fail reads completes next went
    · split at went
      · rename_i next
        exact group_fail reads completes next went
      · cases went
        exact beginsOperand_refl ts

theorem operandWith_completesFrom {operand : Reader Expr} (completesOperand : CompletesFrom 6 operand)
    (reads : ReadsFrom 0 expr) (completes : CompletesFrom 0 expr) :
    CompletesFrom 6 (operandWith operand expr) := by
  intro ts cause rest h
  unfold operandWith at h
  have went := peekKind_bind_fail h
  cases found : UnOp.ofKind? (current ts).kind with
  | some op =>
    rw [found] at went
    obtain ⟨written, more⟩ := ofKind?_unary found
    obtain ⟨_, taken, went⟩ := advance_bind_fail more went
    obtain ⟨inner, ⟨formed, binds⟩, short⟩ := completesOperand _ _ _ (map_fail went)
    exact ⟨.unary op (current ts) inner, ⟨Expr.formed_unary.mpr
      ⟨⟨written, Expr.operator?_eq_none_of_bindsFrom binds⟩, formed⟩, Expr.bindsFrom_of_none 6 rfl⟩,
      taken.short short⟩
  | none =>
    rw [found] at went
    obtain ⟨e, formed, alone, short⟩ := primary_fail reads completes went
    exact ⟨e, ⟨formed, Expr.bindsFrom_of_none 6 alone⟩, short⟩

/-! ### Chains -/

theorem nextOperand_completes {level : Precedence} {operand : Reader Expr}
    (completes : CompletesFrom (level.rank + 1) operand) :
    Completes (nextOperand level operand) (Expr.GoodLink level) Expr.linkYield := by
  intro ts cause rest h
  unfold nextOperand at h
  have went := peekKind_bind_fail h
  cases found : BinOp.ofKind? (current ts).kind with
  | some op =>
    rw [found] at went
    dsimp only at went
    split at went
    · rename_i same
      obtain ⟨_, taken, went⟩ := advance_bind_fail (ofKind?_binary_ne_eof found) went
      obtain ⟨right, ⟨formed, binds⟩, short⟩ := completes _ _ _ (map_fail went)
      exact ⟨(op, current ts, right), ⟨same, found, formed, binds⟩, taken.short short⟩
    · cases went
  | none =>
    rw [found] at went
    cases went

theorem chain_completesFrom (level : Precedence) {operand : Reader Expr}
    (reads : ReadsFrom (level.rank + 1) operand) (completes : CompletesFrom (level.rank + 1) operand) :
    CompletesFrom level.rank (chain level operand) := by
  intro ts cause rest h
  unfold chain at h
  rcases bind_fail h with stopped | ⟨first, _, read, went⟩
  · obtain ⟨first, ⟨formed, binds⟩, short⟩ := completes _ _ _ stopped
    exact ⟨first, ⟨formed, binds.mono (Nat.le_succ _)⟩, short⟩
  · obtain ⟨formed, binds, taken⟩ := reads _ _ _ read
    obtain ⟨links, -, good, short⟩ :=
      many_fail (nextOperand_rounds reads) (nextOperand_completes completes) (map_fail went)
    refine ⟨links.foldl Expr.join first,
      Expr.formed_foldl_join formed (binds.mono (Nat.le_succ _)) good, ?_⟩
    rw [Expr.yield_foldl_join]
    exact taken.short short

theorem chains_completesFrom {operand : Reader Expr} (reads : ReadsFrom 6 operand)
    (completes : CompletesFrom 6 operand) : CompletesFrom 0 (chains operand) :=
  chains_induction (fun level _ reads completes => chain_completesFrom level reads completes) reads
    completes

/-! ### All levels of nesting -/

theorem operand_completesFrom (levels : Nat) : CompletesFrom 6 (operand levels) := by
  induction levels with
  | zero =>
    exact operandWith_completesFrom (tooDeep_completesFrom 6) (tooDeep_readsFrom 0)
      (tooDeep_completesFrom 0)
  | succ levels ih =>
    have reads := operand_readsFrom levels
    exact operandWith_completesFrom ih (chains_readsFrom reads) (chains_completesFrom reads ih)

/-- Where an expression cannot be read, one of the grammar has been begun. -/
theorem expression_completes (levels : Nat) : CompletesFrom 0 (expression levels) := by
  cases levels with
  | zero => exact tooDeep_completesFrom 0
  | succ levels => exact chains_completesFrom (operand_readsFrom levels) (operand_completesFrom levels)

end Reader

end GameLang
