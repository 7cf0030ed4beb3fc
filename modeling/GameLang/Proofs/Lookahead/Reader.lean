import GameLang.Proofs.Lookahead.Basic
import GameLang.Proofs.Soundness.Program

/-!
# All readers look one token ahead

With tokens that are alike up to the one where a reader stops, it stops there with a like outcome
(`Goal.within_local`). The readers of the grammar mirror themselves step by step.
-/

namespace GameLang

/-- A reader mirrors itself, whatever its values are. -/
abbrev Local {α : Type} (like : Likeness) (r : Reader α) : Prop := Mirrors like Free r r

/-- A round of a loop mirrors itself: it gives a value or none, whatever value it is. -/
abbrev LocalRound {α : Type} (like : Likeness) (r : Reader (Option α)) : Prop :=
  Mirrors like (Option.Rel Free) r r

theorem Stmt.yield_ne_nil (s : Stmt) : s.yield ≠ [] := by
  cases s with
  | branch t c b other =>
    rw [yield_branch]
    exact List.cons_ne_nil _ _
  | block b =>
    rw [yield, Block.yield_eq]
    exact List.cons_ne_nil _ _
  | _ => simp [yield, VarDecl.yield, conditionYield]

namespace Mirrors

variable {α β : Type} {like : Likeness}

/-- What was read only decides what is put together. -/
theorem local_map {V : α → α → Prop} [Std.Refl V] {r r' : Reader α} {f f' : α → β}
    (mirrors : Mirrors like V r r') :
    Mirrors like Free (do return f (← r)) (do return f' (← r')) :=
  mirrors.map fun _ _ _ => trivial

theorem round_map {V : α → α → Prop} [Std.Refl V] {r r' : Reader α} {f f' : α → β}
    (mirrors : Mirrors like V r r') :
    Mirrors like (Option.Rel Free) (do return some (f (← r))) (do return some (f' (← r'))) :=
  mirrors.map fun _ _ _ => .some trivial

theorem local_pure (v w : α) : Mirrors like Free (Pure.pure v) (Pure.pure w) := pure trivial

theorem local_expect (k : Kind) (place : Place) :
    Mirrors like like.token (Reader.expect k place) (Reader.expect k place) :=
  expect (like.cause_refl _)

end Mirrors

open Mirrors

namespace Reader

variable {like : Likeness} {operand expr : Reader Expr} {stmt : Reader Stmt}

theorem tooDeep_local {α : Type} : Local like (tooDeep : Reader α) := Mirrors.fail (like.cause_refl _)

/-! ### Operands -/

/-- Reading on by the next kind, with the reader of literals for their kinds. -/
def literalOr (otherwise : Kind → Reader Expr) : Reader Expr := do
  let kind ← peekKind
  if kind.isLiteral then literal else otherwise kind

theorem literalOr_of_literal {ts : List Token} (next : (current ts).kind.isLiteral = true)
    (otherwise : Kind → Reader Expr) :
    literalOr otherwise ts = match (current ts).literal with
      | some value => (do return .literal (← advance) value : Reader Expr) ts
      | none => .fail .missingValue ts := by
  have chosen : literalOr otherwise ts = (literal : Reader Expr) ts := by
    change (if (current ts).kind.isLiteral then literal else otherwise (current ts).kind) ts = _
    rw [if_pos next]
  rw [chosen]
  unfold literal
  rw [bind_of_ok (r := peek) rfl]
  cases (current ts).literal <;> rfl

theorem literalOr_of_other {ts : List Token} (next : (current ts).kind.isLiteral = false)
    (otherwise : Kind → Reader Expr) : literalOr otherwise ts = otherwise (current ts).kind ts := by
  change (if (current ts).kind.isLiteral then literal else otherwise (current ts).kind) ts = _
  rw [next]
  rfl

/-- Whether a literal has a value is looked at for the kinds of literals only. -/
theorem literalOr_local {otherwise : Kind → Reader Expr} (others : ∀ kind, Local like (otherwise kind)) :
    Local like (literalOr otherwise) := by
  have taken (v w : Literal) : Mirrors like Free (do return Expr.literal (← advance) v)
      (do return Expr.literal (← advance) w) := Mirrors.advance.local_map
  constructor
  · intro ts
    cases next : (current ts).kind.isLiteral with
    | true =>
      rw [literalOr_of_literal next]
      cases (current ts).literal with
      | some v => exact (taken v v).passes ts
      | none => exact .refl ts
    | false =>
      rw [literalOr_of_other next]
      exact (others _).passes ts
  · intro ts us rest left beside stopped
    have alike := beside.current
    have same := like.kind_eq alike
    cases next : (current ts).kind.isLiteral with
    | true =>
      have nextToo : (current us).kind.isLiteral = true := by rw [same, next]
      rw [literalOr_of_literal next] at stopped ⊢
      rw [literalOr_of_literal nextToo]
      rcases like.literal alike next with both | ⟨absent, quits⟩
      · cases value : (current ts).literal with
        | some v =>
          obtain ⟨w, valueToo⟩ := Option.isSome_iff_exists.mp (both.trans (by rw [value]; rfl))
          rw [value] at stopped
          rw [valueToo]
          exact (taken v w).agree beside stopped
        | none =>
          have absent : (current us).literal = none := by simpa [value] using both
          rw [value] at stopped
          rw [absent]
          obtain rfl : ts = rest := stopped
          exact .inl ⟨like.cause_refl _, beside.others_eq.symm⟩
      · rw [absent]
        exact Outcome.like_of_quits quits left us _
    | false =>
      have nextToo : (current us).kind.isLiteral = false := by rw [same, next]
      rw [literalOr_of_other next] at stopped ⊢
      rw [literalOr_of_other nextToo, same]
      exact (others _).agree beside stopped

theorem nextArgument_local (h : Local like expr) : LocalRound like (nextArgument expr) := by
  unfold nextArgument
  refine (Mirrors.accept _).bind fun _ _ found => ?_
  cases found with
  | some => exact h.round_map
  | none => exact .pure .none

theorem arguments_local (reads : ReadsFrom 0 expr) (h : Local like expr) :
    Local like (arguments expr) := by
  have others := (nextArgument_rounds reads).shrinks fun _ _ => List.cons_ne_nil _ _
  unfold arguments
  refine Mirrors.peekKind.bind fun kind _ same => ?_
  subst same
  refine .ite (local_pure _ _) (h.bind fun _ _ _ => ?_)
  exact ((nextArgument_local h).many others).local_map

theorem callOf_local (reads : ReadsFrom 0 expr) (h : Local like expr) (callee callee' : Token) :
    Mirrors like Free (callOf expr callee) (callOf expr callee') := by
  unfold callOf
  refine (local_expect _ _).bind fun _ _ _ => (arguments_local reads h).bind fun _ _ _ => ?_
  exact (local_expect _ _).local_map

theorem nextIndex_local (h : Local like expr) : LocalRound like (nextIndex expr) := by
  unfold nextIndex
  refine (Mirrors.accept _).bind fun _ _ found => ?_
  cases found with
  | some => exact h.bind fun _ _ _ => (local_expect _ _).round_map
  | none => exact .pure .none

theorem indexOf_local (reads : ReadsFrom 0 expr) (h : Local like expr) (name name' : Token) :
    Mirrors like Free (indexOf expr name) (indexOf expr name') := by
  have others := (nextIndex_rounds reads).shrinks fun _ _ => List.cons_ne_nil _ _
  unfold indexOf
  exact ((nextIndex_local h).many others).local_map

theorem nameUse_local (reads : ReadsFrom 0 expr) (h : Local like expr) : Local like (nameUse expr) := by
  unfold nameUse
  refine Mirrors.advance.bind fun name name' _ => Mirrors.peekKind.bind fun kind _ same => ?_
  subst same
  exact .ite (callOf_local reads h name name') (.ite (indexOf_local reads h name name') (local_pure _ _))

theorem group_local (h : Local like expr) : Local like (group expr) := by
  unfold group
  refine Mirrors.advance.bind fun _ _ _ => h.bind fun _ _ _ => ?_
  exact (local_expect _ _).local_map

theorem primary_local (reads : ReadsFrom 0 expr) (h : Local like expr) : Local like (primary expr) := by
  unfold primary
  refine literalOr_local fun kind => ?_
  exact .ite (nameUse_local reads h) (.ite (group_local h) (.fail (like.cause_refl _)))

theorem operandWith_local (reads : ReadsFrom 0 expr) (ofOperand : Local like operand)
    (h : Local like expr) : Local like (operandWith operand expr) := by
  unfold operandWith
  refine Mirrors.peekKind.bind fun kind _ same => ?_
  subst same
  cases UnOp.ofKind? kind with
  | some op => exact Mirrors.advance.bind fun _ _ _ => ofOperand.local_map
  | none => exact primary_local reads h

/-! ### Chains -/

theorem nextOperand_local (level : Precedence) (h : Local like operand) :
    LocalRound like (nextOperand level operand) := by
  unfold nextOperand
  refine Mirrors.peekKind.bind fun kind _ same => ?_
  subst same
  cases BinOp.ofKind? kind with
  | some op => exact .ite (Mirrors.advance.bind fun _ _ _ => h.round_map) (.pure .none)
  | none => exact .pure .none

theorem chain_local (level : Precedence) (reads : ReadsFrom (level.rank + 1) operand)
    (h : Local like operand) : Local like (chain level operand) := by
  have others := (nextOperand_rounds reads).shrinks fun _ _ => List.cons_ne_nil _ _
  unfold chain
  exact h.bind fun _ _ _ => ((nextOperand_local level h).many others).local_map

theorem chains_local (reads : ReadsFrom 6 operand) (h : Local like operand) :
    Local like (chains operand) :=
  chains_induction (P := fun _ r => Local like r) (fun level _ reads h => chain_local level reads h)
    reads h

theorem operand_local (levels : Nat) : Local like (Reader.operand levels) := by
  induction levels with
  | zero => exact operandWith_local (tooDeep_readsFrom 0) tooDeep_local tooDeep_local
  | succ levels ih =>
    have reads := operand_readsFrom levels
    exact operandWith_local (chains_readsFrom reads) ih (chains_local reads ih)

theorem expression_local (levels : Nat) : Local like (expression levels) := by
  cases levels with
  | zero => exact tooDeep_local
  | succ levels => exact chains_local (operand_readsFrom levels) (operand_local levels)

/-! ### Declarations -/

theorem typeWord_local (place : TypePlace) : Local like (typeWord place) := by
  unfold typeWord
  refine Mirrors.peekKind.bind fun kind _ same => ?_
  subst same
  cases TypeKind.ofKind? kind with
  | some type => exact Mirrors.advance.local_map
  | none => exact .fail (like.cause_refl _)

theorem nextDimension_local (h : Local like expr) : LocalRound like (nextDimension expr) := by
  unfold nextDimension
  refine (Mirrors.accept _).bind fun _ _ opened => ?_
  cases opened with
  | none => exact .pure .none
  | some =>
    refine (Mirrors.accept _).bind fun _ _ closed => ?_
    cases closed with
    | some => exact .pure (.some trivial)
    | none => exact h.bind fun _ _ _ => (local_expect _ _).round_map

theorem declaredType_local {keyword keyword' : Token} (alike : like.token keyword keyword') :
    Mirrors like Free (declaredType keyword) (declaredType keyword') := by
  unfold declaredType
  rw [like.kind_eq alike]
  exact .ite (local_expect _ _).local_map (typeWord_local _)

theorem initialValue_local (h : Local like expr) : Local like (initialValue expr) := by
  unfold initialValue
  refine (Mirrors.accept _).bind fun _ _ found => ?_
  cases found with
  | some => exact h.local_map
  | none => exact local_pure _ _

theorem varDecl_local (reads : ReadsFrom 0 expr) (h : Local like expr) :
    Local like (varDecl expr) := by
  have others := (nextDimension_rounds reads).shrinks fun _ _ => List.cons_ne_nil _ _
  unfold varDecl
  refine Mirrors.advance.bind fun _ _ alike => (declaredType_local alike).bind fun _ _ _ => ?_
  refine (local_expect _ _).bind fun _ _ _ => ((nextDimension_local h).many others).bind fun _ _ _ => ?_
  exact (initialValue_local h).bind fun _ _ _ => (local_expect _ _).local_map

/-! ### Blocks -/

theorem nextStatement_local (close : Kind) (h : Local like stmt) :
    LocalRound like (nextStatement stmt close) := by
  unfold nextStatement
  refine Mirrors.peekKind.bind fun kind _ same => ?_
  subst same
  exact .ite (.pure .none) h.round_map

theorem statements_local (close : Kind) (reads : ReadsStmt stmt) (h : Local like stmt) :
    Local like (Reader.many (nextStatement stmt close)) :=
  (nextStatement_local close h).many
    ((nextStatement_rounds reads).shrinks fun s _ => s.yield_ne_nil)

theorem block_local (place : Place) (reads : ReadsStmt stmt) (h : Local like stmt) :
    Local like (block stmt place) := by
  unfold block
  refine (local_expect _ _).bind fun _ _ _ => (statements_local _ reads h).bind fun _ _ _ => ?_
  exact (local_expect _ _).local_map

/-! ### The other statements -/

theorem builtinArgument_local (h : Local like expr) {keyword keyword' : Token}
    (alike : like.token keyword keyword') :
    Mirrors like Free (builtinArgument expr keyword) (builtinArgument expr keyword') := by
  unfold builtinArgument
  rw [like.kind_eq alike]
  exact .ite (Mirrors.expect (like.cause_word _ .insideCall alike)).local_map h

theorem builtinCall_local (h : Local like expr) : Local like (builtinCall expr) := by
  unfold builtinCall
  refine Mirrors.advance.bind fun _ _ alike => ?_
  refine (Mirrors.expect (like.cause_word _ .afterWord alike)).bind fun _ _ _ => ?_
  refine (builtinArgument_local h alike).bind fun _ _ _ => (local_expect _ _).bind fun _ _ _ => ?_
  exact (Mirrors.expect (like.cause_word _ .afterCallOf alike)).local_map

theorem condition_local (word : Kind) (h : Local like expr) : Local like (condition expr word) := by
  unfold condition
  refine (local_expect _ _).bind fun _ _ _ => h.bind fun _ _ _ => ?_
  exact (local_expect _ _).local_map

theorem alternative_local (reads : ReadsStmt stmt) (h : Local like stmt) :
    Local like (alternative stmt) := by
  unfold alternative
  refine (Mirrors.accept _).bind fun _ _ found => ?_
  cases found with
  | some => exact (block_local _ reads h).local_map
  | none => exact local_pure _ _

theorem branch_local (readsStmt : ReadsStmt stmt) (ofStmt : Local like stmt) (h : Local like expr) :
    Local like (branch stmt expr) := by
  unfold branch
  refine Mirrors.advance.bind fun _ _ _ => (condition_local _ h).bind fun _ _ _ => ?_
  refine (block_local _ readsStmt ofStmt).bind fun _ _ _ => ?_
  exact (alternative_local readsStmt ofStmt).local_map

theorem loop_local (ofStmt : Local like stmt) (h : Local like expr) : Local like (loop stmt expr) := by
  unfold loop
  refine Mirrors.advance.bind fun _ _ _ => (condition_local _ h).bind fun _ _ _ => ?_
  exact ofStmt.local_map

theorem result_local (h : Local like expr) : Local like (result expr) := by
  unfold result
  refine Mirrors.advance.bind fun _ _ _ => h.bind fun _ _ _ => ?_
  exact (local_expect _ _).local_map

theorem assignTo_local (h : Local like expr) (target target' : Expr) (cause : Cause) :
    Mirrors like Free (assignTo expr target cause) (assignTo expr target' cause) := by
  unfold assignTo
  refine (Mirrors.accept _).bind fun _ _ found => ?_
  cases found with
  | none => exact .fail (like.cause_refl _)
  | some => exact h.bind fun _ _ _ => (local_expect _ _).local_map

theorem nameStatement_local (reads : ReadsFrom 0 expr) (h : Local like expr) :
    Local like (nameStatement expr) := by
  unfold nameStatement
  refine Mirrors.advance.bind fun name name' _ => Mirrors.peekKind.bind fun kind _ same => ?_
  subst same
  refine .ite ?_ (.ite ?_ (assignTo_local h _ _ _))
  · exact (callOf_local reads h name name').bind fun _ _ _ => (local_expect _ _).local_map
  · exact (indexOf_local reads h name name').bind fun _ _ _ => assignTo_local h _ _ _

theorem statementWith_local (readsStmt : ReadsStmt stmt) (reads : ReadsFrom 0 expr)
    (ofStmt : Local like stmt) (h : Local like expr) : Local like (statementWith stmt expr) := by
  unfold statementWith
  refine Mirrors.peekKind.bind fun kind _ same => ?_
  subst same
  cases kind with
  | leftBrace => exact (block_local _ readsStmt ofStmt).local_map
  | varWord | varCharWord => exact (varDecl_local reads h).local_map
  | printWord | readWord | encryptWord | decryptWord => exact builtinCall_local h
  | ifWord => exact branch_local readsStmt ofStmt h
  | whileWord => exact loop_local ofStmt h
  | returnWord => exact result_local h
  | semicolon => exact Mirrors.advance.local_map
  | ident => exact nameStatement_local reads h
  | _ => exact .fail (like.cause_refl _)

theorem statement_local (levels : Nat) : Local like (statement levels) := by
  induction levels with
  | zero => exact tooDeep_local
  | succ levels ih =>
    exact statementWith_local (statement_reads levels) (expression_reads levels) ih
      (expression_local levels)

/-! ### Programs -/

theorem param_local : Local like param := by
  unfold param
  exact (typeWord_local _).bind fun _ _ _ => (local_expect _ _).local_map

theorem nextParam_local : LocalRound like nextParam := by
  unfold nextParam
  refine (Mirrors.accept _).bind fun _ _ found => ?_
  cases found with
  | some => exact param_local.round_map
  | none => exact .pure .none

theorem params_local : Local like params := by
  have others := nextParam_rounds.shrinks fun _ _ => List.cons_ne_nil _ _
  unfold params
  refine Mirrors.peekKind.bind fun kind _ same => ?_
  subst same
  refine .ite (local_pure _ _) (param_local.bind fun _ _ _ => ?_)
  exact (nextParam_local.many others).local_map

theorem function_local (levels : Nat) : Local like (function (statement levels)) := by
  unfold function
  refine (typeWord_local _).bind fun _ _ _ => (local_expect _ _).bind fun _ _ _ => ?_
  refine (local_expect _ _).bind fun _ _ _ => params_local.bind fun _ _ _ => ?_
  refine (local_expect _ _).bind fun _ _ _ => ?_
  exact (block_local _ (statement_reads levels) (statement_local levels)).local_map

theorem nextFunction_local (levels : Nat) : LocalRound like (nextFunction (statement levels)) := by
  unfold nextFunction
  refine Mirrors.peekKind.bind fun kind _ same => ?_
  subst same
  exact .ite (function_local levels).round_map (.pure .none)

theorem nextVariable_local (levels : Nat) : LocalRound like (nextVariable (expression levels)) := by
  unfold nextVariable
  refine Mirrors.peekKind.bind fun kind _ same => ?_
  subst same
  exact .ite (varDecl_local (expression_reads levels) (expression_local levels)).round_map
    (.pure .none)

theorem entryBlock_local (levels : Nat) : Local like (entryBlock (statement levels)) := by
  unfold entryBlock
  refine (local_expect _ _).bind fun _ _ _ => ?_
  refine (statements_local _ (statement_reads levels) (statement_local levels)).bind fun _ _ _ => ?_
  exact (local_expect _ _).bind fun _ _ _ => (local_expect _ _).local_map

theorem atEnd_local (cause : Cause) : Local like (atEnd cause) := by
  unfold atEnd
  refine Mirrors.peekKind.bind fun kind _ same => ?_
  subst same
  exact .ite (local_pure _ _) (.fail (like.cause_refl _))

theorem program_local (levels : Nat) : Local like (program levels) := by
  have functions : Shrinks (nextFunction (statement levels)) := by
    refine (nextFunction_rounds levels).shrinks ?_
    rintro _ ⟨f, rfl, -⟩
    exact List.cons_ne_nil _ _
  have vars : Shrinks (nextVariable (expression levels)) := by
    refine (nextVariable_rounds levels).shrinks ?_
    rintro _ ⟨d, rfl, -⟩
    exact List.cons_ne_nil _ _
  unfold program programWith
  refine ((nextFunction_local levels).many functions).bind fun _ _ _ => ?_
  refine ((nextVariable_local levels).many vars).bind fun _ _ _ => ?_
  exact (entryBlock_local levels).bind fun _ _ _ => (atEnd_local _).local_map

theorem whole_local {α : Type} {r : Reader α} (inside : Local like r) : Local like (whole r) := by
  unfold whole
  exact inside.bind fun _ _ _ => (atEnd_local _).local_map

end Reader

/-- Reading for a goal looks one token ahead. -/
theorem Goal.within_local {like : Likeness} (goal : Goal) (levels : Nat) :
    Local like (goal.within levels) := by
  cases goal with
  | program => exact (Reader.program_local levels).local_map
  | statement => exact (Reader.whole_local (Reader.statement_local levels)).local_map
  | expression => exact (Reader.whole_local (Reader.expression_local levels)).local_map

end GameLang
