import GameLang.Proofs.Recast.Tree

/-!
# Reading other tokens of the same kinds

Readers look at kinds only, and at whether a literal has a value. So a reader that meets other tokens
of the same kinds gives the tree with those tokens, or stops in the same place
(`Goal.within_follows`). `Follows` says so of one reader and its counterpart; each lemma adds one
step.
-/

namespace GameLang

variable {α β γ δ : Type} {r : Recast}

/-- Two readings agree: the second gave the counterpart of what the first gave, or both stopped, and
they left the same tokens. -/
def Outcome.Agree (r : Recast) (f : α → β) : Outcome α → Outcome β → Prop
  | .ok v rest, .ok w others => w = f v ∧ others = rest.map r.token
  | .fail _ rest, .fail _ others => others = rest.map r.token
  | _, _ => False

/-- A reader does with other tokens what a reader does with the tokens. -/
def Follows (r : Recast) (f : α → β) (reader : Reader α) (other : Reader β) : Prop :=
  ∀ ts, Outcome.Agree r f (reader ts) (other (ts.map r.token))

theorem Reader.current_map (r : Recast) (ts : List Token) :
    current (ts.map r.token) = r.token (current ts) := by
  cases ts with
  | nil => exact r.token_ending.symm
  | cons t ts => rfl

theorem Reader.kind_current_map (r : Recast) (ts : List Token) :
    (current (ts.map r.token)).kind = (current ts).kind := by
  rw [current_map, r.kind_token]

namespace Follows

theorem pure (f : α → β) (v : α) : Follows r f (Pure.pure v) (Pure.pure (f v)) :=
  fun _ => ⟨rfl, rfl⟩

theorem pure_of_eq {f : α → β} {v : α} {w : β} (same : w = f v) :
    Follows r f (Pure.pure v) (Pure.pure w) := same ▸ pure f v

theorem fail (f : α → β) (cause other : Cause) :
    Follows r f (Reader.fail cause) (Reader.fail other) := fun _ => rfl

theorem bind {f : α → γ} {g : β → δ} {reader : Reader α} {other : Reader γ} {next : α → Reader β}
    {otherNext : γ → Reader δ} (first : Follows r f reader other)
    (second : ∀ v, Follows r g (next v) (otherNext (f v))) :
    Follows r g (reader >>= next) (other >>= otherNext) := by
  intro ts
  have agree := first ts
  cases read : reader ts with
  | ok v rest =>
    cases followed : other (ts.map r.token) with
    | ok w others =>
      rw [read, followed] at agree
      obtain ⟨rfl, rfl⟩ := agree
      rw [Reader.bind_of_ok read, Reader.bind_of_ok followed]
      exact second v rest
    | fail cause others => rw [read, followed] at agree; exact agree.elim
  | fail cause rest =>
    cases followed : other (ts.map r.token) with
    | ok w others => rw [read, followed] at agree; exact agree.elim
    | fail otherCause others =>
      rw [read, followed] at agree
      rw [Reader.bind_of_fail read, Reader.bind_of_fail followed]
      exact agree

theorem map {f : α → γ} {g : β → δ} {reader : Reader α} {other : Reader γ} {put : α → β}
    {otherPut : γ → δ} (follows : Follows r f reader other) (same : ∀ v, otherPut (f v) = g (put v)) :
    Follows r g (do return put (← reader)) (do return otherPut (← other)) := by
  refine follows.bind fun v => ?_
  rw [same]
  exact pure g (put v)

theorem peekKind : Follows r id Reader.peekKind Reader.peekKind :=
  fun ts => ⟨Reader.kind_current_map r ts, rfl⟩

theorem peek : Follows r r.token Reader.peek Reader.peek :=
  fun ts => ⟨Reader.current_map r ts, rfl⟩

theorem advance : Follows r r.token Reader.advance Reader.advance := by
  intro ts
  cases ts with
  | nil => exact ⟨r.token_ending.symm, rfl⟩
  | cons t ts =>
    have same := r.kind_token t
    by_cases ended : t.kind = .eof
    · rw [List.map_cons, Reader.advance_of_end ended, Reader.advance_of_end (same.trans ended)]
      exact ⟨rfl, rfl⟩
    · rw [List.map_cons, Reader.advance_of_inside ended,
        Reader.advance_of_inside fun close => ended (same.symm.trans close)]
      exact ⟨rfl, rfl⟩

/-- Whether a condition on the kinds holds does not depend on the tokens. -/
theorem ite {f : α → β} {condition : Prop} [Decidable condition] {reader reader' : Reader α}
    {other other' : Reader β} (yes : Follows r f reader other) (no : Follows r f reader' other') :
    Follows r f (if condition then reader else reader') (if condition then other else other') := by
  split
  · exact yes
  · exact no

theorem accept (k : Kind) : Follows r (Option.map r.token) (Reader.accept k) (Reader.accept k) := by
  unfold Reader.accept
  refine peekKind.bind fun kind => ?_
  refine ite (advance.map fun _ => rfl) (pure _ none)

theorem expect (k : Kind) (place otherPlace : Place) :
    Follows r r.token (Reader.expect k place) (Reader.expect k otherPlace) := by
  unfold Reader.expect
  refine (accept k).bind fun found => ?_
  cases found with
  | some t => exact pure _ t
  | none => exact fail _ _ _

theorem repeatFrom {f : α → β} {reader : Reader (Option α)} {other : Reader (Option β)}
    (follows : Follows r (Option.map f) reader other) (bound : List Token) (read : List α)
    (ts : List Token) :
    Outcome.Agree r (List.map f) (Reader.repeatFrom reader bound read ts)
      (Reader.repeatFrom other (bound.map r.token) (read.map f) (ts.map r.token)) := by
  induction bound generalizing read ts with
  | nil =>
    rw [List.map_nil, Reader.repeatFrom, Reader.repeatFrom, ← List.map_reverse]
    exact ⟨rfl, rfl⟩
  | cons t bound ih =>
    rw [List.map_cons, Reader.repeatFrom, Reader.repeatFrom]
    have agree := follows ts
    revert agree
    cases reader ts with
    | ok v rest =>
      cases other (ts.map r.token) with
      | ok w others =>
        rintro ⟨rfl, rfl⟩
        cases v with
        | some v => exact ih (v :: read) rest
        | none =>
          refine ⟨?_, rfl⟩
          rw [List.map_reverse]
      | fail cause others => exact False.elim
    | fail cause rest =>
      cases other (ts.map r.token) with
      | ok w others => exact False.elim
      | fail otherCause others => exact id

theorem many {f : α → β} {reader : Reader (Option α)} {other : Reader (Option β)}
    (follows : Follows r (Option.map f) reader other) :
    Follows r (List.map f) (Reader.many reader) (Reader.many other) :=
  fun ts => follows.repeatFrom ts [] ts

end Follows

theorem Expr.recast_index (t : Token) (es : List Expr) :
    (index t es).recast r = .index (r.token t) (es.map (Expr.recast r)) := by
  rw [recast, recasts_eq_map]

theorem Expr.recast_call (t : Token) (es : List Expr) :
    (call t es).recast r = .call (r.token t) (es.map (Expr.recast r)) := by
  rw [recast, recasts_eq_map]

theorem Block.recast_mk (opener : Token) (ss : List Stmt) :
    (Block.mk opener ss).recast r = ⟨r.token opener, ss.map (Stmt.recast r)⟩ := by
  rw [recast, Stmt.recasts_eq_map]

namespace Reader

variable {operand expr : Reader Expr} {stmt : Reader Stmt}

theorem tooDeep_follows {f : α → α} : Follows r f tooDeep tooDeep := .fail f _ _

/-! ### Operands -/

theorem literal_follows : Follows r (Expr.recast r) literal literal := by
  unfold literal
  refine Follows.peek.bind fun t => ?_
  rw [r.literal_token]
  cases t.literal with
  | some v => exact Follows.advance.map fun _ => rfl
  | none => exact .fail _ _ _

theorem nextArgument_follows (follows : Follows r (Expr.recast r) expr expr) :
    Follows r (Option.map (Expr.recast r)) (nextArgument expr) (nextArgument expr) := by
  unfold nextArgument
  refine (Follows.accept _).bind fun found => ?_
  cases found with
  | some t => exact follows.map fun _ => rfl
  | none => exact .pure _ none

theorem arguments_follows (follows : Follows r (Expr.recast r) expr expr) :
    Follows r (List.map (Expr.recast r)) (arguments expr) (arguments expr) := by
  unfold arguments
  refine Follows.peekKind.bind fun kind => .ite (.pure _ []) ?_
  exact follows.bind fun first => (nextArgument_follows follows).many.map fun _ => rfl

theorem callOf_follows (follows : Follows r (Expr.recast r) expr expr) (callee : Token) :
    Follows r (Expr.recast r) (callOf expr callee) (callOf expr (r.token callee)) := by
  unfold callOf
  refine (Follows.expect _ _ _).bind fun _ => (arguments_follows follows).bind fun args => ?_
  exact (Follows.expect _ _ _).bind fun _ => .pure_of_eq (Expr.recast_call callee args).symm

theorem nextIndex_follows (follows : Follows r (Expr.recast r) expr expr) :
    Follows r (Option.map (Expr.recast r)) (nextIndex expr) (nextIndex expr) := by
  unfold nextIndex
  refine (Follows.accept _).bind fun found => ?_
  cases found with
  | some t =>
    exact follows.bind fun index => (Follows.expect _ _ _).bind fun _ => .pure _ (some index)
  | none => exact .pure _ none

theorem indexOf_follows (follows : Follows r (Expr.recast r) expr expr) (name : Token) :
    Follows r (Expr.recast r) (indexOf expr name) (indexOf expr (r.token name)) := by
  unfold indexOf
  exact (nextIndex_follows follows).many.map fun indices => (Expr.recast_index name indices).symm

theorem nameUse_follows (follows : Follows r (Expr.recast r) expr expr) :
    Follows r (Expr.recast r) (nameUse expr) (nameUse expr) := by
  unfold nameUse
  refine Follows.advance.bind fun name => Follows.peekKind.bind fun kind => ?_
  exact .ite (callOf_follows follows name)
    (.ite (indexOf_follows follows name) (.pure _ (Expr.ident name)))

theorem group_follows (follows : Follows r (Expr.recast r) expr expr) :
    Follows r (Expr.recast r) (group expr) (group expr) := by
  unfold group
  refine Follows.advance.bind fun _ => follows.bind fun inner => ?_
  exact (Follows.expect _ _ _).bind fun _ => .pure _ (Expr.group inner)

theorem primary_follows (follows : Follows r (Expr.recast r) expr expr) :
    Follows r (Expr.recast r) (primary expr) (primary expr) := by
  unfold primary
  refine Follows.peekKind.bind fun kind => ?_
  exact .ite literal_follows (.ite (nameUse_follows follows) (.ite (group_follows follows)
    (.fail _ _ _)))

theorem operandWith_follows (followsOperand : Follows r (Expr.recast r) operand operand)
    (follows : Follows r (Expr.recast r) expr expr) :
    Follows r (Expr.recast r) (operandWith operand expr) (operandWith operand expr) := by
  unfold operandWith
  refine Follows.peekKind.bind fun kind => ?_
  rw [id_eq]
  cases UnOp.ofKind? kind with
  | some op => exact Follows.advance.bind fun t => followsOperand.map fun _ => rfl
  | none => exact primary_follows follows

/-! ### Chains -/

theorem nextOperand_follows (level : Precedence)
    (follows : Follows r (Expr.recast r) operand operand) :
    Follows r (Option.map fun (op, t, e) => (op, r.token t, e.recast r)) (nextOperand level operand)
      (nextOperand level operand) := by
  unfold nextOperand
  refine Follows.peekKind.bind fun kind => ?_
  rw [id_eq]
  cases BinOp.ofKind? kind with
  | some op =>
    exact .ite (Follows.advance.bind fun t => follows.map fun _ => rfl) (.pure _ none)
  | none => exact .pure _ none

theorem chain_follows (level : Precedence) (follows : Follows r (Expr.recast r) operand operand) :
    Follows r (Expr.recast r) (chain level operand) (chain level operand) := by
  unfold chain
  refine follows.bind fun first => (nextOperand_follows level follows).many.map fun links => ?_
  rw [List.foldl_map]
  exact List.foldl_hom (Expr.recast r) fun left link => rfl

theorem chains_follows (follows : Follows r (Expr.recast r) operand operand) :
    Follows r (Expr.recast r) (chains operand) (chains operand) := by
  unfold chains
  induction Precedence.all with
  | nil => exact follows
  | cons level levels ih => exact chain_follows level ih

theorem operand_follows (levels : Nat) :
    Follows r (Expr.recast r) (Reader.operand levels) (Reader.operand levels) := by
  induction levels with
  | zero => exact operandWith_follows tooDeep_follows tooDeep_follows
  | succ levels ih => exact operandWith_follows ih (chains_follows ih)

theorem expression_follows (levels : Nat) :
    Follows r (Expr.recast r) (expression levels) (expression levels) := by
  cases levels with
  | zero => exact tooDeep_follows
  | succ levels => exact chains_follows (operand_follows levels)

/-! ### Declarations -/

theorem typeWord_follows (place : TypePlace) :
    Follows r (TypeRef.recast r) (typeWord place) (typeWord place) := by
  unfold typeWord
  refine Follows.peekKind.bind fun kind => ?_
  rw [id_eq]
  cases TypeKind.ofKind? kind with
  | some type => exact Follows.advance.map fun _ => rfl
  | none => exact .fail _ _ _

theorem nextDimension_follows (follows : Follows r (Expr.recast r) expr expr) :
    Follows r (Option.map (Option.map (Expr.recast r))) (nextDimension expr)
      (nextDimension expr) := by
  unfold nextDimension
  refine (Follows.accept _).bind fun opened => ?_
  cases opened with
  | none => exact .pure _ none
  | some t =>
    refine (Follows.accept _).bind fun closed => ?_
    cases closed with
    | some t => exact .pure _ (some none)
    | none =>
      exact follows.bind fun size => (Follows.expect _ _ _).bind fun _ => .pure _ (some (some size))

theorem declaredType_follows (keyword : Token) :
    Follows r (TypeRef.recast r) (declaredType keyword) (declaredType (r.token keyword)) := by
  unfold declaredType
  rw [r.kind_token]
  exact .ite ((Follows.expect _ _ _).map fun _ => rfl) (typeWord_follows _)

theorem initialValue_follows (follows : Follows r (Expr.recast r) expr expr) :
    Follows r (Option.map (Expr.recast r)) (initialValue expr) (initialValue expr) := by
  unfold initialValue
  refine (Follows.accept _).bind fun found => ?_
  cases found with
  | some t => exact follows.map fun _ => rfl
  | none => exact .pure _ none

theorem varDecl_follows (follows : Follows r (Expr.recast r) expr expr) :
    Follows r (VarDecl.recast r) (varDecl expr) (varDecl expr) := by
  unfold varDecl
  refine Follows.advance.bind fun keyword => (declaredType_follows keyword).bind fun type => ?_
  refine (Follows.expect _ _ _).bind fun name => (nextDimension_follows follows).many.bind fun dims => ?_
  refine (initialValue_follows follows).bind fun init => (Follows.expect _ _ _).bind fun _ => ?_
  rw [← TypeRef.recast_withDims]
  exact .pure _ (VarDecl.mk keyword (type.withDims dims) name init)

/-! ### Blocks -/

theorem nextStatement_follows (close : Kind) (follows : Follows r (Stmt.recast r) stmt stmt) :
    Follows r (Option.map (Stmt.recast r)) (nextStatement stmt close) (nextStatement stmt close) := by
  unfold nextStatement
  exact Follows.peekKind.bind fun kind => .ite (.pure _ none) (follows.map fun _ => rfl)

theorem block_follows (place : Place) (follows : Follows r (Stmt.recast r) stmt stmt) :
    Follows r (Block.recast r) (block stmt place) (block stmt place) := by
  unfold block
  refine (Follows.expect _ _ _).bind fun opener => (nextStatement_follows _ follows).many.bind fun ss => ?_
  exact (Follows.expect _ _ _).bind fun _ => .pure_of_eq (Block.recast_mk opener ss).symm

/-! ### The other statements -/

theorem builtinArgument_follows (follows : Follows r (Expr.recast r) expr expr) (keyword : Token) :
    Follows r (Expr.recast r) (builtinArgument expr keyword)
      (builtinArgument expr (r.token keyword)) := by
  unfold builtinArgument
  rw [r.kind_token]
  exact .ite ((Follows.expect _ _ _).map fun _ => rfl) follows

theorem builtinCall_follows (follows : Follows r (Expr.recast r) expr expr) :
    Follows r (Stmt.recast r) (builtinCall expr) (builtinCall expr) := by
  unfold builtinCall
  refine Follows.advance.bind fun keyword => (Follows.expect _ _ _).bind fun _ => ?_
  refine (builtinArgument_follows follows keyword).bind fun arg => (Follows.expect _ _ _).bind fun _ => ?_
  exact (Follows.expect _ _ _).bind fun _ => .pure _ (Stmt.expression (.call keyword [arg]))

theorem condition_follows (word : Kind) (follows : Follows r (Expr.recast r) expr expr) :
    Follows r (Expr.recast r) (condition expr word) (condition expr word) := by
  unfold condition
  refine (Follows.expect _ _ _).bind fun _ => follows.bind fun test => ?_
  exact (Follows.expect _ _ _).bind fun _ => .pure _ test

theorem alternative_follows (follows : Follows r (Stmt.recast r) stmt stmt) :
    Follows r (Option.map (Block.recast r)) (alternative stmt) (alternative stmt) := by
  unfold alternative
  refine (Follows.accept _).bind fun found => ?_
  cases found with
  | some t => exact (block_follows _ follows).map fun _ => rfl
  | none => exact .pure _ none

theorem branch_follows (followsStmt : Follows r (Stmt.recast r) stmt stmt)
    (follows : Follows r (Expr.recast r) expr expr) :
    Follows r (Stmt.recast r) (branch stmt expr) (branch stmt expr) := by
  unfold branch
  refine Follows.advance.bind fun keyword => (condition_follows _ follows).bind fun test => ?_
  refine (block_follows _ followsStmt).bind fun thenBlock => ?_
  exact (alternative_follows followsStmt).map fun other => (Stmt.recast_branch r keyword test thenBlock other).symm

theorem loop_follows (followsStmt : Follows r (Stmt.recast r) stmt stmt)
    (follows : Follows r (Expr.recast r) expr expr) :
    Follows r (Stmt.recast r) (loop stmt expr) (loop stmt expr) := by
  unfold loop
  refine Follows.advance.bind fun keyword => (condition_follows _ follows).bind fun test => ?_
  exact followsStmt.map fun _ => rfl

theorem result_follows (follows : Follows r (Expr.recast r) expr expr) :
    Follows r (Stmt.recast r) (result expr) (result expr) := by
  unfold result
  refine Follows.advance.bind fun keyword => follows.bind fun value => ?_
  exact (Follows.expect _ _ _).bind fun _ => .pure _ (Stmt.result keyword value)

theorem assignTo_follows (follows : Follows r (Expr.recast r) expr expr) (target : Expr)
    (cause : Cause) :
    Follows r (Stmt.recast r) (assignTo expr target cause)
      (assignTo expr (target.recast r) cause) := by
  unfold assignTo
  refine (Follows.accept _).bind fun found => ?_
  cases found with
  | none => exact .fail _ _ _
  | some t =>
    exact follows.bind fun value => (Follows.expect _ _ _).bind fun _ => .pure _ (Stmt.assign target value)

theorem nameStatement_follows (follows : Follows r (Expr.recast r) expr expr) :
    Follows r (Stmt.recast r) (nameStatement expr) (nameStatement expr) := by
  unfold nameStatement
  refine Follows.advance.bind fun name => Follows.peekKind.bind fun kind => ?_
  refine .ite ?_ (.ite ?_ (assignTo_follows follows (.ident name) _))
  · refine (callOf_follows follows name).bind fun call => (Follows.expect _ _ _).bind fun _ => ?_
    exact .pure _ (Stmt.expression call)
  · exact (indexOf_follows follows name).bind fun target => assignTo_follows follows target _

theorem statementWith_follows (followsStmt : Follows r (Stmt.recast r) stmt stmt)
    (follows : Follows r (Expr.recast r) expr expr) :
    Follows r (Stmt.recast r) (statementWith stmt expr) (statementWith stmt expr) := by
  unfold statementWith
  refine Follows.peekKind.bind fun kind => ?_
  cases kind with
  | leftBrace => exact (block_follows _ followsStmt).map fun _ => rfl
  | varWord | varCharWord => exact (varDecl_follows follows).map fun _ => rfl
  | printWord | readWord | encryptWord | decryptWord => exact builtinCall_follows follows
  | ifWord => exact branch_follows followsStmt follows
  | whileWord => exact loop_follows followsStmt follows
  | returnWord => exact result_follows follows
  | semicolon => exact Follows.advance.map fun _ => rfl
  | ident => exact nameStatement_follows follows
  | _ => exact .fail _ _ _

theorem statement_follows (levels : Nat) :
    Follows r (Stmt.recast r) (statement levels) (statement levels) := by
  induction levels with
  | zero => exact tooDeep_follows
  | succ levels ih => exact statementWith_follows ih (expression_follows levels)

/-! ### Programs -/

theorem param_follows : Follows r (Param.recast r) param param := by
  unfold param
  refine (typeWord_follows _).bind fun type => (Follows.expect _ _ _).bind fun name => ?_
  exact .pure _ (Param.mk name type)

theorem nextParam_follows : Follows r (Option.map (Param.recast r)) nextParam nextParam := by
  unfold nextParam
  refine (Follows.accept _).bind fun found => ?_
  cases found with
  | some t => exact param_follows.map fun _ => rfl
  | none => exact .pure _ none

theorem params_follows : Follows r (List.map (Param.recast r)) params params := by
  unfold params
  refine Follows.peekKind.bind fun kind => .ite (.pure _ []) ?_
  exact param_follows.bind fun first => nextParam_follows.many.map fun _ => rfl

theorem function_follows (levels : Nat) :
    Follows r (Function.recast r) (function (statement levels)) (function (statement levels)) := by
  unfold function
  refine (typeWord_follows _).bind fun type => (Follows.expect _ _ _).bind fun name => ?_
  refine (Follows.expect _ _ _).bind fun _ => params_follows.bind fun params => ?_
  refine (Follows.expect _ _ _).bind fun _ => (block_follows _ (statement_follows levels)).map fun body => ?_
  rw [Function.recast]
  cases body
  rw [Block.recast_mk]

theorem nextFunction_follows (levels : Nat) :
    Follows r (Option.map (Item.recast r)) (nextFunction (statement levels))
      (nextFunction (statement levels)) := by
  unfold nextFunction
  refine Follows.peekKind.bind fun kind => ?_
  exact .ite ((function_follows levels).map fun _ => rfl) (.pure _ none)

theorem nextVariable_follows (levels : Nat) :
    Follows r (Option.map (Item.recast r)) (nextVariable (expression levels))
      (nextVariable (expression levels)) := by
  unfold nextVariable
  refine Follows.peekKind.bind fun kind => ?_
  exact .ite ((varDecl_follows (expression_follows levels)).map fun _ => rfl) (.pure _ none)

theorem entryBlock_follows (levels : Nat) :
    Follows r (Block.recast r) (entryBlock (statement levels)) (entryBlock (statement levels)) := by
  unfold entryBlock
  refine (Follows.expect _ _ _).bind fun opener => ?_
  refine (nextStatement_follows _ (statement_follows levels)).many.bind fun ss => ?_
  refine (Follows.expect _ _ _).bind fun _ => (Follows.expect _ _ _).bind fun _ => ?_
  exact .pure_of_eq (Block.recast_mk opener ss).symm

theorem atEnd_follows (cause : Cause) : Follows r id (atEnd cause) (atEnd cause) := by
  unfold atEnd
  exact Follows.peekKind.bind fun kind => .ite (.pure _ ()) (.fail _ _ _)

theorem program_follows (levels : Nat) :
    Follows r (Program.recast r) (program levels) (program levels) := by
  unfold program programWith
  refine (nextFunction_follows levels).many.bind fun functions => ?_
  refine (nextVariable_follows levels).many.bind fun vars => ?_
  refine (entryBlock_follows levels).bind fun entry => (atEnd_follows _).bind fun _ => ?_
  refine .pure_of_eq ?_
  rw [Program.recast, List.map_append, List.map_append]
  rfl

theorem whole_follows {α : Type} {f : α → α} {reader : Reader α} (follows : Follows r f reader reader) :
    Follows r f (whole reader) (whole reader) := by
  unfold whole
  exact follows.bind fun v => (atEnd_follows _).bind fun _ => .pure f v

end Reader

/-- Other tokens of the same kinds are read as the tree with these tokens, or reading stops in the
same place. -/
theorem Goal.within_follows (goal : Goal) (levels : Nat) :
    Follows r (Tree.recast r) (goal.within levels) (goal.within levels) := by
  cases goal with
  | program => exact (Reader.program_follows levels).map fun _ => rfl
  | statement => exact (Reader.whole_follows (Reader.statement_follows levels)).map fun _ => rfl
  | expression => exact (Reader.whole_follows (Reader.expression_follows levels)).map fun _ => rfl

end GameLang
