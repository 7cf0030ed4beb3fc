import GameLang.Proofs.Session.Running

/-!
# The grammar in a session

A form of the grammar does in a session what it does on a list of tokens, if the readers of its parts
do. The levels still to be opened and those that are open make up the limit, so the counter stops a
session where the recursion stops a reader (`performs_expression`, `performs_statement`), and a call
reads the tokens left (`performs_call`).
-/

namespace GameLang.Session

namespace Performs

variable {α β : Type} {depth : Nat}

/-! ### Steps -/

theorem map {action : Action α} {r : Reader α} {f : α → β} (performs : Performs depth action r) :
    Performs depth (do return f (← action)) (do return f (← r)) :=
  performs.bind fun value => pure (f value)

theorem ite {condition : Prop} [Decidable condition] {yes no : Action α} {yes' no' : Reader α}
    (performs : Performs depth yes yes') (otherwise : Performs depth no no') :
    Performs depth (if condition then yes else no) (if condition then yes' else no') := by
  split
  · exact performs
  · exact otherwise

theorem peekKind : Performs depth Reader.peekKind Reader.peekKind := peek.map

theorem accept (k : Kind) : Performs depth (Reader.accept k) (Reader.accept k) :=
  peekKind.bind fun _ => ite advance.map (pure none)

theorem expect (k : Kind) (place : Place) :
    Performs depth (Reader.expect k place) (Reader.expect k place) := by
  refine (accept k).bind fun found => ?_
  cases found with
  | some t => exact pure t
  | none => exact fail _

variable {expr operand : Action Expr} {expr' operand' : Reader Expr} {stmt : Action Stmt}
  {stmt' : Reader Stmt}

/-! ### Expressions -/

theorem literal : Performs depth Reader.literal Reader.literal := by
  refine peek.bind fun t => ?_
  cases t.literal with
  | some value => exact advance.map
  | none => exact fail _

theorem nextArgument (inside : Performs depth expr expr') :
    Performs depth (Reader.nextArgument expr) (Reader.nextArgument expr') := by
  refine (accept .comma).bind fun found => ?_
  cases found with
  | some => exact inside.map
  | none => exact pure none

theorem arguments (inside : Performs depth expr expr') :
    Performs depth (Reader.arguments expr) (Reader.arguments expr') := by
  refine peekKind.bind fun kind => ite (pure []) ?_
  exact inside.bind fun _ => inside.nextArgument.many.map

theorem callOf (inside : Performs depth expr expr') (callee : Token) :
    Performs depth (Reader.callOf expr callee) (Reader.callOf expr' callee) :=
  (expect _ _).bind fun _ => inside.arguments.bind fun _ => (expect _ _).map

theorem nextIndex (inside : Performs depth expr expr') :
    Performs depth (Reader.nextIndex expr) (Reader.nextIndex expr') := by
  refine (accept .leftBracket).bind fun found => ?_
  cases found with
  | some => exact inside.bind fun _ => (expect _ _).map
  | none => exact pure none

theorem indexOf (inside : Performs depth expr expr') (name : Token) :
    Performs depth (Reader.indexOf expr name) (Reader.indexOf expr' name) :=
  inside.nextIndex.many.map

theorem nameUse (inside : Performs depth expr expr') :
    Performs depth (Reader.nameUse expr) (Reader.nameUse expr') := by
  refine advance.bind fun name => peekKind.bind fun _ => ?_
  exact ite (inside.callOf name) (ite (inside.indexOf name) (pure _))

theorem group (inside : Performs depth expr expr') :
    Performs depth (Reader.group expr) (Reader.group expr') :=
  advance.bind fun _ => inside.bind fun _ => (expect _ _).map

theorem primary (inside : Performs depth expr expr') :
    Performs depth (Reader.primary expr) (Reader.primary expr') :=
  peekKind.bind fun _ => ite literal (ite inside.nameUse (ite inside.group (fail _)))

theorem operandWith (operands : Performs depth operand operand') (inside : Performs depth expr expr') :
    Performs depth (Reader.operandWith operand expr) (Reader.operandWith operand' expr') := by
  refine peekKind.bind fun kind => ?_
  cases UnOp.ofKind? kind with
  | some op => exact advance.bind fun _ => operands.map
  | none => exact inside.primary

theorem nextOperand (level : Precedence) (operands : Performs depth operand operand') :
    Performs depth (Reader.nextOperand level operand) (Reader.nextOperand level operand') := by
  refine peekKind.bind fun kind => ?_
  cases BinOp.ofKind? kind with
  | some op => exact ite (advance.bind fun _ => operands.map) (pure none)
  | none => exact pure none

theorem chain (level : Precedence) (operands : Performs depth operand operand') :
    Performs depth (Reader.chain level operand) (Reader.chain level operand') :=
  operands.bind fun _ => (operands.nextOperand level).many.map

theorem chains (operands : Performs depth operand operand') :
    Performs depth (Reader.chains operand) (Reader.chains operand') := by
  unfold Reader.chains
  induction Precedence.all with
  | nil => exact operands
  | cons level _ ih => exact ih.chain level

/-! ### Declarations -/

theorem typeWord (place : TypePlace) :
    Performs depth (Reader.typeWord place) (Reader.typeWord place) := by
  refine peekKind.bind fun kind => ?_
  cases TypeKind.ofKind? kind with
  | some type => exact advance.map
  | none => exact fail _

theorem nextDimension (inside : Performs depth expr expr') :
    Performs depth (Reader.nextDimension expr) (Reader.nextDimension expr') := by
  refine (accept .leftBracket).bind fun opened => ?_
  cases opened with
  | none => exact pure none
  | some =>
    refine (accept .rightBracket).bind fun closed => ?_
    cases closed with
    | some => exact pure _
    | none => exact inside.bind fun _ => (expect _ _).map

theorem declaredType (keyword : Token) :
    Performs depth (Reader.declaredType keyword) (Reader.declaredType keyword) :=
  ite (expect _ _).map (typeWord _)

theorem initialValue (inside : Performs depth expr expr') :
    Performs depth (Reader.initialValue expr) (Reader.initialValue expr') := by
  refine (accept .assign).bind fun found => ?_
  cases found with
  | some => exact inside.map
  | none => exact pure none

theorem varDecl (inside : Performs depth expr expr') :
    Performs depth (Reader.varDecl expr) (Reader.varDecl expr') := by
  refine advance.bind fun keyword => (declaredType keyword).bind fun _ => ?_
  refine (expect _ _).bind fun _ => inside.nextDimension.many.bind fun _ => ?_
  exact inside.initialValue.bind fun _ => (expect _ _).map

/-! ### Statements -/

theorem nextStatement (within : Performs depth stmt stmt') (close : Kind) :
    Performs depth (Reader.nextStatement stmt close) (Reader.nextStatement stmt' close) :=
  peekKind.bind fun _ => ite (pure none) within.map

theorem block (within : Performs depth stmt stmt') (place : Place) :
    Performs depth (Reader.block stmt place) (Reader.block stmt' place) :=
  (expect _ _).bind fun _ => (within.nextStatement _).many.bind fun _ => (expect _ _).map

theorem builtinArgument (inside : Performs depth expr expr') (keyword : Token) :
    Performs depth (Reader.builtinArgument expr keyword) (Reader.builtinArgument expr' keyword) :=
  ite (expect _ _).map inside

theorem builtinCall (inside : Performs depth expr expr') :
    Performs depth (Reader.builtinCall expr) (Reader.builtinCall expr') := by
  refine advance.bind fun keyword => (expect _ _).bind fun _ => ?_
  refine (inside.builtinArgument keyword).bind fun _ => (expect _ _).bind fun _ => ?_
  exact (expect _ _).map

theorem condition (inside : Performs depth expr expr') (word : Kind) :
    Performs depth (Reader.condition expr word) (Reader.condition expr' word) :=
  (expect _ _).bind fun _ => inside.bind fun _ => (expect _ _).map

theorem alternative (within : Performs depth stmt stmt') :
    Performs depth (Reader.alternative stmt) (Reader.alternative stmt') := by
  refine (accept .elseWord).bind fun found => ?_
  cases found with
  | some => exact (within.block _).map
  | none => exact pure none

theorem branch (within : Performs depth stmt stmt') (inside : Performs depth expr expr') :
    Performs depth (Reader.branch stmt expr) (Reader.branch stmt' expr') := by
  refine advance.bind fun _ => (inside.condition _).bind fun _ => ?_
  exact (within.block _).bind fun _ => within.alternative.map

theorem loop (within : Performs depth stmt stmt') (inside : Performs depth expr expr') :
    Performs depth (Reader.loop stmt expr) (Reader.loop stmt' expr') :=
  advance.bind fun _ => (inside.condition _).bind fun _ => within.map

theorem result (inside : Performs depth expr expr') :
    Performs depth (Reader.result expr) (Reader.result expr') :=
  advance.bind fun _ => inside.bind fun _ => (expect _ _).map

theorem assignTo (inside : Performs depth expr expr') (target : Expr) (otherwise : Cause) :
    Performs depth (Reader.assignTo expr target otherwise) (Reader.assignTo expr' target otherwise) := by
  refine (accept .assign).bind fun found => ?_
  cases found with
  | none => exact fail _
  | some => exact inside.bind fun _ => (expect _ _).map

theorem nameStatement (inside : Performs depth expr expr') :
    Performs depth (Reader.nameStatement expr) (Reader.nameStatement expr') := by
  refine advance.bind fun name => peekKind.bind fun _ => ite ?_ (ite ?_ (inside.assignTo _ _))
  · exact (inside.callOf name).bind fun _ => (expect _ _).map
  · exact (inside.indexOf name).bind fun target => inside.assignTo target _

theorem statementWith (within : Performs depth stmt stmt') (inside : Performs depth expr expr') :
    Performs depth (Reader.statementWith stmt expr) (Reader.statementWith stmt' expr') := by
  refine peekKind.bind fun kind => ?_
  cases kind with
  | leftBrace => exact (within.block _).map
  | varWord | varCharWord => exact inside.varDecl.map
  | printWord | readWord | encryptWord | decryptWord => exact inside.builtinCall
  | ifWord => exact within.branch inside
  | whileWord => exact within.loop inside
  | returnWord => exact inside.result
  | semicolon => exact advance.map
  | ident => exact inside.nameStatement
  | _ => exact fail _

/-! ### Programs -/

theorem param : Performs depth Reader.param Reader.param :=
  (typeWord _).bind fun _ => (expect _ _).map

theorem nextParam : Performs depth Reader.nextParam Reader.nextParam := by
  refine (accept .comma).bind fun found => ?_
  cases found with
  | some => exact param.map
  | none => exact pure none

theorem params : Performs depth Reader.params Reader.params := by
  refine peekKind.bind fun kind => ite (pure []) ?_
  exact param.bind fun _ => nextParam.many.map

theorem function (within : Performs depth stmt stmt') :
    Performs depth (Reader.function stmt) (Reader.function stmt') := by
  refine (typeWord _).bind fun _ => (expect _ _).bind fun _ => (expect _ _).bind fun _ => ?_
  exact params.bind fun _ => (expect _ _).bind fun _ => (within.block _).map

theorem nextFunction (within : Performs depth stmt stmt') :
    Performs depth (Reader.nextFunction stmt) (Reader.nextFunction stmt') :=
  peekKind.bind fun _ => ite within.function.map (pure none)

theorem nextVariable (inside : Performs depth expr expr') :
    Performs depth (Reader.nextVariable expr) (Reader.nextVariable expr') :=
  peekKind.bind fun _ => ite inside.varDecl.map (pure none)

theorem entryBlock (within : Performs depth stmt stmt') :
    Performs depth (Reader.entryBlock stmt) (Reader.entryBlock stmt') := by
  refine (expect _ _).bind fun _ => (within.nextStatement _).many.bind fun _ => ?_
  exact (expect _ _).bind fun _ => (expect _ _).map

theorem atEnd (cause : Cause) : Performs depth (Reader.atEnd cause) (Reader.atEnd cause) :=
  peekKind.bind fun _ => ite (pure ()) (fail cause)

theorem programWith (within : Performs depth stmt stmt') (inside : Performs depth expr expr') :
    Performs depth (Reader.programWith stmt expr) (Reader.programWith stmt' expr') := by
  refine within.nextFunction.many.bind fun _ => inside.nextVariable.many.bind fun _ => ?_
  exact within.entryBlock.bind fun _ => (atEnd _).map

theorem whole {action : Action α} {r : Reader α} (performs : Performs depth action r) :
    Performs depth (Reader.whole action) (Reader.whole r) :=
  performs.bind fun _ => (atEnd _).map

theorem readWith (within : Performs depth stmt stmt') (inside : Performs depth expr expr')
    (goal : Goal) : Performs depth (goal.readWith stmt expr) (goal.readWith stmt' expr') := by
  cases goal with
  | program => exact (within.programWith inside).map
  | statement => exact within.whole.map
  | expression => exact inside.whole.map

end Performs

/-! ### Levels -/

variable {depth : Nat}

theorem performs_operand (levels : Nat) (all : depth + levels = nestingLimit) :
    Performs depth (operand levels) (Reader.operand levels) := by
  induction levels generalizing depth with
  | zero =>
    have full : nestingLimit ≤ depth := Nat.le_of_eq all.symm
    exact .operandWith (.nested_full full) (.nested_full full)
  | succ levels ih =>
    -- The parts inside are one level deeper, with one level less to open.
    have deeper : Performs (depth + 1) (operand levels) (Reader.operand levels) := ih (by omega)
    have room : depth < nestingLimit := by omega
    exact .operandWith (.nested_room room deeper) (.nested_room room deeper.chains)

theorem performs_expression (levels : Nat) (all : depth + levels = nestingLimit) :
    Performs depth (expression levels) (Reader.expression levels) := by
  cases levels with
  | zero =>
    have full : nestingLimit ≤ depth := Nat.le_of_eq all.symm
    unfold expression Reader.expression
    exact .nested_full full
  | succ levels => exact .nested_room (by omega) (performs_operand levels (by omega)).chains

theorem performs_statement (levels : Nat) (all : depth + levels = nestingLimit) :
    Performs depth (statement levels) (Reader.statement levels) := by
  induction levels generalizing depth with
  | zero =>
    have full : nestingLimit ≤ depth := Nat.le_of_eq all.symm
    exact .nested_full full
  | succ levels ih =>
    have within : Performs (depth + 1) (statement levels) (Reader.statement levels) := ih (by omega)
    have inside : Performs (depth + 1) (expression levels) (Reader.expression levels) :=
      performs_expression levels (by omega)
    exact .nested_room (by omega) (within.statementWith inside)

/-- A call in a session without open levels reads the tokens left. -/
theorem performs_call (goal : Goal) : Performs 0 (call goal) goal.reader :=
  .readWith (performs_statement nestingLimit (Nat.zero_add _))
    (performs_expression nestingLimit (Nat.zero_add _)) goal

end GameLang.Session
