import GameLang.Proofs.Viability.Basic
import GameLang.Reader.Goal

/-!
# What syntax errors say is true

An error blames the token where reading stopped: it is not of the kind that is missing, starts no
statement where one is expected, is a literal without a value, and so on (`Cause.HoldsOf`). What is
true of the readers inside a reader is true of the reader, so that it is true of all errors
(`Goal.holdsOf_of_fail`).
-/

namespace GameLang

def Kind.startsStatement : Kind → Bool
  | leftBrace | varWord | varCharWord | printWord | readWord | encryptWord | decryptWord | ifWord
  | whileWord | returnWord | semicolon | ident => true
  | _ => false

def Kind.startsExpression (k : Kind) : Bool :=
  k.isLiteral || k = .ident || k = .leftParen || k = .minus || k = .bang

/-- What a cause says about the token found. -/
def Cause.HoldsOf (t : Token) : Cause → Prop
  | .missing k _ => t.kind ≠ k
  | .missingType _ => t.kind.isTypeWord = false
  | .missingStatement => t.kind.startsStatement = false
  | .missingExpression => t.kind.startsExpression = false
  | .missingUse => t.kind ≠ .assign
  | .trailing => t.kind ≠ .eof
  | .missingValue => t.kind.isLiteral = true ∧ t.literal = none
  | .nestingTooDeep => True

namespace Reader

variable {α β : Type} {ts rest : List Token} {cause : Cause}

/-- Where a reader fails on some tokens, its cause holds of the token where it stopped. -/
def TruthfulAt (r : Reader α) (ts : List Token) : Prop :=
  ∀ cause rest, r ts = .fail cause rest → cause.HoldsOf (current rest)

def Truthful (r : Reader α) : Prop := ∀ ts, r.TruthfulAt ts

/-! ### Steps -/

theorem truthful_pure (v : α) : Truthful (pure v : Reader α) := by
  intro ts cause rest h
  cases h

theorem truthfulAt_fail (holds : cause.HoldsOf (current ts)) :
    TruthfulAt (fail cause : Reader α) ts := by
  intro other rest h
  cases h
  exact holds

theorem tooDeep_truthful : Truthful (tooDeep : Reader α) := fun _ => truthfulAt_fail trivial

theorem Truthful.bind {r : Reader α} {next : α → Reader β} (first : r.Truthful)
    (second : ∀ v, (next v).Truthful) : (r >>= next).Truthful := by
  intro ts cause rest h
  rcases bind_fail h with stopped | ⟨v, mid, -, went⟩
  · exact first ts cause rest stopped
  · exact second v mid cause rest went

theorem Truthful.map {r : Reader α} {f : α → β} (truthful : r.Truthful) :
    Truthful (do return f (← r)) := truthful.bind fun v => truthful_pure (f v)

theorem truthful_ite {condition : Prop} [Decidable condition] {yes no : Reader α}
    (truthful : yes.Truthful) (otherwise : no.Truthful) :
    Truthful (if condition then yes else no) := by
  split
  · exact truthful
  · exact otherwise

/-- What is read on after a look at the next kind may be blamed on it. -/
theorem truthful_peekKind {next : Kind → Reader β}
    (truthful : ∀ ts, (next (current ts).kind).TruthfulAt ts) : (peekKind >>= next).Truthful :=
  fun ts _ _ h => truthful ts _ _ (peekKind_bind_fail h)

theorem truthful_peekKind_bind {next : Kind → Reader β} (truthful : ∀ k, (next k).Truthful) :
    (peekKind >>= next).Truthful := truthful_peekKind fun ts => truthful _ ts

theorem advance_truthful : Truthful advance := fun _ _ _ h => (advance_ne_fail h).elim

/-- Without the token that was looked for, the next one is of another kind. -/
theorem truthful_accept {k : Kind} {next : Option Token → Reader β}
    (found : ∀ t, (next (some t)).Truthful)
    (absent : ∀ ts, (current ts).kind ≠ k → (next none).TruthfulAt ts) :
    (accept k >>= next).Truthful := by
  intro ts cause rest h
  rcases bind_fail h with stopped | ⟨t, mid, accepted, went⟩
  · exact (accept_ne_fail stopped).elim
  cases t with
  | some t => exact found t mid cause rest went
  | none =>
    obtain ⟨different, rfl⟩ := accept_none accepted
    exact absent mid different cause rest went

/-- Where a token is looked for and need not be there. -/
theorem truthful_accept_bind {k : Kind} {next : Option Token → Reader β}
    (truthful : ∀ found, (next found).Truthful) : (accept k >>= next).Truthful :=
  truthful_accept (fun t => truthful (some t)) fun ts _ => truthful none ts

theorem expect_truthful (k : Kind) (place : Place) : Truthful (expect k place) :=
  truthful_accept (fun t => truthful_pure t) fun _ different => truthfulAt_fail different

theorem many_truthful {r : Reader (Option α)} (round : r.Truthful) : Truthful (many r) := by
  suffices all : ∀ bound read, Truthful (repeatFrom r bound read) from fun ts => all ts [] ts
  intro bound
  induction bound with
  | nil => intro read ts cause rest h; cases h
  | cons t bound ih =>
    intro read ts cause rest h
    unfold repeatFrom at h
    split at h
    · exact ih _ _ _ _ h
    · cases h
    · rename_i stopped
      cases h
      exact round _ _ _ stopped

variable {expr operand : Reader Expr} {stmt : Reader Stmt}

/-! ### Expressions -/

theorem literal_truthfulAt (isLiteral : (current ts).kind.isLiteral = true) :
    TruthfulAt literal ts := by
  intro cause rest h
  unfold literal at h
  rcases bind_fail h with stopped | ⟨t, mid, peeked, went⟩
  · cases stopped
  obtain ⟨rfl, rfl⟩ := peek_ok peeked
  cases found : (current ts).literal with
  | some value =>
    rw [found] at went
    exact (advance_ne_fail (map_fail went)).elim
  | none =>
    rw [found] at went
    cases went
    exact ⟨isLiteral, found⟩

theorem nextArgument_truthful (inside : expr.Truthful) : Truthful (nextArgument expr) := by
  refine truthful_accept_bind fun found => ?_
  cases found with
  | some => exact inside.map
  | none => exact truthful_pure none

theorem callOf_truthful (inside : expr.Truthful) (callee : Token) :
    Truthful (callOf expr callee) := by
  have arguments : Truthful (arguments expr) := by
    refine truthful_peekKind_bind fun _ => truthful_ite (truthful_pure []) ?_
    exact inside.bind fun _ => (many_truthful (nextArgument_truthful inside)).map
  exact (expect_truthful _ _).bind fun _ => arguments.bind fun _ => (expect_truthful _ _).map

theorem indexOf_truthful (inside : expr.Truthful) (name : Token) : Truthful (indexOf expr name) := by
  refine (many_truthful (truthful_accept_bind fun found => ?_)).map
  cases found with
  | some => exact inside.bind fun _ => (expect_truthful _ _).map
  | none => exact truthful_pure none

theorem primary_truthfulAt (inside : expr.Truthful) (plain : UnOp.ofKind? (current ts).kind = none) :
    TruthfulAt (primary expr) ts := by
  intro cause rest h
  have went := peekKind_bind_fail h
  split at went
  · rename_i isLiteral
    exact literal_truthfulAt isLiteral _ _ went
  rename_i notLiteral
  split at went
  · refine advance_truthful.bind (fun name => truthful_peekKind_bind fun kind => ?_) ts _ _ went
    exact truthful_ite (callOf_truthful inside name)
      (truthful_ite (indexOf_truthful inside name) (truthful_pure _))
  rename_i notName
  split at went
  · exact advance_truthful.bind (fun _ => inside.bind fun _ => (expect_truthful _ _).map) ts _ _ went
  rename_i notOpener
  refine truthfulAt_fail ?_ cause rest went
  unfold Cause.HoldsOf Kind.startsExpression
  revert plain notLiteral notName notOpener
  cases (current ts).kind <;> simp [UnOp.ofKind?, Kind.isLiteral]

theorem operandWith_truthful (inner : operand.Truthful) (inside : expr.Truthful) :
    Truthful (operandWith operand expr) := by
  refine truthful_peekKind fun ts => ?_
  cases found : UnOp.ofKind? (current ts).kind with
  | some op => exact advance_truthful.bind (fun _ => inner.map) ts
  | none => exact primary_truthfulAt inside found

theorem chain_truthful (level : Precedence) (inner : operand.Truthful) :
    Truthful (chain level operand) := by
  refine inner.bind fun _ => (many_truthful (truthful_peekKind_bind fun kind => ?_)).map
  cases BinOp.ofKind? kind with
  | some op => exact truthful_ite (advance_truthful.bind fun _ => inner.map) (truthful_pure none)
  | none => exact truthful_pure none

theorem chains_truthful (inner : operand.Truthful) : Truthful (chains operand) :=
  chain_truthful _ (chain_truthful _ (chain_truthful _ (chain_truthful _ (chain_truthful _
    (chain_truthful _ inner)))))

theorem operand_truthful (levels : Nat) : Truthful (Reader.operand levels) := by
  induction levels with
  | zero => exact operandWith_truthful tooDeep_truthful tooDeep_truthful
  | succ levels ih => exact operandWith_truthful ih (chains_truthful ih)

theorem expression_truthful (levels : Nat) : Truthful (expression levels) := by
  cases levels with
  | zero => exact tooDeep_truthful
  | succ levels => exact chains_truthful (operand_truthful levels)

/-! ### Declarations -/

theorem typeWord_truthful (place : TypePlace) : Truthful (typeWord place) := by
  refine truthful_peekKind fun ts => ?_
  cases found : TypeKind.ofKind? (current ts).kind with
  | some kind => exact advance_truthful.map ts
  | none =>
    refine truthfulAt_fail ?_
    unfold Cause.HoldsOf
    revert found
    cases (current ts).kind <;> simp [TypeKind.ofKind?, Kind.isTypeWord]

theorem nextDimension_truthful (inside : expr.Truthful) : Truthful (nextDimension expr) := by
  refine truthful_accept_bind fun opened => ?_
  cases opened with
  | none => exact truthful_pure none
  | some =>
    refine truthful_accept_bind fun closed => ?_
    cases closed with
    | some => exact truthful_pure _
    | none => exact inside.bind fun _ => (expect_truthful _ _).map

theorem varDecl_truthful (inside : expr.Truthful) : Truthful (varDecl expr) := by
  have initial : Truthful (initialValue expr) := by
    refine truthful_accept_bind fun found => ?_
    cases found with
    | some => exact inside.map
    | none => exact truthful_pure none
  refine advance_truthful.bind fun keyword => ?_
  refine Truthful.bind (truthful_ite (expect_truthful _ _).map (typeWord_truthful _)) fun _ => ?_
  refine (expect_truthful _ _).bind fun _ => ?_
  refine (many_truthful (nextDimension_truthful inside)).bind fun _ => ?_
  exact initial.bind fun _ => (expect_truthful _ _).map

/-! ### Statements -/

theorem nextStatement_truthful (within : stmt.Truthful) (close : Kind) :
    Truthful (nextStatement stmt close) :=
  truthful_peekKind_bind fun _ => truthful_ite (truthful_pure none) within.map

theorem block_truthful (within : stmt.Truthful) (place : Place) : Truthful (block stmt place) := by
  refine (expect_truthful _ _).bind fun _ => ?_
  exact (many_truthful (nextStatement_truthful within _)).bind fun _ => (expect_truthful _ _).map

theorem builtinCall_truthful (inside : expr.Truthful) : Truthful (builtinCall expr) := by
  refine advance_truthful.bind fun keyword => (expect_truthful _ _).bind fun _ => ?_
  refine Truthful.bind (truthful_ite (expect_truthful _ _).map inside) fun _ => ?_
  exact (expect_truthful _ _).bind fun _ => (expect_truthful _ _).map

theorem condition_truthful (inside : expr.Truthful) (word : Kind) : Truthful (condition expr word) :=
  (expect_truthful _ _).bind fun _ => inside.bind fun _ => (expect_truthful _ _).map

theorem branch_truthful (within : stmt.Truthful) (inside : expr.Truthful) :
    Truthful (branch stmt expr) := by
  refine advance_truthful.bind fun _ => (condition_truthful inside _).bind fun _ => ?_
  refine (block_truthful within _).bind fun _ => Truthful.map ?_
  refine truthful_accept_bind fun found => ?_
  cases found with
  | some => exact (block_truthful within _).map
  | none => exact truthful_pure none

theorem assignTo_truthful (inside : expr.Truthful) (target : Expr)
    (holds : ∀ t : Token, t.kind ≠ .assign → cause.HoldsOf t) :
    Truthful (assignTo expr target cause) :=
  truthful_accept (fun _ => inside.bind fun _ => (expect_truthful _ _).map)
    fun _ different => truthfulAt_fail (holds _ different)

theorem nameStatement_truthful (inside : expr.Truthful) : Truthful (nameStatement expr) := by
  refine advance_truthful.bind fun name => truthful_peekKind_bind fun kind => truthful_ite ?_ ?_
  · exact (callOf_truthful inside name).bind fun _ => (expect_truthful _ _).map
  · refine truthful_ite ?_ (assignTo_truthful inside _ fun _ => id)
    exact (indexOf_truthful inside name).bind fun _ => assignTo_truthful inside _ fun _ => id

theorem statementWith_truthful (within : stmt.Truthful) (inside : expr.Truthful) :
    Truthful (statementWith stmt expr) := by
  refine truthful_peekKind fun ts => ?_
  cases next : (current ts).kind with
  | leftBrace => exact (block_truthful within _).map ts
  | varWord | varCharWord => exact (varDecl_truthful inside).map ts
  | printWord | readWord | encryptWord | decryptWord => exact builtinCall_truthful inside ts
  | ifWord => exact branch_truthful within inside ts
  | whileWord =>
    exact advance_truthful.bind (fun _ => (condition_truthful inside _).bind fun _ => within.map) ts
  | returnWord =>
    exact advance_truthful.bind (fun _ => inside.bind fun _ => (expect_truthful _ _).map) ts
  | semicolon => exact advance_truthful.map ts
  | ident => exact nameStatement_truthful inside ts
  | _ => exact truthfulAt_fail (congrArg Kind.startsStatement next)

theorem statement_truthful (levels : Nat) : Truthful (statement levels) := by
  induction levels with
  | zero => exact tooDeep_truthful
  | succ levels ih => exact statementWith_truthful ih (expression_truthful levels)

/-! ### Programs -/

theorem param_truthful : Truthful param :=
  (typeWord_truthful _).bind fun _ => (expect_truthful _ _).map

theorem params_truthful : Truthful params := by
  refine truthful_peekKind_bind fun _ => truthful_ite (truthful_pure []) ?_
  refine param_truthful.bind fun _ => (many_truthful (truthful_accept_bind fun found => ?_)).map
  cases found with
  | some => exact param_truthful.map
  | none => exact truthful_pure none

theorem function_truthful (within : stmt.Truthful) : Truthful (function stmt) := by
  refine (typeWord_truthful _).bind fun _ => (expect_truthful _ _).bind fun _ => ?_
  refine (expect_truthful _ _).bind fun _ => params_truthful.bind fun _ => ?_
  exact (expect_truthful _ _).bind fun _ => (block_truthful within _).map

theorem atEnd_truthful (holds : ∀ t : Token, t.kind ≠ .eof → cause.HoldsOf t) :
    Truthful (atEnd cause) := by
  refine truthful_peekKind fun ts => ?_
  split
  · exact truthful_pure () ts
  · rename_i more
    exact truthfulAt_fail (holds _ more)

theorem program_truthful (levels : Nat) : Truthful (program levels) := by
  have within := statement_truthful levels
  have functions : Truthful (nextFunction (statement levels)) :=
    truthful_peekKind_bind fun _ => truthful_ite (function_truthful within).map (truthful_pure none)
  have vars : Truthful (nextVariable (expression levels)) := truthful_peekKind_bind fun _ =>
    truthful_ite (varDecl_truthful (expression_truthful levels)).map (truthful_pure none)
  have entry : Truthful (entryBlock (statement levels)) := (expect_truthful _ _).bind fun _ =>
    (many_truthful (nextStatement_truthful within .endWord)).bind fun _ =>
    (expect_truthful _ _).bind fun _ => (expect_truthful _ _).map
  refine (many_truthful functions).bind fun _ => (many_truthful vars).bind fun _ => ?_
  exact entry.bind fun _ => (atEnd_truthful fun _ => id).map

theorem whole_truthful {r : Reader α} (inside : r.Truthful) : Truthful (whole r) :=
  inside.bind fun _ => (atEnd_truthful fun _ => id).map

end Reader

/-- What an error says is true of the token where reading stopped. -/
theorem Goal.holdsOf_of_fail {goal : Goal} {levels : Nat} {ts rest : List Token} {cause : Cause}
    (failed : goal.within levels ts = .fail cause rest) : cause.HoldsOf (Reader.current rest) := by
  suffices truthful : (goal.within levels).Truthful from truthful _ _ _ failed
  cases goal with
  | program => exact (Reader.program_truthful levels).map
  | statement => exact (Reader.whole_truthful (Reader.statement_truthful levels)).map
  | expression => exact (Reader.whole_truthful (Reader.expression_truthful levels)).map

end GameLang
