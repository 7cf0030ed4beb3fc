import GameLang.Proofs.Completeness.Basic

/-!
# Expressions are read as they are written

Every expression of the grammar is read back from its tokens, if there are levels enough for its
depth and what follows cannot continue it (`expression_accepts`). What can continue an operand
depends on the level at which it is read, so the statement is about a level, and the readers of the
levels hand it on to one another.
-/

namespace GameLang

/-! ### How expressions start and what may follow them -/

/-- The kinds at which an expression can start. -/
def Kind.opensExpr (k : Kind) : Bool :=
  k.isLiteral || k = .ident || k = .leftParen || k = .minus || k = .bang

/-- Tokens that cannot continue an expression whose operators are from a level on. -/
def Stops (level : Nat) (rest : List Token) : Prop :=
  (Reader.current rest).kind ≠ .leftParen ∧ (Reader.current rest).kind ≠ .leftBracket ∧
    ∀ op, BinOp.ofKind? (Reader.current rest).kind = some op → op.precedence.rank < level

theorem Stops.mono {level higher : Nat} {rest : List Token} (stops : Stops level rest)
    (le : level ≤ higher) : Stops higher rest :=
  ⟨stops.1, stops.2.1, fun op found => Nat.lt_of_lt_of_le (stops.2.2 op found) le⟩

/-- A token that is no operator and no opening bracket stops every expression. -/
theorem stops_cons {t : Token} {k : Kind} (level : Nat) (rest : List Token) (same : t.kind = k)
    (closes : k ∈ [.rightParen, .rightBracket, .comma, .semicolon, .assign, .eof]) :
    Stops level (t :: rest) := by
  subst same
  simp only [List.mem_cons, List.not_mem_nil, or_false] at closes
  rcases closes with same | same | same | same | same | same <;>
    simp [Stops, Reader.current, same, BinOp.ofKind?]

theorem Expr.starts {e : Expr} {us : List Token} (formed : e.Formed) (written : Written e.yield us) :
    ∃ t back, us = t :: back ∧ t.kind.opensExpr = true := by
  induction e using Expr.induction generalizing us with
  | literal t v =>
    obtain ⟨back, rfl, -⟩ := written_token_iff.mp written
    exact ⟨t, back, rfl, by simp [Kind.opensExpr, (formed_literal.mp formed).1]⟩
  | ident t =>
    obtain ⟨back, rfl, -⟩ := written_token_iff.mp written
    exact ⟨t, back, rfl, by simp [Kind.opensExpr, formed_ident.mp formed]⟩
  | index t es _ =>
    obtain ⟨back, rfl, -⟩ := written_token_iff.mp written
    exact ⟨t, back, rfl, by simp [Kind.opensExpr, (formed_index.mp formed).1]⟩
  | group e _ =>
    obtain ⟨t, back, rfl, same, -⟩ := written_kind_iff.mp written
    exact ⟨t, back, rfl, by simp [Kind.opensExpr, same]⟩
  | call t es _ =>
    obtain ⟨back, rfl, -⟩ := written_token_iff.mp written
    exact ⟨t, back, rfl, by simp [Kind.opensExpr, (formed_call.mp formed).1]⟩
  | unary op t e _ =>
    obtain ⟨back, rfl, -⟩ := written_token_iff.mp written
    obtain ⟨⟨same, -⟩ | ⟨same, -⟩, -⟩ := (formed_unary.mp formed).1
    · exact ⟨t, back, rfl, by simp [Kind.opensExpr, same]⟩
    · exact ⟨t, back, rfl, by simp [Kind.opensExpr, same]⟩
  | binary l op t r ihl _ =>
    obtain ⟨us, vs, rfl, left, -⟩ := written_append_iff.mp written
    obtain ⟨first, back, rfl, opens⟩ := ihl (formed_binary.mp formed).2.1 left
    exact ⟨first, back ++ vs, rfl, opens⟩

theorem Expr.current_ne {e : Expr} {us rest : List Token} {k : Kind} (formed : e.Formed)
    (written : Written e.yield us) (closes : k.opensExpr = false) :
    (Reader.current (us ++ rest)).kind ≠ k := by
  obtain ⟨t, back, rfl, opens⟩ := e.starts formed written
  rintro rfl
  exact absurd opens (Bool.eq_false_iff.mp closes)

theorem current_indexYield {indices : List Expr} {us : List Token} (some : indices ≠ [])
    (written : Written (Expr.indexYield indices) us) (rest : List Token) :
    (Reader.current (us ++ rest)).kind = .leftBracket := by
  cases indices with
  | nil => exact (some rfl).elim
  | cons e es => exact written.current_kind rest

namespace Reader

/-- A reader takes every expression of the grammar whose operators are from a level on and whose
depth is below `levels`, in front of tokens that cannot continue it. -/
def AcceptsFrom (level levels : Nat) (r : Reader Expr) : Prop :=
  ∀ e us rest, e.Formed → e.BindsFrom level → Written e.yield us → Stops level rest →
    Accepts (e.depth < levels) r us rest e

theorem tooDeep_accepts {level : Nat} : AcceptsFrom level 0 tooDeep := by
  intro e us rest formed _ written _
  obtain ⟨t, back, rfl, -⟩ := e.starts formed written
  exact ⟨fun never => absurd never (Nat.not_lt_zero _), fun _ => ⟨[], t, back, rfl, rfl⟩⟩

/-! ### Operands -/

theorem literal_accepts {t : Token} {v : Literal} (formed : (Expr.literal t v).Formed)
    (rest : List Token) : Accepts True literal [t] rest (.literal t v) := by
  obtain ⟨isLiteral, value⟩ := Expr.formed_literal.mp formed
  have inside : t.kind ≠ .eof := by
    intro same
    rw [same] at isLiteral
    cases isLiteral
  unfold literal
  refine .peek ?_
  simp only [List.cons_append, current, value]
  exact .advance inside (.pure _ rest)

variable {expr : Reader Expr} {levels : Nat} {us rest : List Token}

theorem nextArgument_rounded (accepts : AcceptsFrom 0 levels expr) {args : List Expr}
    (formed : ∀ e ∈ args, e.Formed) :
    Rounded (nextArgument expr) (fun e => .kind .comma :: e.yield) (fun e => e.depth < levels)
      (Stops 0) args := by
  intro e member us rest written stops
  obtain ⟨comma, us, rfl, same, written⟩ := written_kind_iff.mp written
  refine ⟨by simp, stops_cons 0 _ same (by decide), ?_⟩
  unfold nextArgument
  exact .accept same (by decide)
    (accepts e us rest (formed e member) e.bindsFrom_zero written stops).map

/-- Arguments in front of the closing parenthesis. -/
theorem arguments_accepts (accepts : AcceptsFrom 0 levels expr) {args : List Expr}
    (formed : ∀ e ∈ args, e.Formed) (written : Written (Expr.argYield args) us)
    (closed : (current rest).kind = .rightParen) :
    Accepts (Expr.depthOf args ≤ levels) (arguments expr) us rest args := by
  refine .iff ?_ Expr.depthOf_le_iff.symm
  unfold arguments
  refine .peekKind ?_
  cases args with
  | nil =>
    obtain rfl := written_nil_iff.mp written
    rw [List.nil_append, if_pos closed]
    exact (Accepts.pure [] rest).iff (by simp)
  | cons e es =>
    obtain ⟨formedFirst, formedOthers⟩ := List.forall_mem_cons.mp formed
    rw [Expr.argYield, Expr.nextArgYield_eq_flatMap] at written
    obtain ⟨us, vs, rfl, first, others⟩ := written_append_iff.mp written
    have stops : Stops 0 rest := by
      cases rest with
      | nil => cases closed
      | cons t back => exact stops_cons 0 back closed (by decide)
    have done : nextArgument expr rest = .ok none rest := by
      unfold nextArgument
      rw [bind_of_ok (Accepts.accept_eq_none (by rw [closed]; decide))]
      rfl
    have rounded := nextArgument_rounded accepts formedOthers
    have opens : (current (us ++ (vs ++ rest))).kind ≠ .rightParen :=
      e.current_ne formedFirst first rfl
    rw [List.append_assoc, if_neg opens]
    have firstAccepts := accepts e us (vs ++ rest) formedFirst e.bindsFrom_zero first
      (rounded.followed stops others)
    refine .iff (firstAccepts.bind (many_accepts rounded stops done others).map) ?_
    rw [List.forall_mem_cons]

theorem callOf_accepts (accepts : AcceptsFrom 0 levels expr) {callee : Token} {args : List Expr}
    (formed : ∀ e ∈ args, e.Formed)
    (written : Written (.kind .leftParen :: (Expr.argYield args ++ [.kind .rightParen])) us) :
    Accepts (Expr.depthOf args ≤ levels) (callOf expr callee) us rest (.call callee args) := by
  obtain ⟨opener, us, rfl, opened, written⟩ := written_kind_iff.mp written
  obtain ⟨us, closer, rfl, inside, closed⟩ := written_append_kind_iff.mp written
  unfold callOf
  refine .expect opened (by decide) ?_
  have argsAccepts : Accepts _ _ us ([closer] ++ rest) args :=
    arguments_accepts accepts formed inside closed
  exact argsAccepts.before (.expect closed (by decide) (.pure _ rest))

theorem nextIndex_rounded (accepts : AcceptsFrom 0 levels expr) {indices : List Expr}
    (formed : ∀ e ∈ indices, e.Formed) :
    Rounded (nextIndex expr) (fun e => .kind .leftBracket :: (e.yield ++ [.kind .rightBracket]))
      (fun e => e.depth < levels) (fun _ => True) indices := by
  intro e member us rest written _
  obtain ⟨opener, us, rfl, opened, written⟩ := written_kind_iff.mp written
  obtain ⟨us, closer, rfl, inside, closed⟩ := written_append_kind_iff.mp written
  refine ⟨by simp, trivial, ?_⟩
  unfold nextIndex
  refine .accept opened (by decide) ?_
  have index : Accepts _ _ us ([closer] ++ rest) e := accepts e us _ (formed e member)
    e.bindsFrom_zero inside (stops_cons 0 rest closed (by decide))
  exact index.before (.expect closed (by decide) (.pure _ rest))

/-- Indices in front of a token that opens no further one. -/
theorem indexOf_accepts (accepts : AcceptsFrom 0 levels expr) {name : Token} {indices : List Expr}
    (formed : ∀ e ∈ indices, e.Formed) (written : Written (Expr.indexYield indices) us)
    (ended : (current rest).kind ≠ .leftBracket) :
    Accepts (Expr.depthOf indices ≤ levels) (indexOf expr name) us rest (.index name indices) := by
  rw [Expr.indexYield_eq_flatMap] at written
  have done : nextIndex expr rest = .ok none rest := by
    unfold nextIndex
    rw [bind_of_ok (Accepts.accept_eq_none ended)]
    rfl
  unfold indexOf
  exact (many_accepts (nextIndex_rounded accepts formed) trivial done written).map.iff
    Expr.depthOf_le_iff.symm

/-! ### Which reader an operand has -/

section Choice

variable {ts : List Token} (operand expr : Reader Expr)

theorem operandWith_of_literal (next : (current ts).kind.isLiteral = true) :
    operandWith operand expr ts = (literal : Reader Expr) ts := by
  have plain : UnOp.ofKind? (current ts).kind = none := by
    cases same : (current ts).kind <;> first | rfl | (rw [same] at next; cases next)
  unfold operandWith primary
  rw [bind_of_ok (r := peekKind) rfl, plain]
  dsimp only
  rw [bind_of_ok (r := peekKind) rfl, if_pos next]

theorem operandWith_of_name (next : (current ts).kind = .ident) :
    operandWith operand expr ts = nameUse expr ts := by
  unfold operandWith primary
  rw [bind_of_ok (r := peekKind) rfl, next]
  dsimp only [UnOp.ofKind?]
  rw [bind_of_ok (r := peekKind) rfl, next]
  rfl

theorem operandWith_of_paren (next : (current ts).kind = .leftParen) :
    operandWith operand expr ts = group expr ts := by
  unfold operandWith primary
  rw [bind_of_ok (r := peekKind) rfl, next]
  dsimp only [UnOp.ofKind?]
  rw [bind_of_ok (r := peekKind) rfl, next]
  rfl

end Choice

/-! ### Operands, one form after the other -/

theorem nameUse_call_accepts (accepts : AcceptsFrom 0 levels expr) {t : Token} {args : List Expr}
    (named : t.kind = .ident) (formed : ∀ e ∈ args, e.Formed)
    (written : Written (Expr.call t args).yield us) :
    Accepts (Expr.depthOf args ≤ levels) (nameUse expr) us rest (.call t args) := by
  obtain ⟨us, rfl, back⟩ := written_token_iff.mp written
  have opened := back.current_kind rest
  unfold nameUse
  refine .advance (by rw [named]; decide) (.peekKind ?_)
  rw [if_pos opened]
  exact callOf_accepts accepts formed back

theorem nameUse_index_accepts (accepts : AcceptsFrom 0 levels expr) {t : Token}
    {indices : List Expr} (named : t.kind = .ident) (some : indices ≠ [])
    (formed : ∀ e ∈ indices, e.Formed) (written : Written (Expr.index t indices).yield us)
    (ended : (current rest).kind ≠ .leftBracket) :
    Accepts (Expr.depthOf indices ≤ levels) (nameUse expr) us rest (.index t indices) := by
  obtain ⟨us, rfl, back⟩ := written_token_iff.mp written
  have opened := current_indexYield some back rest
  unfold nameUse
  refine .advance (by rw [named]; decide) (.peekKind ?_)
  rw [if_neg (by rw [opened]; decide), if_pos opened]
  exact indexOf_accepts accepts formed back ended

theorem nameUse_ident_accepts {t : Token} (named : t.kind = .ident) (stops : Stops 6 rest) :
    Accepts True (nameUse expr) [t] rest (.ident t) := by
  unfold nameUse
  refine .advance (by rw [named]; decide) (.peekKind ?_)
  rw [List.nil_append, if_neg stops.1, if_neg stops.2.1]
  exact .pure _ rest

theorem group_accepts (accepts : AcceptsFrom 0 levels expr) {e : Expr} (formed : e.Formed)
    (written : Written (Expr.group e).yield us) :
    Accepts (e.depth < levels) (group expr) us rest (.group e) := by
  obtain ⟨opener, us, rfl, opened, written⟩ := written_kind_iff.mp written
  obtain ⟨us, closer, rfl, inside, closed⟩ := written_append_kind_iff.mp written
  unfold group
  refine .advance (by rw [opened]; decide) ?_
  have inner : Accepts _ _ us ([closer] ++ rest) e := accepts e us _ formed e.bindsFrom_zero inside
    (stops_cons 0 rest closed (by decide))
  exact inner.before (.expect closed (by decide) (.pure _ rest))

/-- One level more than inside it is enough for an operand. -/
theorem operandWith_accepts {operand : Reader Expr} (acceptsOperand : AcceptsFrom 6 levels operand)
    (accepts : AcceptsFrom 0 levels expr) :
    AcceptsFrom 6 (levels + 1) (operandWith operand expr) := by
  intro e us rest formed binds written stops
  have alone := Expr.operator?_eq_none_of_bindsFrom binds
  cases e with
  | literal t v =>
    obtain rfl := written_singleton_iff.mp written
    exact .of_eq (operandWith_of_literal operand expr (Expr.formed_literal.mp formed).1)
      ((literal_accepts formed rest).iff (by simp [Expr.depth]))
  | ident t =>
    obtain rfl := written_singleton_iff.mp written
    have named := Expr.formed_ident.mp formed
    exact .of_eq (operandWith_of_name operand expr named)
      ((nameUse_ident_accepts named stops).iff (by simp [Expr.depth]))
  | index t indices =>
    obtain ⟨named, some, formed⟩ := Expr.formed_index.mp formed
    have next : (current (us ++ rest)).kind = .ident :=
      (congrArg Token.kind (written.current_token rest)).trans named
    exact .of_eq (operandWith_of_name operand expr next)
      ((nameUse_index_accepts accepts named some formed written stops.2.1).iff
        Nat.lt_succ_iff.symm)
  | group e =>
    have next : (current (us ++ rest)).kind = .leftParen := written.current_kind rest
    exact .of_eq (operandWith_of_paren operand expr next)
      ((group_accepts accepts (Expr.formed_group.mp formed) written).iff Nat.succ_lt_succ_iff.symm)
  | call t args =>
    obtain ⟨named, formed⟩ := Expr.formed_call.mp formed
    have next : (current (us ++ rest)).kind = .ident :=
      (congrArg Token.kind (written.current_token rest)).trans named
    exact .of_eq (operandWith_of_name operand expr next)
      ((nameUse_call_accepts accepts named formed written).iff Nat.lt_succ_iff.symm)
  | unary op t e =>
    obtain ⟨us, rfl, back⟩ := written_token_iff.mp written
    obtain ⟨⟨kind, alone⟩, formed⟩ := Expr.formed_unary.mp formed
    have found : UnOp.ofKind? t.kind = some op ∧ t.kind ≠ .eof := by
      rcases kind with ⟨same, rfl⟩ | ⟨same, rfl⟩ <;> simp [same, UnOp.ofKind?]
    unfold operandWith
    refine .peekKind ?_
    simp only [List.cons_append, current, found.1]
    refine .advance found.2 ?_
    exact (acceptsOperand e us rest formed (Expr.bindsFrom_of_none 6 alone) back stops).map.iff
      Nat.succ_lt_succ_iff.symm
  | binary l op t r => cases alone

/-! ### Chains -/

theorem stops_operator {t : Token} {op : BinOp} {level : Nat} (rest : List Token)
    (found : BinOp.ofKind? t.kind = some op) (looser : op.precedence.rank < level) :
    Stops level (t :: rest) := by
  refine ⟨?_, ?_, ?_⟩
  · intro same
    rw [show t.kind = .leftParen from same] at found
    cases found
  · intro same
    rw [show t.kind = .leftBracket from same] at found
    cases found
  · intro other same
    obtain rfl := Option.some.inj (found.symm.trans same)
    exact looser

theorem nextOperand_rounded {level : Precedence} {operand : Reader Expr}
    (accepts : AcceptsFrom (level.rank + 1) levels operand) {links : List (BinOp × Token × Expr)}
    (good : ∀ link ∈ links, Expr.GoodLink level link) :
    Rounded (nextOperand level operand) Expr.linkYield (fun link => link.2.2.depth < levels)
      (Stops (level.rank + 1)) links := by
  rintro ⟨op, t, right⟩ member us rest written stops
  obtain ⟨same, found, formed, binds⟩ := good _ member
  obtain ⟨us, rfl, back⟩ := written_token_iff.mp written
  refine ⟨by simp, stops_operator _ found (by rw [same]; exact Nat.lt_succ_self _), ?_⟩
  have inside : t.kind ≠ .eof := by
    intro ended
    rw [ended] at found
    cases found
  unfold nextOperand
  refine .peekKind ?_
  simp only [List.cons_append, current, found, if_pos same]
  refine .advance inside ?_
  exact (accepts right us rest formed binds back stops).map

theorem nextOperand_done {level : Precedence} {operand : Reader Expr}
    (stops : Stops level.rank rest) : nextOperand level operand rest = .ok none rest := by
  unfold nextOperand
  rw [bind_of_ok (r := peekKind) rfl]
  cases found : BinOp.ofKind? (current rest).kind with
  | none => rfl
  | some op =>
    have looser := stops.2.2 op found
    have different : op.precedence ≠ level := by
      rintro rfl
      exact Nat.lt_irrefl _ looser
    dsimp only
    rw [if_neg different]
    rfl

theorem chain_accepts (level : Precedence) {operand : Reader Expr}
    (accepts : AcceptsFrom (level.rank + 1) levels operand) :
    AcceptsFrom level.rank levels (chain level operand) := by
  intro e us rest formed binds written stops
  obtain ⟨first, links, rfl, formedFirst, bindsFirst, good⟩ := Expr.exists_chain formed binds
  rw [Expr.yield_foldl_join] at written
  obtain ⟨us, vs, rfl, writtenFirst, writtenLinks⟩ := written_append_iff.mp written
  have rounded := nextOperand_rounded accepts good
  have higher := stops.mono (Nat.le_succ _)
  have head := accepts first us (vs ++ rest) formedFirst bindsFirst writtenFirst
    (rounded.followed higher writtenLinks)
  have links := many_accepts rounded higher (nextOperand_done stops) writtenLinks
  unfold chain
  exact (head.bind links.map).iff Expr.depth_foldl_join.symm

/-- The levels hand on to one another, from operands to the loosest operators. -/
theorem chains_accepts {operand : Reader Expr} (accepts : AcceptsFrom 6 levels operand) :
    AcceptsFrom 0 levels (chains operand) := by
  have product : AcceptsFrom 5 levels (chain .product operand) := chain_accepts .product accepts
  have sum : AcceptsFrom 4 levels (chain .sum (chain .product operand)) :=
    chain_accepts .sum product
  exact chain_accepts .disjunction <| chain_accepts .conjunction <| chain_accepts .equality <|
    chain_accepts .comparison sum

/-! ### All levels of nesting -/

theorem operand_accepts (levels : Nat) : AcceptsFrom 6 (levels + 1) (operand levels) := by
  induction levels with
  | zero => exact operandWith_accepts tooDeep_accepts tooDeep_accepts
  | succ levels ih => exact operandWith_accepts ih (chains_accepts ih)

/-- Every expression of the grammar is read back, if its depth is below the levels. -/
theorem expression_accepts (levels : Nat) : AcceptsFrom 0 levels (expression levels) := by
  cases levels with
  | zero => exact tooDeep_accepts
  | succ levels => exact chains_accepts (operand_accepts levels)

end Reader

end GameLang
