import GameLang.Proofs.Completeness.Expr
import GameLang.Proofs.Grammar.Stmt
import GameLang.Reader.Stmt

/-!
# Statements are read as they are written

As for expressions: every statement of the grammar is read back from its tokens if there are levels
enough for its need (`statement_accepts`). Only a branch without an alternative looks at the token
after it, which must not start one.
-/

namespace GameLang

/-! ### How statements start -/

/-- The kinds at which a statement starts. -/
def Kind.opensStmt : Kind → Bool
  | .leftBrace | .varWord | .varCharWord | .printWord | .readWord | .encryptWord | .decryptWord
  | .ifWord | .whileWord | .returnWord | .semicolon | .ident => true
  | _ => false

theorem Expr.FormedCommand.starts {e : Expr} {us : List Token} (formed : e.FormedCommand)
    (written : Written e.yield us) : ∃ t back, us = t :: back ∧ t.kind.opensStmt = true := by
  cases e with
  | call t args =>
    obtain ⟨back, rfl, -⟩ := written_token_iff.mp written
    refine ⟨t, back, rfl, ?_⟩
    rcases formedCommand_call.mp formed with ⟨same, -⟩ | ⟨same, -⟩ | ⟨same, -⟩
    · simp [same, Kind.opensStmt]
    · simp [same, Kind.opensStmt]
    · simp only [List.mem_cons, List.not_mem_nil, or_false] at same
      rcases same with same | same | same <;> simp [same, Kind.opensStmt]
  | _ => exact formed.1.elim

theorem Expr.IsTarget.starts {e : Expr} {us : List Token} (target : e.IsTarget) (formed : e.Formed)
    (written : Written e.yield us) : ∃ t back, us = t :: back ∧ t.kind = .ident := by
  cases e with
  | ident t =>
    obtain ⟨back, rfl, -⟩ := written_token_iff.mp written
    exact ⟨t, back, rfl, formed_ident.mp formed⟩
  | index t es =>
    obtain ⟨back, rfl, -⟩ := written_token_iff.mp written
    exact ⟨t, back, rfl, (formed_index.mp formed).1⟩
  | _ => exact target.elim

theorem Stmt.starts {s : Stmt} {us : List Token} (formed : s.Formed) (written : Written s.yield us) :
    ∃ t back, us = t :: back ∧ t.kind.opensStmt = true := by
  cases s with
  | varDecl d =>
    obtain ⟨back, rfl, -⟩ := written_token_iff.mp written
    obtain ⟨⟨same, -⟩ | ⟨same, -⟩, -⟩ := VarDecl.formed_iff.mp (formed_varDecl.mp formed)
    · exact ⟨d.keyword, back, rfl, by simp [same, Kind.opensStmt]⟩
    · exact ⟨d.keyword, back, rfl, by simp [same, Kind.opensStmt]⟩
  | assign target value =>
    obtain ⟨isTarget, formed, -⟩ := formed_assign.mp formed
    obtain ⟨us, vs, rfl, written, -⟩ := written_append_iff.mp written
    obtain ⟨t, back, rfl, same⟩ := isTarget.starts formed written
    exact ⟨t, back ++ vs, rfl, by simp [same, Kind.opensStmt]⟩
  | branch t c b other =>
    have same := (formed_branch.mp formed).1
    cases other with
    | none =>
      obtain ⟨back, rfl, -⟩ := written_token_iff.mp written
      exact ⟨t, back, rfl, by simp [same, Kind.opensStmt]⟩
    | some other =>
      obtain ⟨back, rfl, -⟩ := written_token_iff.mp written
      exact ⟨t, back, rfl, by simp [same, Kind.opensStmt]⟩
  | loop t c s =>
    obtain ⟨back, rfl, -⟩ := written_token_iff.mp written
    exact ⟨t, back, rfl, by simp [(formed_loop.mp formed).1, Kind.opensStmt]⟩
  | result t e =>
    obtain ⟨back, rfl, -⟩ := written_token_iff.mp written
    exact ⟨t, back, rfl, by simp [(formed_result.mp formed).1, Kind.opensStmt]⟩
  | block b =>
    rw [yield, Block.yield_eq] at written
    obtain ⟨back, rfl, -⟩ := written_token_iff.mp written
    have same : b.opener.kind = .leftBrace := (formed_block.mp formed).1
    exact ⟨b.opener, back, rfl, by simp [same, Kind.opensStmt]⟩
  | expression e =>
    obtain ⟨us, vs, rfl, written, -⟩ := written_append_iff.mp written
    obtain ⟨t, back, rfl, opens⟩ := (formed_expression.mp formed).starts written
    exact ⟨t, back ++ vs, rfl, opens⟩
  | empty t =>
    obtain ⟨back, rfl, -⟩ := written_token_iff.mp written
    exact ⟨t, back, rfl, by simp [formed_empty.mp formed, Kind.opensStmt]⟩

namespace Reader

variable {expr : Reader Expr} {levels : Nat} {us rest : List Token}

/-! ### Declarations -/

theorem typeWord_accepts {place : TypePlace} {t : Token} {kind : TypeKind}
    (found : TypeKind.ofKind? t.kind = some kind) (rest : List Token) :
    Accepts True (typeWord place) [t] rest (.scalar kind t) := by
  have inside : t.kind ≠ .eof := by
    intro ended
    rw [ended] at found
    cases found
  unfold typeWord
  refine .peekKind ?_
  simp only [List.cons_append, current, found]
  exact .advance inside (.pure _ rest)

theorem declaredType_accepts {keyword t : Token} {kind : TypeKind}
    (kinds : keyword.kind = .varWord ∧ TypeKind.ofKind? t.kind = some kind ∨
      keyword.kind = .varCharWord ∧ t.kind = .charType ∧ kind = .char) (rest : List Token) :
    Accepts True (declaredType keyword) [t] rest (.scalar kind t) := by
  unfold declaredType
  rcases kinds with ⟨word, found⟩ | ⟨word, same, rfl⟩
  · rw [if_neg (by rw [word]; decide)]
    exact typeWord_accepts found rest
  · rw [if_pos word]
    exact .expect same (by decide) (.pure _ rest)

theorem nextDimension_rounded (accepts : AcceptsFrom 0 levels expr) {dims : List (Option Expr)}
    (formed : ∀ size ∈ dims, ∀ e ∈ size, e.Formed) :
    Rounded (nextDimension expr) VarDecl.dimYield (fun size => ∀ e ∈ size, e.depth < levels)
      (fun _ => True) dims := by
  intro size member us rest written _
  obtain ⟨opener, us, rfl, opened, back⟩ := written_kind_iff.mp written
  obtain ⟨us, closer, rfl, inside, closed⟩ := written_append_kind_iff.mp back
  refine ⟨by simp, trivial, ?_⟩
  unfold nextDimension
  refine .accept opened (by decide) ?_
  cases size with
  | none =>
    obtain rfl := written_nil_iff.mp inside
    refine .accept closed (by decide) ?_
    exact (Accepts.pure (some none) rest).iff (by simp)
  | some e =>
    have formedSize := formed (some e) member e rfl
    have opens : (current (us ++ [closer] ++ rest)).kind ≠ .rightBracket := by
      rw [List.append_assoc]
      exact e.current_ne formedSize inside rfl
    refine .accept_none opens ?_
    have sized : Accepts _ _ us ([closer] ++ rest) e := accepts e us _ formedSize e.bindsFrom_zero
      inside (stops_cons 0 rest closed (by decide))
    exact .iff (sized.before (.expect closed (by decide) (.pure _ rest))) (by simp)

theorem initialValue_accepts (accepts : AcceptsFrom 0 levels expr) {init : Option Expr}
    (formed : ∀ e ∈ init, e.Formed) (written : Written (VarDecl.initYield init) us)
    (ended : (current rest).kind = .semicolon) :
    Accepts (∀ e ∈ init, e.depth < levels) (initialValue expr) us rest init := by
  unfold initialValue
  cases init with
  | none =>
    obtain rfl := written_nil_iff.mp written
    refine .accept_none (by rw [List.nil_append, ended]; decide) ?_
    exact (Accepts.pure none rest).iff (by simp)
  | some e =>
    obtain ⟨equals, us, rfl, same, inside⟩ := written_kind_iff.mp written
    have stops : Stops 0 rest := by
      cases rest with
      | nil => cases ended
      | cons t back => exact stops_cons 0 back ended (by decide)
    refine .accept same (by decide) ?_
    exact (accepts e us rest (formed e rfl) e.bindsFrom_zero inside stops).map.iff (by simp)

theorem varDecl_accepts (accepts : AcceptsFrom 0 levels expr) {d : VarDecl} (formed : d.Formed)
    (written : Written d.yield us) :
    Accepts (d.need ≤ levels) (varDecl expr) us rest d := by
  obtain ⟨kinds, counted, named, formedAll⟩ := VarDecl.formed_iff.mp formed
  obtain ⟨formedDims, formedInit⟩ := VarDecl.forall_mem_exprs.mp formedAll
  obtain ⟨us, rfl, afterWord⟩ := written_token_iff.mp written
  obtain ⟨us, rfl, afterType⟩ := written_token_iff.mp afterWord
  obtain ⟨us, rfl, afterName⟩ := written_token_iff.mp afterType
  obtain ⟨dims, us, rfl, writtenDims, afterDims⟩ := written_append_iff.mp afterName
  obtain ⟨init, closer, rfl, writtenInit, closed⟩ := written_append_kind_iff.mp afterDims
  obtain ⟨keyword, ⟨kind, t, rank, sizes⟩, name, value⟩ := d
  obtain rfl : rank = sizes.length := counted
  have typed : Accepts True (declaredType keyword) [t] (name :: (dims ++ (init ++ [closer])) ++ rest)
      (.scalar kind t) := declaredType_accepts kinds _
  have unsized : (current (init ++ [closer] ++ rest)).kind ≠ .leftBracket := by
    cases value with
    | none =>
      obtain rfl := written_nil_iff.mp writtenInit
      rw [show (current ([] ++ [closer] ++ rest)).kind = .semicolon from closed]
      decide
    | some e =>
      obtain ⟨equals, init, rfl, same, -⟩ := written_kind_iff.mp writtenInit
      rw [show (current (equals :: init ++ [closer] ++ rest)).kind = .assign from same]
      decide
  have done : nextDimension expr (init ++ [closer] ++ rest) = .ok none (init ++ [closer] ++ rest) := by
    unfold nextDimension
    rw [bind_of_ok (Accepts.accept_eq_none unsized)]
    rfl
  have sized := many_accepts (nextDimension_rounded accepts formedDims) trivial done writtenDims
  have valued : Accepts _ _ init ([closer] ++ rest) value :=
    initialValue_accepts accepts formedInit writtenInit closed
  have declares : keyword.kind ≠ .eof := by
    rcases kinds with ⟨word, -⟩ | ⟨word, -⟩ <;> rw [word] <;> decide
  unfold varDecl
  refine .advance declares (.iff (typed.bind (.expect named (by decide) (sized.bind
    (valued.before (.expect closed (by decide) (.pure _ rest)))))) ?_)
  rw [VarDecl.need_le_iff, true_and]

/-! ### Blocks -/

/-- A reader takes every statement of the grammar whose need is at most `levels`, in front of tokens
that start no alternative. -/
def AcceptsStmt (levels : Nat) (r : Reader Stmt) : Prop :=
  ∀ s us rest, s.Formed → Written s.yield us → (current rest).kind ≠ .elseWord →
    Accepts (s.need ≤ levels) r us rest s

variable {stmt : Reader Stmt}

theorem nextStatement_rounded (accepts : AcceptsStmt levels stmt) {close : Kind}
    (closes : close.opensStmt = false) {ss : List Stmt} (formed : ∀ s ∈ ss, s.Formed) :
    Rounded (nextStatement stmt close) Stmt.yield (fun s => s.need ≤ levels)
      (fun rest => (current rest).kind ≠ .elseWord) ss := by
  intro s member us rest written follow
  obtain ⟨t, back, rfl, opens⟩ := s.starts (formed s member) written
  have others : ∀ k : Kind, k.opensStmt = false → t.kind ≠ k := by
    rintro k shut rfl
    rw [shut] at opens
    cases opens
  refine ⟨by simp, others .elseWord rfl, ?_⟩
  unfold nextStatement
  refine .peekKind ?_
  rw [if_neg (by simp [current, others close closes, others .eof rfl])]
  exact (accepts s (t :: back) rest (formed s member) written follow).map

/-- The statements of a block, in front of the word or the brace that closes it. -/
theorem statements_accepts (accepts : AcceptsStmt levels stmt) {close : Kind}
    (closes : close ∈ [.rightBrace, .endWord]) {ss : List Stmt} (formed : ∀ s ∈ ss, s.Formed)
    (written : Written (ss.flatMap Stmt.yield) us) (closed : (current rest).kind = close) :
    Accepts (∀ s ∈ ss, s.need ≤ levels) (many (nextStatement stmt close)) us rest ss := by
  have shut : close.opensStmt = false ∧ close ≠ .elseWord := by
    simp only [List.mem_cons, List.not_mem_nil, or_false] at closes
    rcases closes with rfl | rfl <;> decide
  have done : nextStatement stmt close rest = .ok none rest := by
    unfold nextStatement
    rw [bind_of_ok (r := peekKind) rfl, if_pos (by simp [closed])]
    rfl
  exact many_accepts (nextStatement_rounded accepts shut.1 formed) (by rw [closed]; exact shut.2)
    done written

theorem block_accepts (accepts : AcceptsStmt levels stmt) {place : Place} {b : Block}
    (formed : b.Formed) (written : Written b.yield us) :
    Accepts (b.need ≤ levels) (block stmt place) us rest b := by
  rw [Block.yield_eq] at written
  obtain ⟨us, rfl, inBraces⟩ := written_token_iff.mp written
  obtain ⟨us, closer, rfl, inside, closed⟩ := written_append_kind_iff.mp inBraces
  have all : Accepts _ _ us ([closer] ++ rest) b.statements :=
    statements_accepts accepts (by decide) formed.2 inside closed
  unfold block
  refine .expect formed.1 (by decide) (.iff ?_ Block.need_le_iff.symm)
  cases b
  exact all.before (.expect closed (by decide) (.pure _ rest))

/-! ### Conditions, branches and loops -/

theorem condition_accepts (accepts : AcceptsFrom 0 levels expr) {word : Kind} {c : Expr}
    (formed : c.Formed)
    (written : Written (.kind .leftParen :: (c.yield ++ [.kind .rightParen])) us) :
    Accepts (c.depth < levels) (condition expr word) us rest c := by
  obtain ⟨opener, us, rfl, opened, back⟩ := written_kind_iff.mp written
  obtain ⟨us, closer, rfl, inside, closed⟩ := written_append_kind_iff.mp back
  have test : Accepts _ _ us ([closer] ++ rest) c := accepts c us _ formed c.bindsFrom_zero inside
    (stops_cons 0 rest closed (by decide))
  unfold condition
  refine .expect opened (by decide) ?_
  exact test.before (.expect closed (by decide) (.pure _ rest))

theorem alternative_accepts (accepts : AcceptsStmt levels stmt) {other : Option Block}
    (formed : ∀ o ∈ other, o.Formed)
    (written : Written (other.elim [] fun o => .kind .elseWord :: o.yield) us)
    (follow : (current rest).kind ≠ .elseWord) :
    Accepts (∀ o ∈ other, o.need ≤ levels) (alternative stmt) us rest other := by
  unfold alternative
  cases other with
  | none =>
    obtain rfl := written_nil_iff.mp written
    refine .accept_none follow ?_
    exact (Accepts.pure none rest).iff (by simp)
  | some other =>
    obtain ⟨word, us, rfl, same, inside⟩ := written_kind_iff.mp written
    refine .accept same (by decide) ?_
    exact (block_accepts accepts (formed other rfl) inside).map.iff (by simp)

theorem branch_accepts (accepts : AcceptsStmt levels stmt) (acceptsExpr : AcceptsFrom 0 levels expr)
    {t : Token} {c : Expr} {b : Block} {other : Option Block}
    (formed : (Stmt.branch t c b other).Formed)
    (written : Written (Stmt.branch t c b other).yield us)
    (follow : (current rest).kind ≠ .elseWord) :
    Accepts ((Stmt.branch t c b other).need ≤ levels + 1) (branch stmt expr) us rest
      (.branch t c b other) := by
  obtain ⟨word, formedTest, formedBlock, formedOther⟩ := Stmt.formed_branch.mp formed
  rw [Stmt.yield_branch] at written
  obtain ⟨us, rfl, afterWord⟩ := written_token_iff.mp written
  obtain ⟨us, vs, rfl, writtenTest, afterTest⟩ := written_append_iff.mp afterWord
  obtain ⟨vs, ws, rfl, writtenBlock, writtenOther⟩ := written_append_iff.mp afterTest
  unfold branch
  refine .advance (by rw [word]; decide) (.iff ((condition_accepts acceptsExpr formedTest
    writtenTest).bind ((block_accepts accepts formedBlock writtenBlock).bind
      (alternative_accepts accepts formedOther writtenOther follow).map)) ?_)
  exact Stmt.need_branch_le_iff.symm

theorem loop_accepts (accepts : AcceptsStmt levels stmt) (acceptsExpr : AcceptsFrom 0 levels expr)
    {t : Token} {c : Expr} {s : Stmt} (formed : (Stmt.loop t c s).Formed)
    (written : Written (Stmt.loop t c s).yield us) (follow : (current rest).kind ≠ .elseWord) :
    Accepts ((Stmt.loop t c s).need ≤ levels + 1) (loop stmt expr) us rest (.loop t c s) := by
  obtain ⟨word, formedTest, formedBody⟩ := Stmt.formed_loop.mp formed
  obtain ⟨us, rfl, afterWord⟩ := written_token_iff.mp written
  obtain ⟨us, vs, rfl, writtenTest, writtenBody⟩ := written_append_iff.mp afterWord
  unfold loop
  refine .advance (by rw [word]; decide) (.iff ((condition_accepts acceptsExpr formedTest
    writtenTest).bind (accepts s vs rest formedBody writtenBody follow).map) ?_)
  rw [Stmt.need, Nat.add_le_add_iff_right, Nat.max_le, Nat.succ_le_iff]

/-! ### The other forms -/

theorem result_accepts (accepts : AcceptsFrom 0 levels expr) {t : Token} {e : Expr}
    (formed : (Stmt.result t e).Formed) (written : Written (Stmt.result t e).yield us) :
    Accepts ((Stmt.result t e).need ≤ levels + 1) (result expr) us rest (.result t e) := by
  obtain ⟨word, formed⟩ := Stmt.formed_result.mp formed
  obtain ⟨us, rfl, back⟩ := written_token_iff.mp written
  obtain ⟨us, closer, rfl, inside, closed⟩ := written_append_kind_iff.mp back
  have value : Accepts _ _ us ([closer] ++ rest) e := accepts e us _ formed e.bindsFrom_zero inside
    (stops_cons 0 rest closed (by decide))
  unfold result
  refine .advance (by rw [word]; decide) (.iff ?_ Nat.succ_le_succ_iff.symm)
  exact value.before (.expect closed (by decide) (.pure _ rest))

/-- A call of a built-in procedure with an expression. -/
theorem builtinCall_accepts (accepts : AcceptsFrom 0 levels expr) {t : Token} {e : Expr}
    (word : t.kind ∈ [.printWord, .encryptWord, .decryptWord]) (formed : e.Formed)
    (written : Written (Stmt.expression (.call t [e])).yield us) :
    Accepts (e.depth < levels) (builtinCall expr) us rest (.expression (.call t [e])) := by
  have starts : t.kind ≠ .eof := by
    intro ended
    rw [ended] at word
    exact absurd word (by decide)
  obtain ⟨call, ender, rfl, writtenCall, ended⟩ := written_append_kind_iff.mp written
  obtain ⟨us, rfl, afterWord⟩ := written_token_iff.mp writtenCall
  obtain ⟨opener, us, rfl, opened, afterOpener⟩ := written_kind_iff.mp afterWord
  obtain ⟨us, closer, rfl, inside, closed⟩ := written_append_kind_iff.mp afterOpener
  rw [Expr.argYield, Expr.nextArgYield, List.append_nil] at inside
  have argument : Accepts (e.depth < levels) (builtinArgument expr t) us
      ([closer, ender] ++ rest) e := by
    unfold builtinArgument
    rw [if_neg (Kind.ne_readWord word)]
    exact accepts e us _ formed e.bindsFrom_zero inside (stops_cons 0 _ closed (by decide))
  unfold builtinCall
  rw [List.cons_append, List.cons_append, List.append_assoc]
  refine .advance starts (.expect opened (by decide) ?_)
  exact argument.before (.expect closed (by decide) (.expect ended (by decide) (.pure _ rest)))

/-- A value is read into a variable, which opens no level. -/
theorem readCall_accepts {t name : Token} (word : t.kind = .readWord) (named : name.kind = .ident)
    (written : Written (Stmt.expression (.call t [.ident name])).yield us) :
    Accepts True (builtinCall expr) us rest (.expression (.call t [.ident name])) := by
  obtain ⟨call, ender, rfl, writtenCall, ended⟩ := written_append_kind_iff.mp written
  obtain ⟨us, rfl, afterWord⟩ := written_token_iff.mp writtenCall
  obtain ⟨opener, us, rfl, opened, afterOpener⟩ := written_kind_iff.mp afterWord
  obtain ⟨us, rfl, afterName⟩ := written_token_iff.mp afterOpener
  obtain ⟨closer, us', rfl, closed, nothing⟩ := written_kind_iff.mp afterName
  obtain rfl := written_nil_iff.mp nothing
  have argument : Accepts True (builtinArgument expr t) [name] ([closer, ender] ++ rest)
      (.ident name) := by
    unfold builtinArgument
    rw [if_pos word]
    exact .expect named (by decide) (.pure _ _)
  unfold builtinCall
  refine .advance (by rw [word]; decide) (.expect opened (by decide) ?_)
  exact argument.before (.expect closed (by decide) (.expect ended (by decide) (.pure _ rest)))

theorem assignTo_accepts (accepts : AcceptsFrom 0 levels expr) {target value : Expr} {cause : Cause}
    (formed : value.Formed)
    (written : Written (.kind .assign :: (value.yield ++ [.kind .semicolon])) us) :
    Accepts (value.depth < levels) (assignTo expr target cause) us rest (.assign target value) := by
  obtain ⟨equals, us, rfl, same, back⟩ := written_kind_iff.mp written
  obtain ⟨us, closer, rfl, inside, closed⟩ := written_append_kind_iff.mp back
  have read : Accepts _ _ us ([closer] ++ rest) value := accepts value us _ formed
    value.bindsFrom_zero inside (stops_cons 0 rest closed (by decide))
  unfold assignTo
  refine .accept same (by decide) ?_
  exact read.before (.expect closed (by decide) (.pure _ rest))

/-! ### Statements at a name -/

theorem nameStatement_call_accepts (accepts : AcceptsFrom 0 levels expr) {t : Token}
    {args : List Expr} (named : t.kind = .ident) (formed : ∀ e ∈ args, e.Formed)
    (written : Written (Stmt.expression (.call t args)).yield us) :
    Accepts (Expr.depthOf args ≤ levels) (nameStatement expr) us rest
      (.expression (.call t args)) := by
  obtain ⟨call, ender, rfl, writtenCall, ended⟩ := written_append_kind_iff.mp written
  obtain ⟨us, rfl, back⟩ := written_token_iff.mp writtenCall
  have opened : (current (us ++ [ender] ++ rest)).kind = .leftParen := by
    rw [List.append_assoc]
    exact back.current_kind _
  have called : Accepts _ _ us ([ender] ++ rest) (Expr.call t args) :=
    callOf_accepts accepts formed back
  unfold nameStatement
  rw [List.cons_append]
  refine .advance (by rw [named]; decide) (.peekKind ?_)
  rw [if_pos opened]
  exact called.before (.expect ended (by decide) (.pure _ rest))

theorem nameStatement_assign_accepts (accepts : AcceptsFrom 0 levels expr) {target value : Expr}
    (isTarget : target.IsTarget) (formedTarget : target.Formed) (formed : value.Formed)
    (written : Written (Stmt.assign target value).yield us) :
    Accepts (target.depth ≤ levels ∧ value.depth < levels) (nameStatement expr) us rest
      (.assign target value) := by
  obtain ⟨us, vs, rfl, writtenTarget, back⟩ := written_append_iff.mp written
  have assigned : (current (vs ++ rest)).kind = .assign := by
    obtain ⟨equals, us, rfl, same, -⟩ := written_kind_iff.mp back
    exact same
  unfold nameStatement
  cases target with
  | ident t =>
    obtain rfl := written_singleton_iff.mp writtenTarget
    rw [List.singleton_append]
    refine .advance (by rw [Expr.formed_ident.mp formedTarget]; decide) (.peekKind ?_)
    rw [if_neg (by rw [assigned]; decide), if_neg (by rw [assigned]; decide)]
    exact (assignTo_accepts accepts formed back).iff (by simp [Expr.depth])
  | index t es =>
    obtain ⟨named, some, formedAll⟩ := Expr.formed_index.mp formedTarget
    obtain ⟨us, rfl, indices⟩ := written_token_iff.mp writtenTarget
    have opened : (current (us ++ vs ++ rest)).kind = .leftBracket := by
      rw [List.append_assoc]
      exact current_indexYield some indices _
    rw [List.cons_append]
    refine .advance (by rw [named]; decide) (.peekKind ?_)
    rw [if_neg (by rw [opened]; decide), if_pos opened]
    exact (indexOf_accepts accepts formedAll indices (by rw [assigned]; decide)).bind
      (assignTo_accepts accepts formed back)
  | _ => exact isTarget.elim

/-! ### Statements -/

theorem tooDeep_acceptsStmt : AcceptsStmt 0 tooDeep := by
  intro s us rest formed written _
  obtain ⟨t, back, rfl, -⟩ := s.starts formed written
  have positive : ¬ s.need ≤ 0 := by
    cases s with
    | branch t c b other => cases other <;> simp [Stmt.need]
    | _ => simp [Stmt.need]
  exact ⟨fun never => (positive never).elim, fun _ => ⟨[], t, back, rfl, rfl⟩⟩

/-- Only the word that a command starts with tells which of the calls is read. -/
theorem statementWith_expression_accepts (accepts : AcceptsFrom 0 levels expr) {e : Expr}
    (formed : (Stmt.expression e).Formed) (written : Written (Stmt.expression e).yield us) :
    Accepts ((Stmt.expression e).need ≤ levels + 1) (statementWith stmt expr) us rest
      (.expression e) := by
  have formed := Stmt.formed_expression.mp formed
  cases e with
  | call t args =>
    have next : (current (us ++ rest)).kind = t.kind :=
      congrArg Token.kind (written.current_token rest)
    unfold statementWith
    refine .peekKind ?_
    rcases Expr.formedCommand_call.mp formed with ⟨named, formedArgs⟩ | ⟨word, name, rfl, named⟩ |
      ⟨word, e, rfl, formedArg⟩
    · simp only [next, named]
      exact (nameStatement_call_accepts accepts named formedArgs written).iff
        (by simp [Stmt.need, Expr.commandNeed, named])
    · simp only [next, word]
      exact (readCall_accepts word named written).iff
        (by simp [Stmt.need, Expr.commandNeed, word])
    · have read : Accepts _ _ us rest (Stmt.expression (.call t [e])) :=
        builtinCall_accepts accepts word formedArg written
      have other : t.kind ≠ .readWord := Kind.ne_readWord word
      have needs : (Stmt.expression (.call t [e])).need ≤ levels + 1 ↔ e.depth < levels := by
        rw [Stmt.need, Expr.commandNeed, if_neg other, Nat.add_le_add_iff_right,
          Expr.depthOf_le_iff, List.forall_mem_singleton]
      simp only [List.mem_cons, List.not_mem_nil, or_false] at word
      rcases word with word | word | word <;> simp only [next, word] <;>
        exact read.iff needs.symm
  | _ => exact formed.1.elim

/-- One level more than inside it is enough for a statement. -/
theorem statementWith_accepts (accepts : AcceptsStmt levels stmt)
    (acceptsExpr : AcceptsFrom 0 levels expr) :
    AcceptsStmt (levels + 1) (statementWith stmt expr) := by
  intro s us rest formed written follow
  unfold statementWith
  refine .peekKind ?_
  cases s with
  | varDecl d =>
    have formed := Stmt.formed_varDecl.mp formed
    have read : Accepts _ _ us rest (Stmt.varDecl d) :=
      (varDecl_accepts acceptsExpr formed written).map
    have next : (current (us ++ rest)).kind = d.keyword.kind :=
      congrArg Token.kind (written.current_token rest)
    rcases formed.1.1 with ⟨word, -⟩ | ⟨word, -⟩ <;> simp only [next, word] <;>
      exact read.iff Nat.succ_le_succ_iff.symm
  | assign target value =>
    obtain ⟨isTarget, formedTarget, formedValue⟩ := Stmt.formed_assign.mp formed
    have next : (current (us ++ rest)).kind = .ident := by
      obtain ⟨us, vs, rfl, front, -⟩ := written_append_iff.mp written
      obtain ⟨t, back, rfl, same⟩ := isTarget.starts formedTarget front
      exact same
    simp only [next]
    refine (nameStatement_assign_accepts acceptsExpr isTarget formedTarget formedValue
      written).iff ?_
    rw [Stmt.need, Nat.add_le_add_iff_right, Nat.max_le, Nat.succ_le_iff]
  | branch t c b other =>
    have next : (current (us ++ rest)).kind = .ifWord := by
      rw [Stmt.yield_branch] at written
      rw [written.current_token rest]
      exact (Stmt.formed_branch.mp formed).1
    simp only [next]
    exact branch_accepts accepts acceptsExpr formed written follow
  | loop t c s =>
    have next : (current (us ++ rest)).kind = .whileWord := by
      rw [written.current_token rest]
      exact (Stmt.formed_loop.mp formed).1
    simp only [next]
    exact loop_accepts accepts acceptsExpr formed written follow
  | result t e =>
    have next : (current (us ++ rest)).kind = .returnWord := by
      rw [written.current_token rest]
      exact (Stmt.formed_result.mp formed).1
    simp only [next]
    exact result_accepts acceptsExpr formed written
  | block b =>
    have formed := Stmt.formed_block.mp formed
    have next : (current (us ++ rest)).kind = .leftBrace := by
      rw [Stmt.yield, Block.yield_eq] at written
      rw [written.current_token rest]
      exact formed.1
    simp only [next]
    exact (block_accepts accepts formed written).map.iff Nat.succ_le_succ_iff.symm
  | expression e =>
    have called : Accepts _ (statementWith stmt expr) us rest (Stmt.expression e) :=
      statementWith_expression_accepts acceptsExpr formed written
    exact ⟨called.read, called.stop⟩
  | empty t =>
    obtain rfl := written_singleton_iff.mp written
    have same := Stmt.formed_empty.mp formed
    simp only [List.cons_append, current, same]
    refine .advance (by rw [same]; decide) ?_
    exact (Accepts.pure (Stmt.empty t) rest).iff (by simp [Stmt.need])

/-- Every statement of the grammar is read back, if its need is at most the levels. -/
theorem statement_accepts (levels : Nat) : AcceptsStmt levels (statement levels) := by
  induction levels with
  | zero => exact tooDeep_acceptsStmt
  | succ levels ih => exact statementWith_accepts ih (expression_accepts levels)

end Reader

end GameLang
