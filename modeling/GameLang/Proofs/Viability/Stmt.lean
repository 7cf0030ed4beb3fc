import GameLang.Proofs.Soundness.Stmt
import GameLang.Proofs.Viability.Expr

/-!
# Statements that can still be completed

As for expressions: where a reader of statements fails, the tokens in front have begun a statement of
the grammar (`statement_completes`). Each form has its lemma, which starts from the kind that made the
reader choose the form.
-/

namespace GameLang.Reader

variable {ts rest : List Token} {cause : Cause} {expr : Reader Expr}

/-! ### Declarations -/

theorem typeWord_fail {place : TypePlace} (h : (typeWord place : Reader _) ts = .fail cause rest) :
    rest = ts := by
  unfold typeWord at h
  have went := peekKind_bind_fail h
  cases found : TypeKind.ofKind? (current ts).kind with
  | some kind =>
    rw [found] at went
    exact (advance_ne_fail (map_fail went)).elim
  | none =>
    rw [found] at went
    cases went
    rfl

theorem declaredType_fail {keyword : Token}
    (h : (declaredType keyword : Reader _) ts = .fail cause rest) : rest = ts := by
  unfold declaredType at h
  split at h
  · exact expect_fail (map_fail h)
  · exact typeWord_fail h

/-- A type that can be declared with a declaring word. -/
theorem exists_declaredType {keyword : Token}
    (declares : keyword.kind = .varWord ∨ keyword.kind = .varCharWord) :
    ∃ type : TypeRef, keyword.kind = .varWord ∧ TypeKind.ofKind? type.token.kind = some type.kind ∨
      keyword.kind = .varCharWord ∧ type.token.kind = .charType ∧ type.kind = .char := by
  refine ⟨.scalar .char (.ofKind .charType), ?_⟩
  rcases declares with word | word
  · exact .inl ⟨word, rfl⟩
  · exact .inr ⟨word, rfl, rfl⟩

theorem nextDimension_completes (reads : ReadsFrom 0 expr) (completes : CompletesFrom 0 expr) :
    Completes (nextDimension expr) (fun size => ∀ e ∈ size, e.Formed) VarDecl.dimYield := by
  intro ts cause rest h
  unfold nextDimension at h
  rcases accept_bind_fail (by decide) h with ⟨_, _, opened, went⟩ | went
  · rcases accept_bind_fail (by decide) went with ⟨_, _, closed, went⟩ | went
    · cases went
    rcases bind_fail went with stopped | ⟨size, _, read, went⟩
    · obtain ⟨size, formed, short⟩ := completes.formed _ _ _ stopped
      exact ⟨some size, by simpa using formed, opened.short (short.append _)⟩
    · obtain ⟨formed, -, taken⟩ := reads _ _ _ read
      rcases expect_bind_fail (by decide) went with rfl | ⟨_, _, _, _, went⟩
      · exact ⟨some size, by simpa using formed, opened.short (taken.stop _)⟩
      · cases went
  · cases went

theorem initialValue_completes (completes : CompletesFrom 0 expr) :
    Completes (initialValue expr) (fun init => ∀ e ∈ init, e.Formed) VarDecl.initYield := by
  intro ts cause rest h
  unfold initialValue at h
  rcases accept_bind_fail (by decide) h with ⟨_, _, assigned, went⟩ | went
  · obtain ⟨value, formed, short⟩ := completes.formed _ _ _ (map_fail went)
    exact ⟨some value, by simpa using formed, assigned.short short⟩
  · cases went

theorem varDecl_fail (reads : ReadsFrom 0 expr) (completes : CompletesFrom 0 expr)
    (next : (current ts).kind = .varWord ∨ (current ts).kind = .varCharWord)
    (h : varDecl expr ts = .fail cause rest) : ∃ d : VarDecl, d.Formed ∧ Short ts d.yield rest := by
  unfold varDecl at h
  obtain ⟨_, declared, went⟩ :=
    advance_bind_fail (by rcases next with same | same <;> simp [same]) h
  rcases bind_fail went with stopped | ⟨type, _, typed, went⟩
  · obtain rfl := declaredType_fail stopped
    obtain ⟨type, kinds⟩ := exists_declaredType next
    refine ⟨⟨current ts, type.withDims [], .ofKind .ident, none⟩,
      VarDecl.formed_iff.mpr ⟨kinds, rfl, rfl, by simp [VarDecl.exprs]⟩, declared.stop _⟩
  obtain ⟨kinds, takenType⟩ := declaredType_ok next typed
  have takenBoth := declared.trans takenType
  rcases expect_bind_fail (by decide) went with rfl | ⟨name, _, named, takenName, went⟩
  · exact ⟨⟨current ts, type.withDims [], .ofKind .ident, none⟩,
      VarDecl.formed_iff.mpr ⟨kinds, rfl, rfl, by simp [VarDecl.exprs]⟩, takenBoth.stop _⟩
  have takenHead := takenBoth.trans takenName
  -- From here on the declaration has its word, its type and its name.
  have formed (dims : List (Option Expr)) (init : Option Expr)
      (formedDims : ∀ size ∈ dims, ∀ e ∈ size, e.Formed) (formedInit : ∀ e ∈ init, e.Formed) :
      (VarDecl.mk (current ts) (type.withDims dims) name init).Formed :=
    VarDecl.formed_iff.mpr ⟨kinds, rfl, named, VarDecl.forall_mem_exprs.mpr ⟨formedDims, formedInit⟩⟩
  rcases bind_fail went with stopped | ⟨dims, _, looped, went⟩
  · obtain ⟨dims, -, formedDims, short⟩ :=
      many_fail (nextDimension_rounds reads) (nextDimension_completes reads completes) stopped
    exact ⟨_, formed dims none formedDims (by simp), takenHead.short (short.append _)⟩
  obtain ⟨formedDims, takenDims⟩ := many_ok (nextDimension_rounds reads) looped
  rcases bind_fail went with stopped | ⟨init, _, initialised, went⟩
  · obtain ⟨init, formedInit, short⟩ := initialValue_completes completes _ _ _ stopped
    exact ⟨_, formed dims init formedDims formedInit,
      takenHead.short (takenDims.short (short.append _))⟩
  obtain ⟨formedInit, takenInit⟩ := initialValue_ok reads initialised
  rcases expect_bind_fail (by decide) went with rfl | ⟨_, _, _, _, went⟩
  · exact ⟨_, formed dims init formedDims formedInit,
      takenHead.short (takenDims.short (takenInit.stop _))⟩
  · cases went

/-! ### Blocks -/

/-- Where a reader fails, it has begun a statement of the grammar. -/
def CompletesStmt (r : Reader Stmt) : Prop := Completes r Stmt.Formed Stmt.yield

variable {stmt : Reader Stmt}

theorem tooDeep_completesStmt : CompletesStmt tooDeep := by
  intro ts cause rest h
  cases h
  exact ⟨.empty (.ofKind .semicolon), Stmt.formed_empty.mpr rfl, .nothing ts _⟩

theorem nextStatement_completes {close : Kind} (completes : CompletesStmt stmt) :
    Completes (nextStatement stmt close) Stmt.Formed Stmt.yield := by
  intro ts cause rest h
  unfold nextStatement at h
  have went := peekKind_bind_fail h
  split at went
  · cases went
  · exact completes _ _ _ (map_fail went)

theorem block_completes {place : Place} (reads : ReadsStmt stmt) (completes : CompletesStmt stmt) :
    Completes (block stmt place) Block.Formed Block.yield := by
  intro ts cause rest h
  unfold block at h
  rcases expect_bind_fail (by decide) h with rfl | ⟨opener, _, braced, takenOpener, went⟩
  · exact ⟨⟨.ofKind .leftBrace, []⟩, ⟨rfl, by simp⟩, .nothing _ _⟩
  rcases bind_fail went with stopped | ⟨statements, _, looped, went⟩
  · obtain ⟨statements, -, formed, short⟩ :=
      many_fail (nextStatement_rounds reads) (nextStatement_completes completes) stopped
    refine ⟨⟨opener, statements⟩, ⟨braced, formed⟩, ?_⟩
    rw [Block.yield_eq]
    exact takenOpener.short (short.append _)
  · obtain ⟨formed, taken⟩ := many_ok (nextStatement_rounds reads) looped
    rcases expect_bind_fail (by decide) went with rfl | ⟨_, _, _, _, went⟩
    · refine ⟨⟨opener, statements⟩, ⟨braced, formed⟩, ?_⟩
      rw [Block.yield_eq]
      exact takenOpener.short (taken.stop _)
    · cases went

/-! ### The other forms -/

theorem condition_fail {word : Kind} (reads : ReadsFrom 0 expr) (completes : CompletesFrom 0 expr)
    (h : condition expr word ts = .fail cause rest) :
    ∃ e : Expr, e.Formed ∧
      Short ts (.kind .leftParen :: (e.yield ++ [.kind .rightParen])) rest := by
  unfold condition at h
  rcases expect_bind_fail (by decide) h with rfl | ⟨_, _, same, opened, went⟩
  · exact ⟨.someName, Expr.formed_someName, .nothing _ _⟩
  rcases bind_fail went with stopped | ⟨test, _, read, went⟩
  · obtain ⟨test, formed, short⟩ := completes.formed _ _ _ stopped
    exact ⟨test, formed, (opened.drop same).short (short.append _)⟩
  · obtain ⟨formed, -, taken⟩ := reads _ _ _ read
    rcases expect_bind_fail (by decide) went with rfl | ⟨_, _, _, _, went⟩
    · exact ⟨test, formed, (opened.drop same).short (taken.stop _)⟩
    · cases went

theorem alternative_completes (reads : ReadsStmt stmt) (completes : CompletesStmt stmt) :
    Completes (alternative stmt) Block.Formed fun b => .kind .elseWord :: b.yield := by
  intro ts cause rest h
  unfold alternative at h
  rcases accept_bind_fail (by decide) h with ⟨_, _, word, went⟩ | went
  · obtain ⟨b, formed, short⟩ := block_completes reads completes _ _ _ (map_fail went)
    exact ⟨b, formed, word.short short⟩
  · cases went

theorem branch_fail (readsStmt : ReadsStmt stmt) (completesStmt : CompletesStmt stmt)
    (reads : ReadsFrom 0 expr) (completes : CompletesFrom 0 expr)
    (next : (current ts).kind = .ifWord) (h : branch stmt expr ts = .fail cause rest) :
    ∃ s : Stmt, s.Formed ∧ Short ts s.yield rest := by
  have formedBlock : (Block.mk (.ofKind .leftBrace) []).Formed := ⟨rfl, by simp⟩
  unfold branch at h
  obtain ⟨_, takenWord, went⟩ := advance_bind_fail (by rw [next]; decide) h
  rcases bind_fail went with stopped | ⟨test, _, tested, went⟩
  · obtain ⟨test, formed, short⟩ := condition_fail reads completes stopped
    refine ⟨.branch (current ts) test _ none,
      Stmt.formed_branch.mpr ⟨next, formed, formedBlock, by simp⟩, ?_⟩
    rw [Stmt.yield_branch]
    exact (takenWord.short short).append _
  obtain ⟨formedTest, takenTest⟩ := condition_ok reads tested
  have takenCondition := takenWord.trans takenTest
  rcases bind_fail went with stopped | ⟨thenBlock, _, first, went⟩
  · obtain ⟨b, formed, short⟩ := block_completes readsStmt completesStmt _ _ _ stopped
    refine ⟨.branch (current ts) test b none,
      Stmt.formed_branch.mpr ⟨next, formedTest, formed, by simp⟩, ?_⟩
    rw [Stmt.yield_branch]
    exact takenCondition.short (short.append _)
  · obtain ⟨formedThen, takenThen⟩ := block_ok readsStmt first
    obtain ⟨other, formed, short⟩ :=
      alternative_completes readsStmt completesStmt _ _ _ (map_fail went)
    refine ⟨.branch (current ts) test thenBlock (some other),
      Stmt.formed_branch.mpr ⟨next, formedTest, formedThen, by simpa using formed⟩, ?_⟩
    rw [Stmt.yield_branch]
    exact takenCondition.short (takenThen.short short)

theorem loop_fail (completesStmt : CompletesStmt stmt) (reads : ReadsFrom 0 expr)
    (completes : CompletesFrom 0 expr) (next : (current ts).kind = .whileWord)
    (h : loop stmt expr ts = .fail cause rest) : ∃ s : Stmt, s.Formed ∧ Short ts s.yield rest := by
  unfold loop at h
  obtain ⟨_, takenWord, went⟩ := advance_bind_fail (by rw [next]; decide) h
  rcases bind_fail went with stopped | ⟨test, _, tested, went⟩
  · obtain ⟨test, formed, short⟩ := condition_fail reads completes stopped
    exact ⟨.loop (current ts) test (.empty (.ofKind .semicolon)),
      Stmt.formed_loop.mpr ⟨next, formed, Stmt.formed_empty.mpr rfl⟩,
      (takenWord.short short).append _⟩
  · obtain ⟨formedTest, takenTest⟩ := condition_ok reads tested
    obtain ⟨body, formed, short⟩ := completesStmt _ _ _ (map_fail went)
    exact ⟨.loop (current ts) test body, Stmt.formed_loop.mpr ⟨next, formedTest, formed⟩,
      (takenWord.trans takenTest).short short⟩

theorem result_fail (reads : ReadsFrom 0 expr) (completes : CompletesFrom 0 expr)
    (next : (current ts).kind = .returnWord) (h : result expr ts = .fail cause rest) :
    ∃ s : Stmt, s.Formed ∧ Short ts s.yield rest := by
  unfold result at h
  obtain ⟨_, takenWord, went⟩ := advance_bind_fail (by rw [next]; decide) h
  rcases bind_fail went with stopped | ⟨value, _, read, went⟩
  · obtain ⟨value, formed, short⟩ := completes.formed _ _ _ stopped
    exact ⟨.result (current ts) value, Stmt.formed_result.mpr ⟨next, formed⟩,
      takenWord.short (short.append _)⟩
  · obtain ⟨formed, -, taken⟩ := reads _ _ _ read
    rcases expect_bind_fail (by decide) went with rfl | ⟨_, _, _, _, went⟩
    · exact ⟨.result (current ts) value, Stmt.formed_result.mpr ⟨next, formed⟩,
        takenWord.short (taken.stop _)⟩
    · cases went

/-- An argument that a built-in procedure takes. -/
def BuiltinArgument (keyword : Token) (arg : Expr) : Prop :=
  keyword.kind = .readWord ∧ (∃ name, arg = .ident name ∧ name.kind = .ident) ∨
    keyword.kind ≠ .readWord ∧ arg.Formed

theorem builtinArgument_someName (keyword : Token) : BuiltinArgument keyword .someName := by
  by_cases read : keyword.kind = .readWord
  · exact .inl ⟨read, .ofKind .ident, rfl, rfl⟩
  · exact .inr ⟨read, Expr.formed_someName⟩

theorem builtinArgument_completes {keyword : Token} (completes : CompletesFrom 0 expr) :
    Completes (builtinArgument expr keyword) (BuiltinArgument keyword) Expr.yield := by
  intro ts cause rest h
  unfold builtinArgument at h
  split at h
  · obtain rfl := expect_fail (map_fail h)
    exact ⟨.someName, builtinArgument_someName keyword, .nothing _ _⟩
  · rename_i other
    obtain ⟨arg, formed, short⟩ := completes.formed _ _ _ h
    exact ⟨arg, .inr ⟨other, formed⟩, short⟩

theorem builtinCall_fail (reads : ReadsFrom 0 expr) (completes : CompletesFrom 0 expr)
    (next : (current ts).kind ∈ [.printWord, .readWord, .encryptWord, .decryptWord])
    (h : builtinCall expr ts = .fail cause rest) :
    ∃ s : Stmt, s.Formed ∧ Short ts s.yield rest := by
  -- Every argument makes a statement, so it is enough to have begun one in its parentheses.
  have finish (arg : Expr) (argument : BuiltinArgument (current ts) arg)
      (short : Short ts (.token (current ts) :: .kind .leftParen ::
        (arg.yield ++ [.kind .rightParen, .kind .semicolon])) rest) :
      ∃ s : Stmt, s.Formed ∧ Short ts s.yield rest := by
    refine ⟨.expression (.call (current ts) [arg]), ?_, ?_⟩
    · rw [Stmt.formed_expression, Expr.formedCommand_call]
      rcases argument with ⟨reading, name, rfl, named⟩ | ⟨other, formed⟩
      · exact .inr (.inl ⟨reading, name, rfl, named⟩)
      · exact .inr (.inr ⟨by simpa [other] using next, arg, rfl, formed⟩)
    · simpa [Stmt.yield, Expr.yield, Expr.argYield, Expr.nextArgYield] using short
  unfold builtinCall at h
  obtain ⟨_, takenWord, went⟩ := advance_bind_fail (by intro same; simp [same] at next) h
  rcases expect_bind_fail (by decide) went with rfl | ⟨_, _, same, opened, went⟩
  · exact finish .someName (builtinArgument_someName _) (takenWord.stop _)
  have takenHead := takenWord.trans (opened.drop same)
  rcases bind_fail went with stopped | ⟨arg, _, read, went⟩
  · obtain ⟨arg, argument, short⟩ := builtinArgument_completes completes _ _ _ stopped
    exact finish arg argument (takenHead.short (short.append _))
  obtain ⟨argument, taken⟩ := builtinArgument_ok reads read
  rcases expect_bind_fail (by decide) went with rfl | ⟨_, _, same, closed, went⟩
  · exact finish arg argument (takenHead.short (taken.stop _))
  rcases expect_bind_fail (by decide) went with rfl | ⟨_, _, _, _, went⟩
  · exact finish arg argument (takenHead.short (taken.short ((closed.drop same).stop _)))
  · cases went

theorem assignTo_fail {target : Expr} {otherwise : Cause} (reads : ReadsFrom 0 expr)
    (completes : CompletesFrom 0 expr)
    (h : assignTo expr target otherwise ts = .fail cause rest) :
    ∃ value : Expr, value.Formed ∧
      Short ts (.kind .assign :: (value.yield ++ [.kind .semicolon])) rest := by
  unfold assignTo at h
  rcases accept_bind_fail (by decide) h with ⟨_, _, assigned, went⟩ | went
  · rcases bind_fail went with stopped | ⟨value, _, read, went⟩
    · obtain ⟨value, formed, short⟩ := completes.formed _ _ _ stopped
      exact ⟨value, formed, assigned.short (short.append _)⟩
    · obtain ⟨formed, -, taken⟩ := reads _ _ _ read
      rcases expect_bind_fail (by decide) went with rfl | ⟨_, _, _, _, went⟩
      · exact ⟨value, formed, assigned.short (taken.stop _)⟩
      · cases went
  · cases went
    exact ⟨.someName, Expr.formed_someName, .nothing _ _⟩

theorem nameStatement_fail (reads : ReadsFrom 0 expr) (completes : CompletesFrom 0 expr)
    (next : (current ts).kind = .ident) (h : nameStatement expr ts = .fail cause rest) :
    ∃ s : Stmt, s.Formed ∧ Short ts s.yield rest := by
  have call {args : List Expr} (formed : ∀ arg ∈ args, arg.Formed) :
      (Stmt.expression (.call (current ts) args)).Formed :=
    Stmt.formed_expression.mpr (Expr.formedCommand_call.mpr (.inl ⟨next, formed⟩))
  have element {indices : List Expr} {value : Expr} (some : indices ≠ [])
      (formed : ∀ index ∈ indices, index.Formed) (formedValue : value.Formed) :
      (Stmt.assign (.index (current ts) indices) value).Formed :=
    Stmt.formed_assign.mpr ⟨trivial, Expr.formed_index.mpr ⟨next, some, formed⟩, formedValue⟩
  unfold nameStatement at h
  obtain ⟨_, named, went⟩ := advance_bind_fail (by rw [next]; decide) h
  have went := peekKind_bind_fail went
  split at went
  · rcases bind_fail went with stopped | ⟨_, _, called, went⟩
    · obtain ⟨args, formed, short⟩ := callOf_fail reads completes stopped
      exact ⟨_, call formed, (named.short short).append _⟩
    · obtain ⟨args, rfl, formed, taken⟩ := callOf_ok reads called
      rcases expect_bind_fail (by decide) went with rfl | ⟨_, _, _, _, went⟩
      · exact ⟨_, call formed, (named.trans taken).stop _⟩
      · cases went
  · split at went
    · rename_i bracket
      rcases bind_fail went with stopped | ⟨_, _, indexed, went⟩
      · obtain ⟨indices, some, formed, short⟩ := indexOf_fail reads completes stopped
        exact ⟨_, element some formed Expr.formed_someName, (named.short short).append _⟩
      · obtain ⟨indices, rfl, some, formed, taken⟩ := indexOf_ok reads bracket indexed
        obtain ⟨value, formedValue, short⟩ := assignTo_fail reads completes went
        exact ⟨_, element some formed formedValue, (named.trans taken).short short⟩
    · obtain ⟨value, formedValue, short⟩ := assignTo_fail reads completes went
      exact ⟨.assign (.ident (current ts)) value,
        Stmt.formed_assign.mpr ⟨trivial, Expr.formed_ident.mpr next, formedValue⟩,
        named.short short⟩

/-! ### All forms -/

theorem statementWith_completes (readsStmt : ReadsStmt stmt) (completesStmt : CompletesStmt stmt)
    (reads : ReadsFrom 0 expr) (completes : CompletesFrom 0 expr) :
    CompletesStmt (statementWith stmt expr) := by
  intro ts cause rest h
  unfold statementWith at h
  obtain ⟨kind, next⟩ : ∃ kind, (current ts).kind = kind := ⟨_, rfl⟩
  have went := peekKind_bind_fail h
  have declaration (word : (current ts).kind = .varWord ∨ (current ts).kind = .varCharWord)
      (went : (do return .varDecl (← varDecl expr) : Reader Stmt) ts = .fail cause rest) :
      ∃ s : Stmt, s.Formed ∧ Short ts s.yield rest := by
    obtain ⟨d, formed, short⟩ := varDecl_fail reads completes word (map_fail went)
    exact ⟨.varDecl d, Stmt.formed_varDecl.mpr formed, short⟩
  rw [next] at went
  split at went
  · obtain ⟨b, formed, short⟩ := block_completes readsStmt completesStmt _ _ _ (map_fail went)
    exact ⟨.block b, Stmt.formed_block.mpr formed, short⟩
  · exact declaration (.inl next) went
  · exact declaration (.inr next) went
  · exact builtinCall_fail reads completes (by simp [next]) went
  · exact builtinCall_fail reads completes (by simp [next]) went
  · exact builtinCall_fail reads completes (by simp [next]) went
  · exact builtinCall_fail reads completes (by simp [next]) went
  · exact branch_fail readsStmt completesStmt reads completes next went
  · exact loop_fail completesStmt reads completes next went
  · exact result_fail reads completes next went
  · exact (advance_ne_fail (map_fail went)).elim
  · exact nameStatement_fail reads completes next went
  · exact tooDeep_completesStmt ts .nestingTooDeep rest (by cases went; rfl)

/-- Where a statement cannot be read, one of the grammar has been begun. -/
theorem statement_completes (levels : Nat) : CompletesStmt (statement levels) := by
  induction levels with
  | zero => exact tooDeep_completesStmt
  | succ levels ih =>
    exact statementWith_completes (statement_reads levels) ih (expression_reads levels)
      (expression_completes levels)

end GameLang.Reader
