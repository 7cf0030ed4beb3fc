import GameLang.Proofs.Grammar.Stmt
import GameLang.Proofs.Soundness.Expr
import GameLang.Reader.Stmt

/-!
# What the readers of statements take

As for expressions: a statement that was read is one of the grammar and is written by the tokens
that were taken (`statement_reads`). Each form has its lemma, which starts from the kind that made
the reader choose the form.
-/

namespace GameLang.Reader

variable {ts rest : List Token} {expr : Reader Expr}

/-! ### Declarations -/

theorem ofKind?_type_ne_eof {k : Kind} {type : TypeKind} (h : TypeKind.ofKind? k = some type) :
    k ≠ .eof := by
  rintro rfl
  cases h

theorem typeWord_ok {place : TypePlace} {type : TypeRef}
    (h : (typeWord place : Reader _) ts = .ok type rest) :
    TypeKind.ofKind? type.token.kind = some type.kind ∧ type.Scalar ∧
      Taken ts [.token type.token] rest := by
  unfold typeWord at h
  obtain ⟨kind, _, peeked, h⟩ := bind_ok h
  obtain ⟨rfl, rfl⟩ := peekKind_ok peeked
  cases found : TypeKind.ofKind? (current ts).kind with
  | some kind =>
    rw [found] at h
    obtain ⟨t, _, advanced, h⟩ := bind_ok h
    obtain ⟨rfl, rfl⟩ := pure_ok h
    obtain ⟨rfl, taken⟩ := advance_ok advanced (ofKind?_type_ne_eof found)
    exact ⟨found, TypeRef.scalar_scalar _ _, taken⟩
  | none =>
    rw [found] at h
    exact (fail_ok h).elim

theorem declaredType_ok {keyword : Token} {type : TypeRef}
    (declares : keyword.kind = .varWord ∨ keyword.kind = .varCharWord)
    (h : (declaredType keyword : Reader _) ts = .ok type rest) :
    (keyword.kind = .varWord ∧ TypeKind.ofKind? type.token.kind = some type.kind ∨
      keyword.kind = .varCharWord ∧ type.token.kind = .charType ∧ type.kind = .char) ∧
    Taken ts [.token type.token] rest := by
  unfold declaredType at h
  split at h
  · rename_i word
    obtain ⟨t, _, expected, h⟩ := bind_ok h
    obtain ⟨rfl, rfl⟩ := pure_ok h
    obtain ⟨same, taken⟩ := expect_ok expected (by decide)
    exact ⟨.inr ⟨word, same, rfl⟩, taken⟩
  · rename_i other
    obtain ⟨same, -, taken⟩ := typeWord_ok h
    exact ⟨.inl ⟨declares.resolve_right other, same⟩, taken⟩

theorem nextDimension_rounds (reads : ReadsFrom 0 expr) :
    Rounds (nextDimension expr) (fun size => ∀ e ∈ size, e.Formed) VarDecl.dimYield := by
  intro ts o rest h
  unfold nextDimension at h
  rcases accept_bind_ok h (by decide) with ⟨_, _, opened, h⟩ | ⟨-, h⟩
  · rcases accept_bind_ok h (by decide) with ⟨_, _, closed, h⟩ | ⟨-, h⟩
    · obtain ⟨rfl, rfl⟩ := pure_ok h
      exact .inl ⟨none, rfl, by simp, opened.trans closed⟩
    · obtain ⟨size, _, read, h⟩ := bind_ok h
      obtain ⟨_, _, closed, h⟩ := bind_ok h
      obtain ⟨rfl, rfl⟩ := pure_ok h
      obtain ⟨formed, -, taken⟩ := reads _ _ _ read
      exact .inl ⟨some size, rfl, by simpa using formed,
        opened.trans (taken.trans (expect_taken closed (by decide)))⟩
  · exact .inr (pure_ok h)

theorem initialValue_ok {init : Option Expr} (reads : ReadsFrom 0 expr)
    (h : initialValue expr ts = .ok init rest) :
    (∀ e ∈ init, e.Formed) ∧ Taken ts (VarDecl.initYield init) rest := by
  unfold initialValue at h
  rcases accept_bind_ok h (by decide) with ⟨_, _, assigned, h⟩ | ⟨-, h⟩
  · obtain ⟨value, _, read, h⟩ := bind_ok h
    obtain ⟨rfl, rfl⟩ := pure_ok h
    obtain ⟨formed, -, taken⟩ := reads _ _ _ read
    exact ⟨by simpa using formed, assigned.trans taken⟩
  · obtain ⟨rfl, rfl⟩ := pure_ok h
    exact ⟨by simp, .nothing _⟩

theorem varDecl_ok {d : VarDecl} (reads : ReadsFrom 0 expr)
    (next : (current ts).kind = .varWord ∨ (current ts).kind = .varCharWord)
    (h : varDecl expr ts = .ok d rest) : d.Formed ∧ Taken ts d.yield rest := by
  unfold varDecl at h
  obtain ⟨keyword, _, advanced, h⟩ := bind_ok h
  obtain ⟨rfl, declared⟩ := advance_ok advanced (by rcases next with same | same <;> simp [same])
  obtain ⟨type, _, typed, h⟩ := bind_ok h
  obtain ⟨name, _, expected, h⟩ := bind_ok h
  obtain ⟨dims, _, looped, h⟩ := bind_ok h
  obtain ⟨init, _, initialised, h⟩ := bind_ok h
  obtain ⟨_, _, closed, h⟩ := bind_ok h
  obtain ⟨rfl, rfl⟩ := pure_ok h
  obtain ⟨kinds, takenType⟩ := declaredType_ok next typed
  obtain ⟨named, takenName⟩ := expect_ok expected (by decide)
  obtain ⟨formedDims, takenDims⟩ := many_ok (nextDimension_rounds reads) looped
  obtain ⟨formedInit, takenInit⟩ := initialValue_ok reads initialised
  refine ⟨VarDecl.formed_iff.mpr ⟨kinds, rfl, named, ?_⟩,
    declared.trans (takenType.trans (takenName.trans (takenDims.trans
      (takenInit.trans (expect_taken closed (by decide))))))⟩
  intro e member
  rcases List.mem_append.mp member with size | value
  · obtain ⟨size, inDims, rfl⟩ := List.mem_filterMap.mp size
    exact formedDims _ inDims e rfl
  · exact formedInit e (Option.mem_toList.mp value)

/-! ### Blocks -/

/-- What a reader gives is a statement of the grammar, written by the tokens taken. -/
def ReadsStmt (r : Reader Stmt) : Prop :=
  ∀ ts s rest, r ts = .ok s rest → s.Formed ∧ Taken ts s.yield rest

variable {stmt : Reader Stmt}

theorem nextStatement_rounds {close : Kind} (reads : ReadsStmt stmt) :
    Rounds (nextStatement stmt close) Stmt.Formed Stmt.yield := by
  intro ts o rest h
  unfold nextStatement at h
  obtain ⟨kind, _, peeked, h⟩ := bind_ok h
  obtain ⟨rfl, rfl⟩ := peekKind_ok peeked
  split at h
  · exact .inr (pure_ok h)
  · obtain ⟨s, _, read, h⟩ := bind_ok h
    obtain ⟨rfl, rfl⟩ := pure_ok h
    exact .inl ⟨s, rfl, reads _ _ _ read⟩

theorem block_ok {place : Place} {b : Block} (reads : ReadsStmt stmt)
    (h : block stmt place ts = .ok b rest) : b.Formed ∧ Taken ts b.yield rest := by
  unfold block at h
  obtain ⟨opener, _, opened, h⟩ := bind_ok h
  obtain ⟨statements, _, looped, h⟩ := bind_ok h
  obtain ⟨_, _, closed, h⟩ := bind_ok h
  obtain ⟨rfl, rfl⟩ := pure_ok h
  obtain ⟨braced, takenOpener⟩ := expect_ok opened (by decide)
  obtain ⟨formed, taken⟩ := many_ok (nextStatement_rounds reads) looped
  rw [Block.yield_eq]
  exact ⟨⟨braced, formed⟩,
    takenOpener.trans (taken.trans (expect_taken closed (by decide)))⟩

/-! ### The other forms -/

theorem condition_ok {word : Kind} {e : Expr} (reads : ReadsFrom 0 expr)
    (h : condition expr word ts = .ok e rest) :
    e.Formed ∧ Taken ts (.kind .leftParen :: (e.yield ++ [.kind .rightParen])) rest := by
  unfold condition at h
  obtain ⟨_, _, opened, h⟩ := bind_ok h
  obtain ⟨test, _, read, h⟩ := bind_ok h
  obtain ⟨_, _, closed, h⟩ := bind_ok h
  obtain ⟨rfl, rfl⟩ := pure_ok h
  obtain ⟨formed, -, taken⟩ := reads _ _ _ read
  exact ⟨formed,
    (expect_taken opened (by decide)).trans (taken.trans (expect_taken closed (by decide)))⟩

theorem branch_ok {s : Stmt} (readsStmt : ReadsStmt stmt) (reads : ReadsFrom 0 expr)
    (next : (current ts).kind = .ifWord) (h : branch stmt expr ts = .ok s rest) :
    s.Formed ∧ Taken ts s.yield rest := by
  unfold branch at h
  obtain ⟨keyword, _, advanced, h⟩ := bind_ok h
  obtain ⟨rfl, takenWord⟩ := advance_ok advanced (by rw [next]; decide)
  obtain ⟨test, _, tested, h⟩ := bind_ok h
  obtain ⟨formedTest, takenTest⟩ := condition_ok reads tested
  obtain ⟨thenBlock, _, first, h⟩ := bind_ok h
  obtain ⟨formedThen, takenThen⟩ := block_ok readsStmt first
  obtain ⟨elseBlock, _, second, h⟩ := bind_ok h
  obtain ⟨rfl, rfl⟩ := pure_ok h
  have takenBoth := takenWord.trans (takenTest.trans takenThen)
  unfold alternative at second
  rcases accept_bind_ok second (by decide) with ⟨_, _, takenElse, second⟩ | ⟨-, second⟩
  · obtain ⟨other, _, second, last⟩ := bind_ok second
    obtain ⟨rfl, rfl⟩ := pure_ok last
    obtain ⟨formedElse, takenOther⟩ := block_ok readsStmt second
    refine ⟨Stmt.formed_branch.mpr ⟨next, formedTest, formedThen, by simpa using formedElse⟩, ?_⟩
    simpa [Stmt.yield, conditionYield] using takenBoth.trans (takenElse.trans takenOther)
  · obtain ⟨rfl, rfl⟩ := pure_ok second
    refine ⟨Stmt.formed_branch.mpr ⟨next, formedTest, formedThen, by simp⟩, ?_⟩
    simpa [Stmt.yield, conditionYield] using takenBoth

theorem loop_ok {s : Stmt} (readsStmt : ReadsStmt stmt) (reads : ReadsFrom 0 expr)
    (next : (current ts).kind = .whileWord) (h : loop stmt expr ts = .ok s rest) :
    s.Formed ∧ Taken ts s.yield rest := by
  unfold loop at h
  obtain ⟨keyword, _, advanced, h⟩ := bind_ok h
  obtain ⟨rfl, takenWord⟩ := advance_ok advanced (by rw [next]; decide)
  obtain ⟨test, _, tested, h⟩ := bind_ok h
  obtain ⟨formedTest, takenTest⟩ := condition_ok reads tested
  obtain ⟨body, _, read, h⟩ := bind_ok h
  obtain ⟨rfl, rfl⟩ := pure_ok h
  obtain ⟨formed, taken⟩ := readsStmt _ _ _ read
  refine ⟨Stmt.formed_loop.mpr ⟨next, formedTest, formed⟩, ?_⟩
  simpa [Stmt.yield, conditionYield] using takenWord.trans (takenTest.trans taken)

theorem result_ok {s : Stmt} (reads : ReadsFrom 0 expr) (next : (current ts).kind = .returnWord)
    (h : result expr ts = .ok s rest) : s.Formed ∧ Taken ts s.yield rest := by
  unfold result at h
  obtain ⟨keyword, _, advanced, h⟩ := bind_ok h
  obtain ⟨rfl, takenWord⟩ := advance_ok advanced (by rw [next]; decide)
  obtain ⟨value, _, read, h⟩ := bind_ok h
  obtain ⟨_, _, closed, h⟩ := bind_ok h
  obtain ⟨rfl, rfl⟩ := pure_ok h
  obtain ⟨formed, -, taken⟩ := reads _ _ _ read
  exact ⟨Stmt.formed_result.mpr ⟨next, formed⟩,
    takenWord.trans (taken.trans (expect_taken closed (by decide)))⟩

/-- Reading in takes a plain name, the other procedures take any expression. -/
theorem builtinArgument_ok {keyword : Token} {arg : Expr} (reads : ReadsFrom 0 expr)
    (h : builtinArgument expr keyword ts = .ok arg rest) :
    (keyword.kind = .readWord ∧ (∃ name, arg = .ident name ∧ name.kind = .ident) ∨
      keyword.kind ≠ .readWord ∧ arg.Formed) ∧ Taken ts arg.yield rest := by
  unfold builtinArgument at h
  split at h
  · rename_i read
    obtain ⟨name, _, expected, h⟩ := bind_ok h
    obtain ⟨rfl, rfl⟩ := pure_ok h
    obtain ⟨named, taken⟩ := expect_ok expected (by decide)
    exact ⟨.inl ⟨read, name, rfl, named⟩, taken⟩
  · rename_i other
    obtain ⟨formed, -, taken⟩ := reads _ _ _ h
    exact ⟨.inr ⟨other, formed⟩, taken⟩

theorem builtinCall_ok {s : Stmt} (reads : ReadsFrom 0 expr)
    (next : (current ts).kind ∈ [.printWord, .readWord, .encryptWord, .decryptWord])
    (h : builtinCall expr ts = .ok s rest) : s.Formed ∧ Taken ts s.yield rest := by
  unfold builtinCall at h
  obtain ⟨keyword, _, advanced, h⟩ := bind_ok h
  obtain ⟨rfl, takenWord⟩ := advance_ok advanced (by intro same; simp [same] at next)
  obtain ⟨_, _, opened, h⟩ := bind_ok h
  obtain ⟨arg, _, read, h⟩ := bind_ok h
  obtain ⟨_, _, closed, h⟩ := bind_ok h
  obtain ⟨_, _, ended, h⟩ := bind_ok h
  obtain ⟨rfl, rfl⟩ := pure_ok h
  obtain ⟨argument, taken⟩ := builtinArgument_ok reads read
  constructor
  · rw [Stmt.formed_expression, Expr.formedCommand_call]
    rcases argument with ⟨reading, name, rfl, named⟩ | ⟨other, formed⟩
    · exact .inr (.inl ⟨reading, name, rfl, named⟩)
    · exact .inr (.inr ⟨by simpa [other] using next, arg, rfl, formed⟩)
  · have all := takenWord.trans ((expect_taken opened (by decide)).trans (taken.trans
      ((expect_taken closed (by decide)).trans (expect_taken ended (by decide)))))
    simpa [Stmt.yield, Expr.yield, Expr.argYield, Expr.nextArgYield] using all

theorem assignTo_ok {target : Expr} {otherwise : Cause} {s : Stmt} (reads : ReadsFrom 0 expr)
    (h : assignTo expr target otherwise ts = .ok s rest) :
    ∃ value, s = .assign target value ∧ value.Formed ∧
      Taken ts (.kind .assign :: (value.yield ++ [.kind .semicolon])) rest := by
  unfold assignTo at h
  rcases accept_bind_ok h (by decide) with ⟨_, _, assigned, h⟩ | ⟨-, h⟩
  · obtain ⟨value, _, read, h⟩ := bind_ok h
    obtain ⟨_, _, ended, h⟩ := bind_ok h
    obtain ⟨rfl, rfl⟩ := pure_ok h
    obtain ⟨formed, -, taken⟩ := reads _ _ _ read
    exact ⟨value, rfl, formed, assigned.trans (taken.trans (expect_taken ended (by decide)))⟩
  · exact (fail_ok h).elim

theorem nameStatement_ok {s : Stmt} (reads : ReadsFrom 0 expr) (next : (current ts).kind = .ident)
    (h : nameStatement expr ts = .ok s rest) : s.Formed ∧ Taken ts s.yield rest := by
  unfold nameStatement at h
  obtain ⟨name, _, advanced, h⟩ := bind_ok h
  obtain ⟨rfl, named⟩ := advance_ok advanced (by rw [next]; decide)
  obtain ⟨kind, _, peeked, h⟩ := bind_ok h
  obtain ⟨rfl, rfl⟩ := peekKind_ok peeked
  split at h
  · obtain ⟨call, _, called, h⟩ := bind_ok h
    obtain ⟨_, _, ended, h⟩ := bind_ok h
    obtain ⟨rfl, rfl⟩ := pure_ok h
    obtain ⟨args, rfl, formed, taken⟩ := callOf_ok reads called
    refine ⟨Stmt.formed_expression.mpr (Expr.formedCommand_call.mpr (.inl ⟨next, formed⟩)), ?_⟩
    simpa [Stmt.yield, Expr.yield] using named.trans (taken.trans (expect_taken ended (by decide)))
  · split at h
    · rename_i bracket
      obtain ⟨target, _, indexed, h⟩ := bind_ok h
      obtain ⟨indices, rfl, some, formed, taken⟩ := indexOf_ok reads bracket indexed
      obtain ⟨value, rfl, formedValue, takenValue⟩ := assignTo_ok reads h
      refine ⟨Stmt.formed_assign.mpr
        ⟨trivial, Expr.formed_index.mpr ⟨next, some, formed⟩, formedValue⟩, ?_⟩
      exact named.trans (taken.trans takenValue)
    · obtain ⟨value, rfl, formedValue, takenValue⟩ := assignTo_ok reads h
      exact ⟨Stmt.formed_assign.mpr ⟨trivial, Expr.formed_ident.mpr next, formedValue⟩,
        named.trans takenValue⟩

/-! ### All forms -/

theorem statementWith_reads (readsStmt : ReadsStmt stmt) (reads : ReadsFrom 0 expr) :
    ReadsStmt (statementWith stmt expr) := by
  intro ts s rest h
  unfold statementWith at h
  obtain ⟨kind, _, peeked, h⟩ := bind_ok h
  obtain ⟨next, rfl⟩ := peekKind_ok peeked
  have declaration : ∀ (_ : (current ts).kind = .varWord ∨ (current ts).kind = .varCharWord)
      (_ : (do return .varDecl (← varDecl expr) : Reader Stmt) ts = .ok s rest),
      s.Formed ∧ Taken ts s.yield rest := by
    intro word h
    obtain ⟨d, _, read, h⟩ := bind_ok h
    obtain ⟨rfl, rfl⟩ := pure_ok h
    obtain ⟨formed, taken⟩ := varDecl_ok reads word read
    exact ⟨Stmt.formed_varDecl.mpr formed, taken⟩
  split at h
  · obtain ⟨b, _, read, h⟩ := bind_ok h
    obtain ⟨rfl, rfl⟩ := pure_ok h
    obtain ⟨formed, taken⟩ := block_ok readsStmt read
    exact ⟨Stmt.formed_block.mpr formed, taken⟩
  · exact declaration (.inl next.symm) h
  · exact declaration (.inr next.symm) h
  · exact builtinCall_ok reads (by simp [← next]) h
  · exact builtinCall_ok reads (by simp [← next]) h
  · exact builtinCall_ok reads (by simp [← next]) h
  · exact builtinCall_ok reads (by simp [← next]) h
  · exact branch_ok readsStmt reads next.symm h
  · exact loop_ok readsStmt reads next.symm h
  · exact result_ok reads next.symm h
  · obtain ⟨t, _, advanced, h⟩ := bind_ok h
    obtain ⟨rfl, rfl⟩ := pure_ok h
    obtain ⟨rfl, taken⟩ := advance_ok advanced (by rw [← next]; decide)
    exact ⟨Stmt.formed_empty.mpr next.symm, taken⟩
  · exact nameStatement_ok reads next.symm h
  · exact (fail_ok h).elim

/-- A statement that is read is one of the grammar, written by the tokens taken. -/
theorem statement_reads (levels : Nat) : ReadsStmt (statement levels) := by
  induction levels with
  | zero => exact fun _ _ _ h => (fail_ok h).elim
  | succ levels ih => exact statementWith_reads ih (expression_reads levels)

end GameLang.Reader
