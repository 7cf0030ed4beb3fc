import GameLang.Proofs.Soundness.Program
import GameLang.Proofs.Viability.Stmt

/-!
# Trees that can still be completed

Where a program, a statement or an expression cannot be read as a whole, the tokens in front of the
one at fault have begun one of the grammar (`Goal.within_fail`, for every goal and every number of
levels).
-/

namespace GameLang

namespace Reader

variable {ts rest : List Token} {cause : Cause}

/-! ### Functions -/

/-- A type that completes what needs one. -/
def someType : TypeRef := .scalar .int (.ofKind .intType)

theorem param_completes : Completes param Param.Grammatical Param.yield := by
  intro ts cause rest h
  unfold param at h
  rcases bind_fail h with stopped | ⟨type, _, typed, went⟩
  · obtain rfl := typeWord_fail stopped
    exact ⟨⟨.ofKind .ident, someType⟩, ⟨rfl, TypeRef.scalar_scalar _ _, rfl⟩, .nothing _ _⟩
  · obtain ⟨kind, plain, taken⟩ := typeWord_ok typed
    rcases expect_bind_fail (by decide) went with rfl | ⟨_, _, _, _, went⟩
    · exact ⟨⟨.ofKind .ident, type⟩, ⟨kind, plain, rfl⟩, taken.stop _⟩
    · cases went

theorem nextParam_completes : Completes nextParam Param.Grammatical Param.nextYield := by
  intro ts cause rest h
  unfold nextParam at h
  rcases accept_bind_fail (by decide) h with ⟨_, _, comma, went⟩ | went
  · obtain ⟨p, grammatical, short⟩ := param_completes _ _ _ (map_fail went)
    exact ⟨p, grammatical, comma.short short⟩
  · cases went

theorem params_completes : Completes params (fun ps => ∀ p ∈ ps, p.Grammatical) Param.yields := by
  intro ts cause rest h
  unfold params at h
  have went := peekKind_bind_fail h
  split at went
  · cases went
  rcases bind_fail went with stopped | ⟨first, _, read, went⟩
  · obtain ⟨first, grammatical, short⟩ := param_completes _ _ _ stopped
    exact ⟨[first], List.forall_mem_singleton.mpr grammatical, short.append []⟩
  · obtain ⟨grammatical, taken⟩ := param_ok read
    obtain ⟨others, -, all, short⟩ := many_fail nextParam_rounds nextParam_completes (map_fail went)
    exact ⟨first :: others, List.forall_mem_cons.mpr ⟨grammatical, all⟩, taken.short short⟩

theorem function_completes (levels : Nat) :
    Completes (function (statement levels)) Function.Formed Function.yield := by
  intro ts cause rest h
  unfold function at h
  rcases bind_fail h with stopped | ⟨type, _, typed, went⟩
  · obtain rfl := typeWord_fail stopped
    exact ⟨⟨.ofKind .ident, [], someType, []⟩,
      ⟨⟨rfl, TypeRef.scalar_scalar _ _, rfl, by simp⟩, by simp⟩, .nothing _ _⟩
  obtain ⟨kind, plain, takenType⟩ := typeWord_ok typed
  rcases expect_bind_fail (by decide) went with rfl | ⟨name, _, named, takenName, went⟩
  · exact ⟨⟨.ofKind .ident, [], type, []⟩, ⟨⟨kind, plain, rfl, by simp⟩, by simp⟩,
      takenType.stop _⟩
  have takenHead := takenType.trans takenName
  -- From here on the function has its type and its name.
  have formed (ps : List Param) (body : List Stmt) (grammatical : ∀ p ∈ ps, p.Grammatical)
      (formed : ∀ s ∈ body, s.Formed) : (Function.mk name ps type body).Formed :=
    ⟨⟨kind, plain, named, grammatical⟩, formed⟩
  rcases expect_bind_fail (by decide) went with rfl | ⟨_, _, same, opened, went⟩
  · exact ⟨_, formed [] [] (by simp) (by simp), takenHead.stop _⟩
  have takenOpened := takenHead.trans (opened.drop same)
  rcases bind_fail went with stopped | ⟨ps, _, read, went⟩
  · obtain ⟨ps, grammatical, short⟩ := params_completes _ _ _ stopped
    exact ⟨_, formed ps [] grammatical (by simp), takenOpened.short (short.append _)⟩
  obtain ⟨grammatical, takenParams⟩ := params_ok read
  have takenInside := takenOpened.trans takenParams
  rcases expect_bind_fail (by decide) went with rfl | ⟨_, _, same, closed, went⟩
  · refine ⟨_, formed ps [] grammatical (by simp), ?_⟩
    simpa [Function.yield] using takenInside.stop [.kind .rightParen, .kind .leftBrace, .kind .rightBrace]
  · obtain ⟨b, ⟨braced, formedBody⟩, short⟩ :=
      block_completes (statement_reads levels) (statement_completes levels) _ _ _ (map_fail went)
    rw [Block.yield_eq] at short
    refine ⟨_, formed ps b.statements grammatical formedBody, ?_⟩
    simpa [Function.yield] using (takenInside.trans (closed.drop same)).short (short.drop braced)

/-! ### Programs -/

theorem nextFunction_completes (levels : Nat) :
    Completes (nextFunction (statement levels)) (fun item => ∃ f, item = .function f ∧ f.Formed)
      Item.yield := by
  intro ts cause rest h
  unfold nextFunction at h
  have went := peekKind_bind_fail h
  split at went
  · obtain ⟨f, formed, short⟩ := function_completes levels _ _ _ (map_fail went)
    exact ⟨.function f, ⟨f, rfl, formed⟩, short⟩
  · cases went

theorem nextVariable_completes (levels : Nat) :
    Completes (nextVariable (expression levels)) (fun item => ∃ d, item = .var d ∧ d.Formed)
      Item.yield := by
  intro ts cause rest h
  unfold nextVariable at h
  have went := peekKind_bind_fail h
  split at went
  · rename_i word
    obtain ⟨d, formed, short⟩ := varDecl_fail (expression_reads levels) (expression_completes levels)
      (by simpa using word) (map_fail went)
    exact ⟨.var d, ⟨d, rfl, formed⟩, short⟩
  · cases went

/-- An entry block of the grammar. -/
def IsEntry (b : Block) : Prop := b.opener.kind = .beginWord ∧ ∀ s ∈ b.statements, s.Formed

theorem isEntry_nil {opener : Token} (opens : opener.kind = .beginWord) : IsEntry ⟨opener, []⟩ :=
  ⟨opens, by simp⟩

theorem entryBlock_completes (levels : Nat) :
    Completes (entryBlock (statement levels)) IsEntry Block.entryYield := by
  intro ts cause rest h
  unfold entryBlock at h
  rcases expect_bind_fail (by decide) h with rfl | ⟨opener, _, opens, opened, went⟩
  · exact ⟨⟨.ofKind .beginWord, []⟩, isEntry_nil rfl, .nothing _ _⟩
  rcases bind_fail went with stopped | ⟨statements, _, looped, went⟩
  · obtain ⟨statements, -, formed, short⟩ := many_fail (nextStatement_rounds (statement_reads levels))
      (nextStatement_completes (statement_completes levels)) stopped
    exact ⟨⟨opener, statements⟩, ⟨opens, formed⟩, opened.short (short.append _)⟩
  obtain ⟨formed, taken⟩ := many_ok (nextStatement_rounds (statement_reads levels)) looped
  have takenStatements := opened.trans taken
  rcases expect_bind_fail (by decide) went with rfl | ⟨_, _, same, closed, went⟩
  · exact ⟨⟨opener, statements⟩, ⟨opens, formed⟩, takenStatements.stop _⟩
  rcases expect_bind_fail (by decide) went with rfl | ⟨_, _, _, _, went⟩
  · exact ⟨⟨opener, statements⟩, ⟨opens, formed⟩,
      opened.short (taken.short ((closed.drop same).stop _))⟩
  · cases went

theorem atEnd_fail {other : Cause} (h : (atEnd other : Reader _) ts = .fail cause rest) : rest = ts := by
  unfold atEnd at h
  have went := peekKind_bind_fail h
  split at went
  · cases went
  · cases went
    rfl

/-- Reading with nothing after it fails in the phrase or right behind it. -/
theorem whole_fail {α β : Type} {r : Reader α} {f : α → β} {other : Cause}
    (h : (do
      let v ← r
      atEnd other
      return f v : Reader β) ts = .fail cause rest) :
    r ts = .fail cause rest ∨ ∃ v, r ts = .ok v rest := by
  rcases bind_fail h with stopped | ⟨v, mid, read, went⟩
  · exact .inl stopped
  · rcases bind_fail went with stopped | ⟨_, _, _, went⟩
    · obtain rfl := atEnd_fail stopped
      exact .inr ⟨v, read⟩
    · cases went

theorem program_completes (levels : Nat) :
    Completes (program levels) Program.Formed Program.yield := by
  intro ts cause rest h
  -- Functions, variables and an entry block make a program, however much of them was begun.
  have finish (functions vars : List Item) (entry : Block)
      (goodFunctions : ∀ item ∈ functions, ∃ f, item = .function f ∧ f.Formed)
      (goodVars : ∀ item ∈ vars, ∃ d, item = .var d ∧ d.Formed) (isEntry : IsEntry entry)
      (short : Short ts
        (functions.flatMap Item.yield ++ (vars.flatMap Item.yield ++ entry.entryYield)) rest) :
      ∃ p : Program, p.Formed ∧ Short ts p.yield rest := by
    obtain ⟨fs, rfl, formedFunctions⟩ := exists_map_of_forall goodFunctions
    obtain ⟨ds, rfl, formedVars⟩ := exists_map_of_forall goodVars
    refine ⟨⟨_⟩, Program.formed_iff.mpr
      ⟨fs, ds, entry, rfl, formedFunctions, formedVars, isEntry.1, isEntry.2⟩, ?_⟩
    simpa [Program.yield, Item.yield, isEntry.1] using short
  have someEntry : IsEntry ⟨.ofKind .beginWord, []⟩ := isEntry_nil rfl
  unfold program programWith at h
  rcases bind_fail h with stopped | ⟨functions, _, readFunctions, went⟩
  · obtain ⟨functions, -, good, short⟩ :=
      many_fail (nextFunction_rounds levels) (nextFunction_completes levels) stopped
    exact finish functions [] _ good (by simp) someEntry (short.append _)
  obtain ⟨goodFunctions, takenFunctions⟩ := many_ok (nextFunction_rounds levels) readFunctions
  rcases bind_fail went with stopped | ⟨vars, _, readVars, went⟩
  · obtain ⟨vars, -, good, short⟩ :=
      many_fail (nextVariable_rounds levels) (nextVariable_completes levels) stopped
    exact finish functions vars _ goodFunctions good someEntry
      (takenFunctions.short (short.append _))
  obtain ⟨goodVars, takenVars⟩ := many_ok (nextVariable_rounds levels) readVars
  rcases whole_fail went with stopped | ⟨entry, readEntry⟩
  · obtain ⟨entry, isEntry, short⟩ := entryBlock_completes levels _ _ _ stopped
    exact finish functions vars entry goodFunctions goodVars isEntry
      (takenFunctions.short (takenVars.short short))
  · obtain ⟨opens, formed, takenEntry⟩ := entryBlock_ok readEntry
    exact finish functions vars entry goodFunctions goodVars ⟨opens, formed⟩
      (takenFunctions.short (takenVars.short takenEntry.whole))

end Reader

/-! ### Whole trees -/

namespace Goal

variable {ts rest : List Token} {goal : Goal}

/-- Where a tree cannot be read, one of the grammar has been begun. -/
theorem within_fail {levels : Nat} {cause : Cause} (h : goal.within levels ts = .fail cause rest) :
    ∃ tree : Tree, tree.goal = goal ∧ tree.Formed ∧ Short ts tree.yield rest := by
  cases goal with
  | program =>
    obtain ⟨p, formed, short⟩ := Reader.program_completes levels _ _ _ (Reader.map_fail h)
    exact ⟨.program p, rfl, formed, short⟩
  | statement =>
    rcases Reader.whole_fail (Reader.map_fail h) with stopped | ⟨s, read⟩
    · obtain ⟨s, formed, short⟩ := Reader.statement_completes levels _ _ _ stopped
      exact ⟨.statement s, rfl, formed, short⟩
    · obtain ⟨formed, taken⟩ := Reader.statement_reads levels _ _ _ read
      exact ⟨.statement s, rfl, formed, taken.whole⟩
  | expression =>
    rcases Reader.whole_fail (Reader.map_fail h) with stopped | ⟨e, read⟩
    · obtain ⟨e, ⟨formed, -⟩, short⟩ := Reader.expression_completes levels _ _ _ stopped
      exact ⟨.expression e, rfl, formed, short⟩
    · obtain ⟨formed, -, taken⟩ := Reader.expression_reads levels _ _ _ read
      exact ⟨.expression e, rfl, formed, taken.whole⟩

end Goal

end GameLang
