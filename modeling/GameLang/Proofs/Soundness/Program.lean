import GameLang.Proofs.Grammar.Program
import GameLang.Proofs.Soundness.Stmt

/-!
# What the readers of whole trees take

A program, a statement or an expression that is read as a whole is one of the grammar and is
written by all tokens in front of an end (`Goal.within_ok`, for every goal and every number of
levels).
-/

namespace GameLang

namespace Reader

variable {ts rest : List Token}

/-! ### Functions -/

theorem param_ok {p : Param} (h : (param : Reader _) ts = .ok p rest) :
    p.Grammatical ∧ Taken ts p.yield rest := by
  unfold param at h
  obtain ⟨type, _, typed, h⟩ := bind_ok h
  obtain ⟨name, _, expected, h⟩ := bind_ok h
  obtain ⟨rfl, rfl⟩ := pure_ok h
  obtain ⟨kind, plain, takenType⟩ := typeWord_ok typed
  obtain ⟨named, takenName⟩ := expect_ok expected (by decide)
  exact ⟨⟨kind, plain, named⟩, takenType.trans takenName⟩

theorem nextParam_rounds : Rounds nextParam Param.Grammatical Param.nextYield := by
  intro ts o rest h
  unfold nextParam at h
  rcases accept_bind_ok h (by decide) with ⟨_, _, comma, h⟩ | ⟨-, h⟩
  · obtain ⟨p, _, read, h⟩ := bind_ok h
    obtain ⟨rfl, rfl⟩ := pure_ok h
    obtain ⟨grammatical, taken⟩ := param_ok read
    exact .inl ⟨p, rfl, grammatical, comma.trans taken⟩
  · exact .inr (pure_ok h)

theorem params_ok {ps : List Param} (h : (params : Reader _) ts = .ok ps rest) :
    (∀ p ∈ ps, p.Grammatical) ∧ Taken ts (Param.yields ps) rest := by
  unfold params at h
  obtain ⟨kind, _, peeked, h⟩ := bind_ok h
  obtain ⟨rfl, rfl⟩ := peekKind_ok peeked
  split at h
  · obtain ⟨rfl, rfl⟩ := pure_ok h
    exact ⟨by simp, .nothing _⟩
  · obtain ⟨first, _, read, h⟩ := bind_ok h
    obtain ⟨others, _, looped, h⟩ := bind_ok h
    obtain ⟨rfl, rfl⟩ := pure_ok h
    obtain ⟨grammatical, taken⟩ := param_ok read
    obtain ⟨all, takenOthers⟩ := many_ok nextParam_rounds looped
    exact ⟨List.forall_mem_cons.mpr ⟨grammatical, all⟩, taken.trans takenOthers⟩

theorem function_ok {levels : Nat} {f : Function} (h : function (statement levels) ts = .ok f rest) :
    f.Formed ∧ Taken ts f.yield rest := by
  unfold function at h
  obtain ⟨returnType, _, typed, h⟩ := bind_ok h
  obtain ⟨name, _, expected, h⟩ := bind_ok h
  obtain ⟨_, _, opened, h⟩ := bind_ok h
  obtain ⟨ps, _, read, h⟩ := bind_ok h
  obtain ⟨_, _, closed, h⟩ := bind_ok h
  obtain ⟨body, _, inside, h⟩ := bind_ok h
  obtain ⟨rfl, rfl⟩ := pure_ok h
  obtain ⟨kind, plain, takenType⟩ := typeWord_ok typed
  obtain ⟨named, takenName⟩ := expect_ok expected (by decide)
  obtain ⟨grammatical, takenParams⟩ := params_ok read
  unfold block at inside
  obtain ⟨_, _, openedBody, inside⟩ := bind_ok inside
  obtain ⟨statements, _, looped, inside⟩ := bind_ok inside
  obtain ⟨_, _, closedBody, inside⟩ := bind_ok inside
  obtain ⟨rfl, rfl⟩ := pure_ok inside
  obtain ⟨formed, takenBody⟩ := many_ok (nextStatement_rounds (statement_reads levels)) looped
  refine ⟨⟨⟨kind, plain, named, grammatical⟩, formed⟩, ?_⟩
  exact takenType.trans (takenName.trans ((expect_taken opened (by decide)).trans
    (takenParams.trans ((expect_taken closed (by decide)).trans
      ((expect_taken openedBody (by decide)).trans
        (takenBody.trans (expect_taken closedBody (by decide))))))))

/-! ### Programs -/

theorem nextFunction_rounds (levels : Nat) :
    Rounds (nextFunction (statement levels)) (fun item => ∃ f, item = .function f ∧ f.Formed)
      Item.yield := by
  intro ts o rest h
  unfold nextFunction at h
  obtain ⟨kind, _, peeked, h⟩ := bind_ok h
  obtain ⟨rfl, rfl⟩ := peekKind_ok peeked
  split at h
  · obtain ⟨f, _, read, h⟩ := bind_ok h
    obtain ⟨rfl, rfl⟩ := pure_ok h
    obtain ⟨formed, taken⟩ := function_ok read
    exact .inl ⟨.function f, rfl, ⟨f, rfl, formed⟩, taken⟩
  · exact .inr (pure_ok h)

theorem nextVariable_rounds (levels : Nat) :
    Rounds (nextVariable (expression levels)) (fun item => ∃ d, item = .var d ∧ d.Formed)
      Item.yield := by
  intro ts o rest h
  unfold nextVariable at h
  obtain ⟨kind, _, peeked, h⟩ := bind_ok h
  obtain ⟨rfl, rfl⟩ := peekKind_ok peeked
  split at h
  · rename_i word
    obtain ⟨d, _, read, h⟩ := bind_ok h
    obtain ⟨rfl, rfl⟩ := pure_ok h
    obtain ⟨formed, taken⟩ := varDecl_ok (expression_reads levels) (by simpa using word) read
    exact .inl ⟨.var d, rfl, ⟨d, rfl, formed⟩, taken⟩
  · exact .inr (pure_ok h)

theorem entryBlock_ok {levels : Nat} {b : Block} (h : entryBlock (statement levels) ts = .ok b rest) :
    b.opener.kind = .beginWord ∧ (∀ s ∈ b.statements, s.Formed) ∧ Taken ts b.entryYield rest := by
  unfold entryBlock at h
  obtain ⟨opener, _, opened, h⟩ := bind_ok h
  obtain ⟨statements, _, looped, h⟩ := bind_ok h
  obtain ⟨_, _, closed, h⟩ := bind_ok h
  obtain ⟨_, _, ended, h⟩ := bind_ok h
  obtain ⟨rfl, rfl⟩ := pure_ok h
  obtain ⟨kind, takenOpener⟩ := expect_ok opened (by decide)
  obtain ⟨formed, taken⟩ := many_ok (nextStatement_rounds (statement_reads levels)) looped
  exact ⟨kind, formed, takenOpener.trans (taken.trans
    ((expect_taken closed (by decide)).trans (expect_taken ended (by decide))))⟩

theorem atEnd_ok {cause : Cause} {u : Unit} (h : (atEnd cause : Reader _) ts = .ok u rest) :
    (current rest).kind = .eof ∧ rest = ts := by
  unfold atEnd at h
  obtain ⟨kind, _, peeked, h⟩ := bind_ok h
  obtain ⟨rfl, rfl⟩ := peekKind_ok peeked
  split at h
  · rename_i ended
    obtain ⟨-, rfl⟩ := pure_ok h
    exact ⟨ended, rfl⟩
  · exact (fail_ok h).elim

/-- What is read with nothing after it is read in front of an end. -/
theorem whole_ok {α : Type} {r : Reader α} {cause : Cause} {v : α}
    (h : (do
      let w ← r
      atEnd cause
      return w : Reader α) ts = .ok v rest) : r ts = .ok v rest ∧ (current rest).kind = .eof := by
  obtain ⟨w, mid, read, h⟩ := bind_ok h
  obtain ⟨_, _, stopped, h⟩ := bind_ok h
  obtain ⟨rfl, rfl⟩ := pure_ok h
  obtain ⟨ended, rfl⟩ := atEnd_ok stopped
  exact ⟨read, ended⟩

/-- A list of values that all come from a function is the image of a list. -/
theorem exists_map_of_forall {α β : Type} {f : α → β} {good : α → Prop} {ys : List β}
    (all : ∀ y ∈ ys, ∃ x, y = f x ∧ good x) : ∃ xs : List α, ys = xs.map f ∧ ∀ x ∈ xs, good x := by
  induction ys with
  | nil => exact ⟨[], rfl, by simp⟩
  | cons y ys ih =>
    obtain ⟨⟨x, rfl, isGood⟩, others⟩ := List.forall_mem_cons.mp all
    obtain ⟨xs, rfl, allGood⟩ := ih others
    exact ⟨x :: xs, rfl, List.forall_mem_cons.mpr ⟨isGood, allGood⟩⟩

theorem program_ok {levels : Nat} {p : Program} (h : program levels ts = .ok p rest) :
    p.Formed ∧ Taken ts p.yield rest ∧ (current rest).kind = .eof := by
  unfold program programWith at h
  obtain ⟨functions, _, readFunctions, h⟩ := bind_ok h
  obtain ⟨vars, _, readVars, h⟩ := bind_ok h
  obtain ⟨entry, _, readEntry, h⟩ := bind_ok h
  obtain ⟨_, _, stopped, h⟩ := bind_ok h
  obtain ⟨rfl, rfl⟩ := pure_ok h
  obtain ⟨ended, rfl⟩ := atEnd_ok stopped
  obtain ⟨goodFunctions, takenFunctions⟩ := many_ok (nextFunction_rounds levels) readFunctions
  obtain ⟨goodVars, takenVars⟩ := many_ok (nextVariable_rounds levels) readVars
  obtain ⟨opener, formed, takenEntry⟩ := entryBlock_ok readEntry
  obtain ⟨fs, rfl, formedFunctions⟩ := exists_map_of_forall goodFunctions
  obtain ⟨ds, rfl, formedVars⟩ := exists_map_of_forall goodVars
  refine ⟨Program.formed_iff.mpr
    ⟨fs, ds, entry, rfl, formedFunctions, formedVars, opener, formed⟩, ?_, ended⟩
  have all := (takenFunctions.trans takenVars).trans takenEntry
  simpa [Program.yield, Item.yield, opener] using all

end Reader

/-! ### Whole trees -/

namespace Goal

variable {ts rest : List Token} {goal : Goal} {tree : Tree}

/-- A tree that is read is one of the grammar, written by all tokens in front of an end. -/
theorem within_ok {levels : Nat} (h : goal.within levels ts = .ok tree rest) :
    tree.goal = goal ∧ tree.Formed ∧ Taken ts tree.yield rest ∧
      (Reader.current rest).kind = .eof := by
  cases goal with
  | program =>
    obtain ⟨p, _, read, h⟩ := Reader.bind_ok h
    obtain ⟨rfl, rfl⟩ := Reader.pure_ok h
    exact ⟨rfl, Reader.program_ok read⟩
  | statement =>
    obtain ⟨s, _, whole, h⟩ := Reader.bind_ok h
    obtain ⟨rfl, rfl⟩ := Reader.pure_ok h
    obtain ⟨read, ended⟩ := Reader.whole_ok whole
    obtain ⟨formed, taken⟩ := Reader.statement_reads levels _ _ _ read
    exact ⟨rfl, formed, taken, ended⟩
  | expression =>
    obtain ⟨e, _, whole, h⟩ := Reader.bind_ok h
    obtain ⟨rfl, rfl⟩ := Reader.pure_ok h
    obtain ⟨read, ended⟩ := Reader.whole_ok whole
    obtain ⟨formed, -, taken⟩ := Reader.expression_reads levels _ _ _ read
    exact ⟨rfl, formed, taken, ended⟩

end Goal

end GameLang
