import GameLang.Proofs.Completeness.Stmt
import GameLang.Proofs.Grammar.Program

/-!
# Programs are read as they are written

Every tree of the grammar is read back from its tokens in front of an end, if there are levels
enough for its need (`Goal.within_accepts`). Since reading gives one tree, tokens are those of at
most one (`Tree.eq_of_written`).
-/

namespace GameLang

theorem Kind.isTypeWord_of_ofKind? {k : Kind} {kind : TypeKind}
    (found : TypeKind.ofKind? k = some kind) : k.isTypeWord = true := by
  cases k <;> first | rfl | cases found

namespace Reader

variable {levels : Nat} {us rest : List Token}

/-! ### Parameters -/

theorem param_accepts {p : Param} (grammatical : p.Grammatical) (written : Written p.yield us) :
    Accepts True param us rest p := by
  obtain ⟨name, kind, t, rank, dims⟩ := p
  obtain ⟨found, ⟨rfl, rfl⟩, named⟩ := grammatical
  obtain ⟨us, rfl, back⟩ := written_token_iff.mp written
  obtain rfl := written_singleton_iff.mp back
  have typed : Accepts True (typeWord .parameter) [t] ([name] ++ rest) (.scalar kind t) :=
    typeWord_accepts found _
  unfold param
  exact typed.before (.expect named (by decide) (.pure _ rest))

theorem nextParam_rounded {ps : List Param} (grammatical : ∀ p ∈ ps, p.Grammatical) :
    Rounded nextParam Param.nextYield (fun _ => True) (fun _ => True) ps := by
  intro p member us rest written _
  obtain ⟨comma, us, rfl, same, back⟩ := written_kind_iff.mp written
  refine ⟨by simp, trivial, ?_⟩
  unfold nextParam
  exact .accept same (by decide) (param_accepts (grammatical p member) back).map

/-- Parameters in front of the closing parenthesis. -/
theorem params_accepts {ps : List Param} (grammatical : ∀ p ∈ ps, p.Grammatical)
    (written : Written (Param.yields ps) us) (closed : (current rest).kind = .rightParen) :
    Accepts True params us rest ps := by
  unfold params
  refine .peekKind ?_
  cases ps with
  | nil =>
    obtain rfl := written_nil_iff.mp written
    rw [List.nil_append, if_pos closed]
    exact .pure [] rest
  | cons p ps =>
    obtain ⟨first, others⟩ := List.forall_mem_cons.mp grammatical
    obtain ⟨us, vs, rfl, writtenFirst, writtenOthers⟩ := written_append_iff.mp written
    have opens : (current (us ++ vs ++ rest)).kind ≠ .rightParen := by
      rw [List.append_assoc, writtenFirst.current_token]
      intro same
      have found := first.1
      rw [same] at found
      cases found
    have done : (nextParam : Reader _) rest = .ok none rest := by
      unfold nextParam
      rw [bind_of_ok (Accepts.accept_eq_none (by rw [closed]; decide))]
      rfl
    have all := many_accepts (nextParam_rounded others) trivial done writtenOthers
    rw [if_neg opens]
    exact (param_accepts first writtenFirst).before (all.map.iff (by simp))

/-! ### Functions -/

theorem function_accepts {f : Function} (formed : f.Formed) (written : Written f.yield us) :
    Accepts (Stmt.needOf f.body ≤ levels) (function (statement levels)) us rest f := by
  obtain ⟨name, ps, ⟨kind, t, rank, dims⟩, body⟩ := f
  obtain ⟨⟨found, ⟨rfl, rfl⟩, named, grammatical⟩, formedBody⟩ := formed
  obtain ⟨us, rfl, afterType⟩ := written_token_iff.mp written
  obtain ⟨us, rfl, afterName⟩ := written_token_iff.mp afterType
  obtain ⟨opener, us, rfl, opened, afterOpener⟩ := written_kind_iff.mp afterName
  obtain ⟨us, vs, rfl, writtenParams, afterParams⟩ := written_append_iff.mp afterOpener
  obtain ⟨closer, vs, rfl, closed, afterCloser⟩ := written_kind_iff.mp afterParams
  obtain ⟨brace, vs, rfl, braced, inside⟩ := written_kind_iff.mp afterCloser
  have writtenBody : Written (Block.mk brace body).yield (brace :: vs) := by
    rw [Block.yield_eq]
    exact written_token_iff.mpr ⟨vs, rfl, inside⟩
  have formedBlock : (Block.mk brace body).Formed := ⟨braced, formedBody⟩
  have typed : Accepts True (typeWord .result) [t]
      (name :: opener :: (us ++ closer :: brace :: vs) ++ rest) (.scalar kind t) :=
    typeWord_accepts found _
  have parameters : Accepts True params us (closer :: brace :: vs ++ rest) ps :=
    params_accepts grammatical writtenParams closed
  have braces : Accepts _ (block (statement levels) .beforeBody) (brace :: vs) rest ⟨brace, body⟩ :=
    block_accepts (statement_accepts levels) formedBlock writtenBody
  unfold function
  refine .iff (typed.bind (.expect named (by decide) (.expect opened (by decide)
    (parameters.bind (.expect closed (by decide) braces.map))))) ?_
  rw [true_and, true_and]
  rfl

theorem nextFunction_rounded {functions : List Function} (formed : ∀ f ∈ functions, f.Formed) :
    Rounded (nextFunction (statement levels)) Item.yield (fun item => item.need ≤ levels)
      (fun _ => True) (functions.map .function) := by
  intro item member us rest written _
  obtain ⟨f, inside, rfl⟩ := List.mem_map.mp member
  have formed := formed f inside
  have next : (current (us ++ rest)).kind.isTypeWord = true := by
    rw [written.current_token rest]
    exact Kind.isTypeWord_of_ofKind? formed.1.1
  refine ⟨?_, trivial, ?_⟩
  · obtain ⟨us, rfl, -⟩ := written_token_iff.mp written
    simp
  · unfold nextFunction
    refine .peekKind ?_
    rw [if_pos next]
    exact (function_accepts formed written).map

/-! ### Variables and the entry block -/

theorem nextVariable_rounded {decls : List VarDecl} (formed : ∀ d ∈ decls, d.Formed) :
    Rounded (nextVariable (expression levels)) Item.yield (fun item => item.need ≤ levels)
      (fun _ => True) (decls.map .var) := by
  intro item member us rest written _
  obtain ⟨d, inside, rfl⟩ := List.mem_map.mp member
  have formed := formed d inside
  have next : (current (us ++ rest)).kind = .varWord ∨
      (current (us ++ rest)).kind = .varCharWord := by
    rw [written.current_token rest]
    exact formed.1.1.imp And.left And.left
  refine ⟨?_, trivial, ?_⟩
  · obtain ⟨us, rfl, -⟩ := written_token_iff.mp written
    simp
  · unfold nextVariable
    refine .peekKind ?_
    rw [if_pos (by simpa using next)]
    exact (varDecl_accepts (expression_accepts levels) formed written).map

theorem entryBlock_accepts {entry : Block} (opens : entry.opener.kind = .beginWord)
    (formed : ∀ s ∈ entry.statements, s.Formed) (written : Written entry.entryYield us) :
    Accepts (entry.need ≤ levels) (entryBlock (statement levels)) us rest entry := by
  obtain ⟨us, rfl, back⟩ := written_token_iff.mp written
  obtain ⟨us, closers, rfl, inside, close⟩ := written_append_iff.mp back
  obtain ⟨closer, vs, rfl, closed, finish⟩ := written_kind_iff.mp close
  obtain ⟨ender, vs, rfl, ended, nothing⟩ := written_kind_iff.mp finish
  obtain rfl := written_nil_iff.mp nothing
  have all : Accepts _ _ us ([closer, ender] ++ rest) entry.statements :=
    statements_accepts (statement_accepts levels) (by decide) formed inside closed
  unfold entryBlock
  refine .expect opens (by decide) (.iff ?_ Block.need_le_iff.symm)
  cases entry
  exact all.before (.expect closed (by decide) (.expect ended (by decide) (.pure _ rest)))

/-! ### Whole trees -/

variable {α β : Type} {enough : Prop} {v : α}

/-- What is read with nothing after it, in front of an end. -/
theorem whole_accepts {r : Reader α} {f : α → β} {cause : Cause} (accepts : Accepts enough r us rest v)
    (ended : (current rest).kind = .eof) :
    Accepts enough (do
      let v ← r
      atEnd cause
      return f v) us rest (f v) := by
  have stop : (atEnd cause : Reader _) rest = .ok () rest := by
    unfold atEnd
    rw [bind_of_ok (r := peekKind) rfl, if_pos ended]
    rfl
  constructor
  · intro isEnough
    rw [bind_of_ok (accepts.read isEnough), bind_of_ok stop]
    rfl
  · intro lacking
    obtain ⟨front, t, back, split, stopped⟩ := accepts.stop lacking
    exact ⟨front, t, back, split, bind_of_fail stopped _⟩

/-- What follows the functions of a program starts no function. -/
theorem nextFunction_done (levels : Nat) {decls : List VarDecl} {entry : Block}
    {vs ws : List Token} (rest : List Token) (formed : ∀ d ∈ decls, d.Formed)
    (opens : entry.opener.kind = .beginWord)
    (writtenDecls : Written ((decls.map Item.var).flatMap Item.yield) vs)
    (writtenEntry : Written entry.entryYield ws) :
    nextFunction (statement levels) (vs ++ ws ++ rest) = .ok none (vs ++ ws ++ rest) := by
  have next : (current (vs ++ ws ++ rest)).kind.isTypeWord = false := by
    cases decls with
    | nil =>
      obtain rfl := written_nil_iff.mp writtenDecls
      obtain ⟨back, rfl, -⟩ := written_token_iff.mp writtenEntry
      change entry.opener.kind.isTypeWord = false
      rw [opens]
      rfl
    | cons d decls =>
      obtain ⟨back, rfl, -⟩ := written_token_iff.mp writtenDecls
      change d.keyword.kind.isTypeWord = false
      rcases (formed d List.mem_cons_self).1.1 with ⟨word, -⟩ | ⟨word, -⟩ <;> rw [word] <;> rfl
  unfold nextFunction
  rw [bind_of_ok (r := peekKind) rfl, if_neg (by rw [next]; decide)]
  rfl

/-- The entry block declares no variable. -/
theorem nextVariable_done (levels : Nat) {entry : Block} {ws : List Token} (rest : List Token)
    (opens : entry.opener.kind = .beginWord) (written : Written entry.entryYield ws) :
    nextVariable (expression levels) (ws ++ rest) = .ok none (ws ++ rest) := by
  have next : (current (ws ++ rest)).kind = .beginWord := by
    obtain ⟨back, rfl, -⟩ := written_token_iff.mp written
    exact opens
  unfold nextVariable
  rw [bind_of_ok (r := peekKind) rfl, if_neg (by rw [next]; decide)]
  rfl

theorem program_accepts {p : Program} (formed : p.Formed) (written : Written p.yield us)
    (ended : (current rest).kind = .eof) :
    Accepts (p.need ≤ levels) (program levels) us rest p := by
  obtain ⟨functions, decls, entry, items, formedFunctions, formedDecls, opens, formedEntry⟩ :=
    Program.formed_iff.mp formed
  obtain ⟨_⟩ := p
  obtain rfl := items
  rw [Program.yield, List.flatMap_append, List.flatMap_append, List.append_assoc] at written
  obtain ⟨us, vs, rfl, writtenFunctions, back⟩ := written_append_iff.mp written
  obtain ⟨vs, ws, rfl, writtenDecls, lastItem⟩ := written_append_iff.mp back
  have writtenEntry : Written entry.entryYield ws := by
    simpa [Item.yield, opens] using lastItem
  have readFunctions := many_accepts (nextFunction_rounded formedFunctions) trivial
    (nextFunction_done levels rest formedDecls opens writtenDecls writtenEntry) writtenFunctions
  have readDecls := many_accepts (nextVariable_rounded formedDecls) trivial
    (nextVariable_done levels rest opens writtenEntry) writtenDecls
  have readEntry : Accepts _ (entryBlock (statement levels)) ws rest entry :=
    entryBlock_accepts opens formedEntry writtenEntry
  unfold program programWith
  refine .iff (readFunctions.bind (readDecls.bind (whole_accepts readEntry ended))) ?_
  rw [Program.need_le_iff, List.forall_mem_append, List.forall_mem_append,
    List.forall_mem_singleton, and_assoc]
  rfl

end Reader

/-! ### Trees -/

/-- Every tree of the grammar is read back, if its need is at most the levels. -/
theorem Goal.within_accepts (levels : Nat) {tree : Tree} {us rest : List Token} (formed : tree.Formed)
    (written : Written tree.yield us) (ended : (Reader.current rest).kind = .eof) :
    Accepts (tree.need ≤ levels) (tree.goal.within levels) us rest tree := by
  cases tree with
  | program p => exact (Reader.program_accepts formed written ended).map
  | statement s =>
    have follow : (Reader.current rest).kind ≠ .elseWord := by
      rw [ended]
      decide
    exact (Reader.whole_accepts (Reader.statement_accepts levels s us rest formed written follow)
      ended).map
  | expression e =>
    have stops : Stops 0 rest := by
      cases rest with
      | nil => simp [Stops, Reader.current, Token.ending, BinOp.ofKind?]
      | cons t back => exact stops_cons 0 back ended (by decide)
    exact (Reader.whole_accepts (Reader.expression_accepts levels e us rest formed e.bindsFrom_zero
      written stops) ended).map

/-- Tokens are those of one tree at most, since reading them with levels enough gives one. -/
theorem Tree.eq_of_written {tree other : Tree} {us : List Token} (same : other.goal = tree.goal)
    (formed : tree.Formed) (formedOther : other.Formed) (written : Written tree.yield us)
    (writtenOther : Written other.yield us) : other = tree := by
  -- With levels enough for both trees one reading gives each of them.
  have ended : (Reader.current []).kind = .eof := rfl
  have read := (Goal.within_accepts (max tree.need other.need) formed written ended).read
    (Nat.le_max_left _ _)
  have readOther := (Goal.within_accepts (max tree.need other.need) formedOther writtenOther
    ended).read (Nat.le_max_right _ _)
  rw [same, read] at readOther
  cases readOther
  rfl

end GameLang
