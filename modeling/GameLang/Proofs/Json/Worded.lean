import GameLang.Proofs.Outline.Program

/-!
# Trees of words

A tree is worded if the tokens that it keeps are words of a text and its literals have the values of
their tokens. Programs that were read are (`Source.worded`).
-/

namespace GameLang

/-- What is kept at a place is a word. -/
def Mark.IsWord : Mark → Prop
  | token t => t.IsWord
  | kind _ => True

theorem Spelled.isWord {marks : List Mark} {us : List Token} (spelled : Spelled marks us) :
    ∀ m ∈ marks, m.IsWord := by
  induction marks generalizing us with
  | nil => exact List.forall_mem_nil _
  | cons m marks ih =>
    cases m with
    | token t =>
      obtain ⟨back, -, word, spelled⟩ := spelled_token_iff.mp spelled
      exact List.forall_mem_cons.mpr ⟨word, ih spelled⟩
    | kind k =>
      obtain ⟨t, back, -, -, -, spelled⟩ := spelled_kind_iff.mp spelled
      exact List.forall_mem_cons.mpr ⟨trivial, ih spelled⟩

/-! ### Expressions -/

inductive Expr.Worded : Expr → Prop where
  | literal {t : Token} {v : Literal} (word : t.IsWord) (value : t.literal = some v) :
      Worded (.literal t v)
  | ident {t : Token} (word : t.IsWord) : Worded (.ident t)
  | index {t : Token} {es : List Expr} (word : t.IsWord) (indices : ∀ e ∈ es, e.Worded) :
      Worded (.index t es)
  | group {e : Expr} (inner : e.Worded) : Worded (.group e)
  | call {t : Token} {es : List Expr} (word : t.IsWord) (args : ∀ e ∈ es, e.Worded) :
      Worded (.call t es)
  | unary {op : UnOp} {t : Token} {e : Expr} (word : t.IsWord) (operand : e.Worded) :
      Worded (.unary op t e)
  | binary {op : BinOp} {t : Token} {l r : Expr} (left : l.Worded) (word : t.IsWord)
      (right : r.Worded) : Worded (.binary l op t r)

namespace Expr

theorem mem_argYield {m : Mark} {e : Expr} {es : List Expr} (inside : e ∈ es) (kept : m ∈ e.yield) :
    m ∈ argYield es := by
  cases es with
  | nil => cases inside
  | cons d es =>
    rw [argYield, nextArgYield_eq_flatMap, List.mem_append, List.mem_flatMap]
    rcases List.mem_cons.mp inside with rfl | inside
    · exact .inl kept
    · exact .inr ⟨e, inside, .tail _ kept⟩

/-- Calls of whatever kind of callee. -/
theorem call_worded {t : Token} {es : List Expr}
    (all : ∀ e ∈ es, (∀ m ∈ e.yield, m.IsWord) → e.Worded)
    (words : ∀ m ∈ (call t es).yield, m.IsWord) : (call t es).Worded := by
  obtain ⟨word, parens⟩ := List.forall_mem_cons.mp words
  obtain ⟨args, -⟩ := List.forall_mem_append.mp (List.forall_mem_cons.mp parens).2
  exact .call word fun e inside => all e inside fun m kept => args m (mem_argYield inside kept)

theorem Formed.worded {e : Expr} (formed : e.Formed) (words : ∀ m ∈ e.yield, m.IsWord) :
    e.Worded := by
  induction e using Expr.induction with
  | literal t v => exact .literal (words (.token t) List.mem_cons_self) (formed_literal.mp formed).2
  | ident t => exact .ident (words (.token t) List.mem_cons_self)
  | index t es ih =>
    obtain ⟨-, -, formed⟩ := formed_index.mp formed
    obtain ⟨word, indices⟩ := List.forall_mem_cons.mp words
    rw [indexYield_eq_flatMap, List.forall_mem_flatMap] at indices
    refine .index word fun e inside => ih e inside (formed e inside) ?_
    have brackets := (List.forall_mem_cons.mp (indices e inside)).2
    exact (List.forall_mem_append.mp brackets).1
  | group e ih =>
    have parens := (List.forall_mem_cons.mp words).2
    exact .group (ih (formed_group.mp formed) (List.forall_mem_append.mp parens).1)
  | call t es ih =>
    have formed := (formed_call.mp formed).2
    exact call_worded (fun e inside => ih e inside (formed e inside)) words
  | unary op t e ih =>
    obtain ⟨word, operand⟩ := List.forall_mem_cons.mp words
    exact .unary word (ih (formed_unary.mp formed).2 operand)
  | binary left op t right ihl ihr =>
    obtain ⟨-, formedLeft, formedRight⟩ := formed_binary.mp formed
    obtain ⟨wordsLeft, back⟩ := List.forall_mem_append.mp words
    obtain ⟨word, wordsRight⟩ := List.forall_mem_cons.mp back
    exact .binary (ihl formedLeft wordsLeft) word (ihr formedRight wordsRight)

theorem FormedCommand.worded {e : Expr} (formed : e.FormedCommand)
    (words : ∀ m ∈ e.yield, m.IsWord) : e.Worded := by
  obtain ⟨t, es, rfl, args⟩ := formed.exists_call
  exact call_worded (fun e inside => (args e inside).worded) words

end Expr

/-! ### Declarations -/

structure TypeRef.Worded (t : TypeRef) : Prop where
  word : t.token.IsWord
  sizes : ∀ size ∈ t.dims, ∀ e ∈ size, e.Worded

theorem TypeRef.Scalar.worded {t : TypeRef} (scalar : t.Scalar) (word : t.token.IsWord) :
    t.Worded := ⟨word, by simp [scalar.2]⟩

structure VarDecl.Worded (d : VarDecl) : Prop where
  keyword : d.keyword.IsWord
  type : d.type.Worded
  name : d.name.IsWord
  init : ∀ e ∈ d.init, e.Worded

theorem VarDecl.Formed.worded {d : VarDecl} (formed : d.Formed) (words : ∀ m ∈ d.yield, m.IsWord) :
    d.Worded := by
  obtain ⟨-, -, -, exprs⟩ := VarDecl.formed_iff.mp formed
  obtain ⟨sizes, init⟩ := VarDecl.forall_mem_exprs.mp exprs
  obtain ⟨keyword, words⟩ := List.forall_mem_cons.mp words
  obtain ⟨type, words⟩ := List.forall_mem_cons.mp words
  obtain ⟨name, words⟩ := List.forall_mem_cons.mp words
  obtain ⟨dims, words⟩ := List.forall_mem_append.mp words
  obtain ⟨value, -⟩ := List.forall_mem_append.mp words
  refine ⟨keyword, ⟨type, fun size inside e same => ?_⟩, name, fun e same => ?_⟩
  · obtain rfl : size = some e := same
    have brackets := (List.forall_mem_cons.mp (List.forall_mem_flatMap.mp dims _ inside)).2
    exact (sizes _ inside e rfl).worded (List.forall_mem_append.mp brackets).1
  · obtain same : d.init = some e := same
    rw [same] at value
    exact (init e same).worded (List.forall_mem_cons.mp value).2

/-! ### Statements -/

inductive Stmt.Worded : Stmt → Prop where
  | varDecl {d : VarDecl} (decl : d.Worded) : Worded (.varDecl d)
  | assign {target value : Expr} (left : target.Worded) (right : value.Worded) :
      Worded (.assign target value)
  | branch {t : Token} {c : Expr} {b : Block} {other : Option Block} (word : t.IsWord)
      (condition : c.Worded) (opener : b.opener.IsWord) (thenBlock : ∀ s ∈ b.statements, s.Worded)
      (openers : ∀ o ∈ other, o.opener.IsWord)
      (elseBlock : ∀ o ∈ other, ∀ s ∈ o.statements, s.Worded) : Worded (.branch t c b other)
  | loop {t : Token} {c : Expr} {s : Stmt} (word : t.IsWord) (condition : c.Worded)
      (body : s.Worded) : Worded (.loop t c s)
  | result {t : Token} {e : Expr} (word : t.IsWord) (value : e.Worded) : Worded (.result t e)
  | block {b : Block} (opener : b.opener.IsWord) (statements : ∀ s ∈ b.statements, s.Worded) :
      Worded (.block b)
  | expression {e : Expr} (command : e.Worded) : Worded (.expression e)
  | empty {t : Token} (word : t.IsWord) : Worded (.empty t)

/-- The word and the condition of a statement. -/
theorem conditionYield_worded {t : Token} {c : Expr} {marks : List Mark} (formed : c.Formed)
    (words : ∀ m ∈ conditionYield t c ++ marks, m.IsWord) :
    t.IsWord ∧ c.Worded ∧ ∀ m ∈ marks, m.IsWord := by
  obtain ⟨front, back⟩ := List.forall_mem_append.mp words
  obtain ⟨word, parens⟩ := List.forall_mem_cons.mp front
  obtain ⟨condition, -⟩ := List.forall_mem_append.mp (List.forall_mem_cons.mp parens).2
  exact ⟨word, formed.worded condition, back⟩

theorem Block.worded {b : Block}
    (all : ∀ s ∈ b.statements, (∀ m ∈ s.yield, m.IsWord) → s.Worded)
    (words : ∀ m ∈ b.yield, m.IsWord) : b.opener.IsWord ∧ ∀ s ∈ b.statements, s.Worded := by
  rw [yield_eq] at words
  obtain ⟨opener, braces⟩ := List.forall_mem_cons.mp words
  obtain ⟨statements, -⟩ := List.forall_mem_append.mp braces
  exact ⟨opener, fun s inside => all s inside (List.forall_mem_flatMap.mp statements s inside)⟩

theorem Stmt.Formed.worded {s : Stmt} (formed : s.Formed) (words : ∀ m ∈ s.yield, m.IsWord) :
    s.Worded := by
  induction s using Stmt.induction with
  | varDecl d => exact .varDecl ((formed_varDecl.mp formed).worded words)
  | assign target value =>
    obtain ⟨-, formedTarget, formedValue⟩ := formed_assign.mp formed
    obtain ⟨left, back⟩ := List.forall_mem_append.mp words
    obtain ⟨right, -⟩ := List.forall_mem_append.mp (List.forall_mem_cons.mp back).2
    exact .assign (formedTarget.worded left) (formedValue.worded right)
  | branch t c b other ihThen ihElse =>
    obtain ⟨-, formedCondition, formedThen, formedElse⟩ := formed_branch.mp formed
    rw [yield_branch] at words
    obtain ⟨word, condition, back⟩ := conditionYield_worded formedCondition words
    obtain ⟨front, back⟩ := List.forall_mem_append.mp back
    obtain ⟨opener, thenBlock⟩ :=
      Block.worded (fun s inside => ihThen s inside (formedThen.2 s inside)) front
    have others (o : Block) (same : o ∈ other) :
        o.opener.IsWord ∧ ∀ s ∈ o.statements, s.Worded := by
      obtain rfl : other = some o := same
      exact Block.worded (fun s inside => ihElse o rfl s inside ((formedElse o rfl).2 s inside))
        (List.forall_mem_cons.mp back).2
    exact .branch word condition opener thenBlock (fun o same => (others o same).1)
      fun o same => (others o same).2
  | loop t c s ih =>
    obtain ⟨-, formedCondition, formedBody⟩ := formed_loop.mp formed
    obtain ⟨word, condition, back⟩ := conditionYield_worded formedCondition words
    exact .loop word condition (ih formedBody back)
  | result t e =>
    obtain ⟨word, back⟩ := List.forall_mem_cons.mp words
    exact .result word
      ((formed_result.mp formed).2.worded (List.forall_mem_append.mp back).1)
  | block b ih =>
    have formed := (formed_block.mp formed).2
    obtain ⟨opener, statements⟩ :=
      Block.worded (fun s inside => ih s inside (formed s inside)) words
    exact .block opener statements
  | expression e =>
    exact .expression ((formed_expression.mp formed).worded (List.forall_mem_append.mp words).1)
  | empty t => exact .empty (words (.token t) List.mem_cons_self)

/-! ### Programs -/

structure Param.Worded (p : Param) : Prop where
  name : p.name.IsWord
  type : p.type.Worded

structure Function.Worded (f : Function) : Prop where
  name : f.name.IsWord
  params : ∀ p ∈ f.params, p.Worded
  type : f.returnType.Worded
  body : ∀ s ∈ f.body, s.Worded

def Item.Worded : Item → Prop
  | .function f => f.Worded
  | .var d => d.Worded
  | .stmt s => s.Worded

def Program.Worded (p : Program) : Prop := ∀ item ∈ p.items, item.Worded

theorem Param.mem_yields {m : Mark} {p : Param} {ps : List Param} (inside : p ∈ ps)
    (kept : m ∈ p.yield) : m ∈ yields ps := by
  cases ps with
  | nil => cases inside
  | cons q ps =>
    rw [yields, List.mem_append, List.mem_flatMap]
    rcases List.mem_cons.mp inside with rfl | inside
    · exact .inl kept
    · exact .inr ⟨p, inside, .tail _ kept⟩

theorem Param.Grammatical.worded {p : Param} (grammatical : p.Grammatical)
    (words : ∀ m ∈ p.yield, m.IsWord) : p.Worded := by
  obtain ⟨type, name⟩ := List.forall_mem_cons.mp words
  exact ⟨name (.token p.name) List.mem_cons_self, grammatical.2.1.worded type⟩

theorem Function.Formed.worded {f : Function} (formed : f.Formed) (words : ∀ m ∈ f.yield, m.IsWord) :
    f.Worded := by
  obtain ⟨⟨-, scalar, -, params⟩, body⟩ := formed
  obtain ⟨type, words⟩ := List.forall_mem_cons.mp words
  obtain ⟨name, words⟩ := List.forall_mem_cons.mp words
  obtain ⟨inParens, words⟩ := List.forall_mem_append.mp (List.forall_mem_cons.mp words).2
  have braces := (List.forall_mem_cons.mp (List.forall_mem_cons.mp words).2).2
  have statements := List.forall_mem_flatMap.mp (List.forall_mem_append.mp braces).1
  exact ⟨name,
    fun p inside => (params p inside).worded fun m kept => inParens m (Param.mem_yields inside kept),
    scalar.worded type, fun s inside => (body s inside).worded (statements s inside)⟩

theorem Program.Formed.worded {p : Program} (formed : p.Formed) (words : ∀ m ∈ p.yield, m.IsWord) :
    p.Worded := by
  obtain ⟨functions, decls, entry, items, functionsOk, declsOk, opener, statementsOk⟩ :=
    Program.formed_iff.mp formed
  rw [yield, List.forall_mem_flatMap] at words
  unfold Worded
  rw [items] at words ⊢
  simp only [List.forall_mem_append, List.forall_mem_map, List.forall_mem_singleton] at words ⊢
  obtain ⟨⟨functions, decls⟩, last⟩ := words
  refine ⟨⟨fun f member => (functionsOk f member).worded (functions f member),
    fun d member => (declsOk d member).worded (decls d member)⟩, ?_⟩
  rw [Item.yield, if_pos opener] at last
  obtain ⟨word, back⟩ := List.forall_mem_cons.mp last
  have statements := List.forall_mem_flatMap.mp (List.forall_mem_append.mp back).1
  exact .block word fun s inside => (statementsOk s inside).worded (statements s inside)

theorem Source.worded {text : String} {s : Source} (read : Source.read text = .ok s) :
    s.program.Worded := by
  obtain ⟨formed, us, q, -, spelled⟩ := spelled_of_read read
  exact formed.worded spelled.isWord

end GameLang
