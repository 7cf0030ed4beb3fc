import GameLang.Proofs.Grammar.Stmt
import GameLang.Reader.Goal

/-!
# The grammar of programs

A program is functions, then variables, then the entry block. `Tree` puts programs, statements and
expressions together: `Tree.yield` writes a tree out, `Tree.Formed` says that the grammar has it,
and `Tree.need` is the number of levels that reading it opens at once.
-/

namespace GameLang

/-! ### Functions -/

/-- A parameter of the grammar: a type word without dimensions, and a name. -/
def Param.Grammatical (p : Param) : Prop :=
  TypeKind.ofKind? p.type.token.kind = some p.type.kind ∧ p.type.Scalar ∧ p.name.kind = .ident

def Param.yield (p : Param) : List Mark := [.token p.type.token, .token p.name]

def Param.nextYield (p : Param) : List Mark := .kind .comma :: p.yield

def Param.yields : List Param → List Mark
  | [] => []
  | p :: ps => p.yield ++ ps.flatMap Param.nextYield

namespace Function

/-- A function of the grammar, apart from its statements. -/
def Grammatical (f : Function) : Prop :=
  TypeKind.ofKind? f.returnType.token.kind = some f.returnType.kind ∧ f.returnType.Scalar ∧
    f.name.kind = .ident ∧ ∀ p ∈ f.params, p.Grammatical

/-- A function of the grammar. -/
def Formed (f : Function) : Prop := f.Grammatical ∧ ∀ s ∈ f.body, s.Formed

def yield (f : Function) : List Mark :=
  .token f.returnType.token :: .token f.name :: .kind .leftParen ::
    (Param.yields f.params ++ .kind .rightParen :: .kind .leftBrace ::
      (f.body.flatMap Stmt.yield ++ [.kind .rightBrace]))

end Function

/-! ### Programs -/

def Block.entryYield (b : Block) : List Mark :=
  .token b.opener :: (b.statements.flatMap Stmt.yield ++ [.kind .endWord, .kind .semicolon])

namespace Item

/-- The statements directly in an item; for the entry block, those of the block. -/
def statements : Item → List Stmt
  | .function f => f.body
  | .var _ => []
  | .stmt (.block b) => b.statements
  | .stmt s => [s]

/-- The expressions of a declaration outside of functions. -/
def exprs : Item → List Expr
  | .var d => d.exprs
  | _ => []

/-- An item written out. Only a block that its own word opens is the entry block. -/
def yield : Item → List Mark
  | .function f => f.yield
  | .var d => d.yield
  | .stmt (.block b) => if b.opener.kind = .beginWord then b.entryYield else b.yield
  | .stmt s => s.yield

/-- The most levels open at once in an item. The body of a function, a declaration and the entry
block open none themselves. -/
def need : Item → Nat
  | .function f => Stmt.needOf f.body
  | .var d => d.need
  | .stmt (.block b) => b.need
  | .stmt s => s.need

end Item

namespace Program

/-- The items of a program: functions, then variables, then the entry block. -/
def Arranged (p : Program) : Prop :=
  ∃ functions decls entry,
    p.items = List.map .function functions ++ List.map .var decls ++ [.stmt (.block entry)] ∧
    (∀ f ∈ functions, f.Grammatical) ∧ (∀ d ∈ decls, d.Grammatical) ∧
    entry.opener.kind = .beginWord

/-- Every node of every expression in a program. -/
def nodesOfExprs (p : Program) : List Expr :=
  p.items.flatMap fun item =>
    item.exprs.flatMap Expr.parts ++ item.statements.flatMap Stmt.nodesOfExprs

/-- A program of the grammar up to the nesting of operators. -/
def Shaped (p : Program) : Prop :=
  p.Arranged ∧ ∀ item ∈ p.items, ∀ s ∈ item.statements, s.Shaped

/-- A program of the grammar, its expressions read by precedence and from left to right. -/
def Formed (p : Program) : Prop := p.Shaped ∧ ∀ e ∈ p.nodesOfExprs, e.Ordered

theorem forall_nodesOfExprs {P : Expr → Prop} {p : Program} :
    (∀ e ∈ p.nodesOfExprs, P e) ↔ ∀ item ∈ p.items,
      (∀ e ∈ item.exprs, ∀ x ∈ e.parts, P x) ∧
        ∀ s ∈ item.statements, ∀ e ∈ s.nodesOfExprs, P e := by
  simp only [nodesOfExprs, List.forall_mem_flatMap, List.forall_mem_append]

/-- Functions, variables and an entry block of the grammar make a program, and nothing else does. -/
theorem formed_iff {p : Program} :
    p.Formed ↔ ∃ functions decls entry,
      p.items = List.map .function functions ++ List.map .var decls ++ [.stmt (.block entry)] ∧
      (∀ f ∈ functions, f.Formed) ∧ (∀ d ∈ decls, d.Formed) ∧
      entry.opener.kind = .beginWord ∧ ∀ s ∈ entry.statements, s.Formed := by
  rw [Formed, Shaped, forall_nodesOfExprs]
  constructor
  · rintro ⟨⟨⟨functions, decls, entry, items, functionsOk, declsOk, opener⟩, shaped⟩, ordered⟩
    refine ⟨functions, decls, entry, items, ?_, ?_, opener, ?_⟩
    · intro f member
      have inside : Item.function f ∈ p.items := by simp [items, member]
      exact ⟨functionsOk f member,
        fun s body => ⟨shaped _ inside s body, (ordered _ inside).2 s body⟩⟩
    · intro d member
      have inside : Item.var d ∈ p.items := by simp [items, member]
      exact ⟨declsOk d member, (ordered _ inside).1⟩
    · intro s member
      have inside : Item.stmt (.block entry) ∈ p.items := by simp [items]
      exact ⟨shaped _ inside s member, (ordered _ inside).2 s member⟩
  · rintro ⟨functions, decls, entry, items, functionsOk, declsOk, opener, statementsOk⟩
    refine ⟨⟨⟨functions, decls, entry, items, fun f member => (functionsOk f member).1,
      fun d member => (declsOk d member).1, opener⟩, ?_⟩, ?_⟩
    · simp only [items, List.forall_mem_append, List.forall_mem_map, List.forall_mem_singleton]
      exact ⟨⟨fun f member s body => ((functionsOk f member).2 s body).1,
        fun d _ s absent => by simp [Item.statements] at absent⟩,
        fun s member => (statementsOk s member).1⟩
    · simp only [items, List.forall_mem_append, List.forall_mem_map, List.forall_mem_singleton]
      exact ⟨⟨fun f member => ⟨fun e absent => by simp [Item.exprs] at absent,
          fun s body => ((functionsOk f member).2 s body).2⟩,
        fun d member => ⟨(declsOk d member).2, fun s absent => by simp [Item.statements] at absent⟩⟩,
        fun e absent => by simp [Item.exprs] at absent, fun s member => (statementsOk s member).2⟩

def yield (p : Program) : List Mark := p.items.flatMap Item.yield

def need (p : Program) : Nat := (p.items.map Item.need).foldr max 0

theorem need_le_iff {p : Program} {levels : Nat} :
    p.need ≤ levels ↔ ∀ item ∈ p.items, item.need ≤ levels := by
  unfold need
  induction p.items with
  | nil => simp
  | cons item items ih =>
    rw [List.map_cons, List.foldr_cons, Nat.max_le, ih, List.forall_mem_cons]

end Program

/-! ### Trees -/

namespace Tree

/-- What a tree is read for. -/
def goal : Tree → Goal
  | .program _ => .program
  | .statement _ => .statement
  | .expression _ => .expression

def nodesOfExprs : Tree → List Expr
  | .program p => p.nodesOfExprs
  | .statement s => s.nodesOfExprs
  | .expression e => e.parts

/-- A tree of the grammar up to the nesting of operators. -/
def Shaped : Tree → Prop
  | .program p => p.Shaped
  | .statement s => s.Shaped
  | .expression e => e.Shaped

/-- A tree of the grammar, its expressions read by precedence and from left to right. -/
def Formed (t : Tree) : Prop := t.Shaped ∧ ∀ e ∈ t.nodesOfExprs, e.Ordered

def yield : Tree → List Mark
  | .program p => p.yield
  | .statement s => s.yield
  | .expression e => e.yield

/-- The most levels open at once while a tree is read. An expression that stands alone opens one. -/
def need : Tree → Nat
  | .program p => p.need
  | .statement s => s.need
  | .expression e => e.depth + 1

end Tree

end GameLang
