import GameLang.Proofs.Grammar.Expr

/-!
# The grammar of statements

As for expressions: how statements are written out, which trees the grammar has, and how many
levels are open at once while one is read.
-/

namespace GameLang

/-! ### Declarations -/

/-- A type has no dimensions. -/
def TypeRef.Scalar (t : TypeRef) : Prop := t.rank = 0 ∧ t.dims = []

theorem TypeRef.scalar_scalar (kind : TypeKind) (token : Token) : (scalar kind token).Scalar :=
  ⟨rfl, rfl⟩

@[simp]
theorem TypeRef.dims_withDims (t : TypeRef) (dims : List (Option Expr)) :
    (t.withDims dims).dims = dims := rfl

namespace VarDecl

/-- The sizes and the initial value of a declaration. -/
def exprs (d : VarDecl) : List Expr := d.type.dims.filterMap id ++ d.init.toList

/-- The type of a declaration is that of its word, with its dimensions counted; one of the two
declaring words goes with one type only. -/
def Grammatical (d : VarDecl) : Prop :=
  (d.keyword.kind = .varWord ∧ TypeKind.ofKind? d.type.token.kind = some d.type.kind ∨
    d.keyword.kind = .varCharWord ∧ d.type.token.kind = .charType ∧ d.type.kind = .char) ∧
  d.type.rank = d.type.dims.length ∧ d.name.kind = .ident ∧ ∀ e ∈ d.exprs, e.Shaped

theorem forall_mem_exprs {P : Expr → Prop} {d : VarDecl} :
    (∀ e ∈ d.exprs, P e) ↔ (∀ size ∈ d.type.dims, ∀ e ∈ size, P e) ∧ ∀ e ∈ d.init, P e := by
  simp only [exprs, List.forall_mem_append, List.mem_filterMap, Option.mem_toList]
  refine and_congr_left fun _ => ⟨fun h size member e same => h e ⟨size, member, same⟩, ?_⟩
  rintro h e ⟨size, member, same⟩
  exact h size member e same

/-- The most levels open at once in a declaration, which opens none itself. -/
def need (d : VarDecl) : Nat := Expr.depthOf d.exprs

theorem need_le_iff {d : VarDecl} {levels : Nat} :
    d.need ≤ levels ↔
      (∀ size ∈ d.type.dims, ∀ e ∈ size, e.depth < levels) ∧ ∀ e ∈ d.init, e.depth < levels := by
  rw [need, Expr.depthOf_le_iff, forall_mem_exprs]

def dimYield (size : Option Expr) : List Mark :=
  .kind .leftBracket :: (size.elim [] Expr.yield ++ [.kind .rightBracket])

def initYield : Option Expr → List Mark
  | none => []
  | some value => .kind .assign :: value.yield

def yield (d : VarDecl) : List Mark :=
  .token d.keyword :: .token d.type.token :: .token d.name ::
    (d.type.dims.flatMap dimYield ++ (initYield d.init ++ [.kind .semicolon]))

/-- A declaration of the grammar. -/
def Formed (d : VarDecl) : Prop := d.Grammatical ∧ ∀ e ∈ d.exprs, ∀ x ∈ e.parts, x.Ordered

theorem formed_iff {d : VarDecl} :
    d.Formed ↔
      (d.keyword.kind = .varWord ∧ TypeKind.ofKind? d.type.token.kind = some d.type.kind ∨
        d.keyword.kind = .varCharWord ∧ d.type.token.kind = .charType ∧ d.type.kind = .char) ∧
      d.type.rank = d.type.dims.length ∧ d.name.kind = .ident ∧ ∀ e ∈ d.exprs, e.Formed := by
  simp only [Formed, Grammatical, Expr.Formed, forall_and, and_assoc]

end VarDecl

/-! ### Targets and commands -/

/-- What can be assigned to: a variable or an element. -/
def Expr.IsTarget : Expr → Prop
  | .ident _ | .index _ _ => True
  | _ => False

/-- What can stand as a statement: a call, or a built-in procedure with one argument, which is a
plain name where a value is read in. -/
def Expr.IsCommand : Expr → Prop
  | .call t args =>
    t.kind = .ident ∧ (∀ e ∈ args, e.Shaped) ∨
    t.kind = .readWord ∧ (∃ name, args = [.ident name] ∧ name.kind = .ident) ∨
    t.kind ∈ [.printWord, .encryptWord, .decryptWord] ∧ ∃ e, args = [e] ∧ e.Shaped
  | _ => False

/-- The other built-in procedures take a value. -/
theorem Kind.ne_readWord {k : Kind} (word : k ∈ [printWord, encryptWord, decryptWord]) :
    k ≠ .readWord := by
  rintro rfl
  exact absurd word (by decide)

/-- A command of the grammar, its arguments read by precedence and from left to right. -/
def Expr.FormedCommand (e : Expr) : Prop := e.IsCommand ∧ ∀ x ∈ e.parts, x.Ordered

theorem Expr.ordered_call_parts {t : Token} {args : List Expr} :
    (∀ x ∈ (call t args).parts, x.Ordered) ↔ ∀ e ∈ args, ∀ x ∈ e.parts, x.Ordered := by
  rw [parts, inner, List.forall_mem_cons, forall_mem_partsOf]
  exact and_iff_right trivial

theorem Expr.formedCommand_call {t : Token} {args : List Expr} :
    (call t args).FormedCommand ↔
      t.kind = .ident ∧ (∀ e ∈ args, e.Formed) ∨
      t.kind = .readWord ∧ (∃ name, args = [.ident name] ∧ name.kind = .ident) ∨
      t.kind ∈ [.printWord, .encryptWord, .decryptWord] ∧ ∃ e, args = [e] ∧ e.Formed := by
  rw [FormedCommand, ordered_call_parts, IsCommand]
  constructor
  · rintro ⟨⟨function, shaped⟩ | ⟨read, name, rfl, named⟩ | ⟨procedure, e, rfl, shaped⟩, ordered⟩
    · exact .inl ⟨function, fun e member => ⟨shaped e member, ordered e member⟩⟩
    · exact .inr (.inl ⟨read, name, rfl, named⟩)
    · exact .inr (.inr ⟨procedure, e, rfl, shaped, ordered e (List.mem_singleton_self e)⟩)
  · rintro (⟨function, formed⟩ | ⟨read, name, rfl, named⟩ | ⟨procedure, e, rfl, formed⟩)
    · exact ⟨.inl ⟨function, fun e member => (formed e member).1⟩,
        fun e member => (formed e member).2⟩
    · exact ⟨.inr (.inl ⟨read, name, rfl, named⟩),
        List.forall_mem_singleton.mpr (formed_ident.mpr named).2⟩
    · exact ⟨.inr (.inr ⟨procedure, e, rfl, formed.1⟩), List.forall_mem_singleton.mpr formed.2⟩

/-- The most levels open at once in a command. The name of a variable that is read in opens none. -/
def Expr.commandNeed : Expr → Nat
  | .call t args => if t.kind = .readWord then 0 else Expr.depthOf args
  | e => e.depth

/-! ### Statements inside statements -/

namespace Stmt

/-- What holds of a statement if it holds of the statements inside it holds of every statement. -/
theorem induction {P : Stmt → Prop} (varDecl : ∀ d, P (.varDecl d))
    (assign : ∀ target value, P (.assign target value))
    (branch : ∀ t c b other, (∀ s ∈ b.statements, P s) →
      (∀ o ∈ other, ∀ s ∈ o.statements, P s) → P (.branch t c b other))
    (loop : ∀ t c s, P s → P (.loop t c s)) (result : ∀ t e, P (.result t e))
    (block : ∀ b, (∀ s ∈ b.statements, P s) → P (.block b))
    (expression : ∀ e, P (.expression e)) (empty : ∀ t, P (.empty t)) (s : Stmt) : P s :=
  @Stmt.rec P (fun b => ∀ s ∈ b.statements, P s) (fun other => ∀ b ∈ other, ∀ s ∈ b.statements, P s)
    (fun ss => ∀ s ∈ ss, P s) varDecl assign branch loop result block expression empty
    (fun _ _ inside => inside) (by simp) (fun _ inside => by simpa using inside) (by simp)
    (fun _ _ head tail => List.forall_mem_cons.mpr ⟨head, tail⟩) s

end Stmt

mutual

/-- The statements inside a statement, itself left out. -/
def Stmt.inner : Stmt → List Stmt
  | .branch _ _ b none => b.parts
  | .branch _ _ b (some other) => b.parts ++ other.parts
  | .loop _ _ s => s :: s.inner
  | .block b => b.parts
  | .varDecl _ | .assign _ _ | .result _ _ | .expression _ | .empty _ => []

def Block.parts : Block → List Stmt
  | ⟨_, statements⟩ => Stmt.partsOf statements

def Stmt.partsOf : List Stmt → List Stmt
  | [] => []
  | s :: ss => s :: s.inner ++ Stmt.partsOf ss

end

def Stmt.parts (s : Stmt) : List Stmt := s :: s.inner

theorem Stmt.mem_partsOf {x : Stmt} {ss : List Stmt} :
    x ∈ Stmt.partsOf ss ↔ ∃ s ∈ ss, x ∈ s.parts := by
  induction ss with
  | nil => simp [partsOf]
  | cons s ss ih =>
    rw [partsOf, List.mem_append, ih, List.exists_mem_cons_iff]
    rfl

theorem Block.mem_parts {x : Stmt} {b : Block} : x ∈ b.parts ↔ ∃ s ∈ b.statements, x ∈ s.parts := by
  cases b with
  | mk opener statements => exact Stmt.mem_partsOf

/-! ### What the grammar asks for -/

def Block.Braced (b : Block) : Prop := b.opener.kind = .leftBrace

namespace Stmt

/-- A statement is one of the grammar, apart from the statements inside it. -/
def Grammatical : Stmt → Prop
  | .varDecl d => d.Grammatical
  | .assign target value => target.IsTarget ∧ target.Shaped ∧ value.Shaped
  | .branch t c b other => t.kind = .ifWord ∧ c.Shaped ∧ b.Braced ∧ ∀ o ∈ other, o.Braced
  | .loop t c _ => t.kind = .whileWord ∧ c.Shaped
  | .result t e => t.kind = .returnWord ∧ e.Shaped
  | .block b => b.Braced
  | .expression e => e.IsCommand
  | .empty t => t.kind = .semicolon

/-- The whole expressions of a statement, apart from those in the statements inside it. -/
def exprs : Stmt → List Expr
  | .varDecl d => d.exprs
  | .assign target value => [target, value]
  | .branch _ c _ _ => [c]
  | .loop _ c _ => [c]
  | .result _ e => [e]
  | .expression e => [e]
  | .block _ | .empty _ => []

/-- Every statement inside a statement is one of the grammar. -/
def Shaped (s : Stmt) : Prop := ∀ x ∈ s.parts, x.Grammatical

/-- Every node of every expression in a statement. -/
def nodesOfExprs (s : Stmt) : List Expr := s.parts.flatMap fun x => x.exprs.flatMap Expr.parts

/-- A statement of the grammar, its expressions read by precedence and from left to right. -/
def Formed (s : Stmt) : Prop := s.Shaped ∧ ∀ e ∈ s.nodesOfExprs, e.Ordered

/-- What being a statement of the grammar asks of a statement apart from those inside it. -/
def Proper (s : Stmt) : Prop := s.Grammatical ∧ ∀ e ∈ s.exprs, ∀ x ∈ e.parts, x.Ordered

theorem formed_iff {s : Stmt} : s.Formed ↔ ∀ x ∈ s.parts, x.Proper := by
  simp only [Formed, Shaped, nodesOfExprs, Proper, List.mem_flatMap]
  constructor
  · rintro ⟨shaped, ordered⟩ x inside
    exact ⟨shaped x inside, fun e member y part => ordered y ⟨x, inside, e, member, part⟩⟩
  · intro proper
    refine ⟨fun x inside => (proper x inside).1, ?_⟩
    rintro y ⟨x, inside, e, member, part⟩
    exact (proper x inside).2 e member y part

end Stmt

/-- A block in braces whose statements are of the grammar. -/
def Block.Formed (b : Block) : Prop := b.Braced ∧ ∀ s ∈ b.statements, s.Formed

theorem Block.forall_parts_proper {b : Block} :
    (∀ x ∈ b.parts, x.Proper) ↔ ∀ s ∈ b.statements, s.Formed := by
  simp only [Block.mem_parts, Stmt.formed_iff]
  exact ⟨fun h s member x inside => h x ⟨s, member, inside⟩,
    fun h x ⟨s, member, inside⟩ => h s member x inside⟩

namespace Stmt

theorem formed_iff_inner {s : Stmt} : s.Formed ↔ s.Proper ∧ ∀ x ∈ s.inner, x.Proper := by
  rw [formed_iff, parts, List.forall_mem_cons]

theorem formed_of_inner_nil {s : Stmt} (alone : s.inner = []) : s.Formed ↔ s.Proper := by
  simp [formed_iff_inner, alone]

theorem proper_branch {t : Token} {c : Expr} {b : Block} {other : Option Block} :
    (branch t c b other).Proper ↔
      t.kind = .ifWord ∧ c.Formed ∧ b.Braced ∧ ∀ o ∈ other, o.Braced := by
  simp only [Proper, Grammatical, exprs, List.forall_mem_singleton, Expr.Formed]
  tauto

theorem proper_loop {t : Token} {c : Expr} {s : Stmt} :
    (loop t c s).Proper ↔ t.kind = .whileWord ∧ c.Formed := by
  simp only [Proper, Grammatical, exprs, List.forall_mem_singleton, Expr.Formed]
  tauto

theorem formed_varDecl {d : VarDecl} : (varDecl d).Formed ↔ d.Formed :=
  formed_of_inner_nil rfl

theorem formed_assign {target value : Expr} :
    (assign target value).Formed ↔ target.IsTarget ∧ target.Formed ∧ value.Formed := by
  rw [formed_of_inner_nil rfl]
  simp only [Proper, Grammatical, exprs, List.forall_mem_cons, Expr.Formed]
  tauto

theorem formed_branch {t : Token} {c : Expr} {b : Block} {other : Option Block} :
    (branch t c b other).Formed ↔
      t.kind = .ifWord ∧ c.Formed ∧ b.Formed ∧ ∀ o ∈ other, o.Formed := by
  rw [formed_iff_inner, proper_branch]
  cases other with
  | none =>
    simp only [inner, Block.forall_parts_proper, Block.Formed]
    simp
    tauto
  | some other =>
    simp only [inner, List.forall_mem_append, Block.forall_parts_proper, Block.Formed]
    simp
    tauto

theorem formed_loop {t : Token} {c : Expr} {s : Stmt} :
    (loop t c s).Formed ↔ t.kind = .whileWord ∧ c.Formed ∧ s.Formed := by
  rw [formed_iff_inner, proper_loop, inner, List.forall_mem_cons, ← formed_iff_inner, and_assoc]

theorem formed_result {t : Token} {e : Expr} :
    (result t e).Formed ↔ t.kind = .returnWord ∧ e.Formed := by
  rw [formed_of_inner_nil rfl]
  simp only [Proper, Grammatical, exprs, List.forall_mem_singleton, Expr.Formed]
  tauto

theorem formed_block {b : Block} : (block b).Formed ↔ b.Formed := by
  rw [formed_iff_inner, inner, Block.forall_parts_proper]
  simp [Proper, Grammatical, exprs, Block.Formed]

theorem formed_expression {e : Expr} : (expression e).Formed ↔ e.FormedCommand := by
  rw [formed_of_inner_nil rfl]
  simp only [Proper, Grammatical, exprs, List.forall_mem_singleton, Expr.FormedCommand]

theorem formed_empty {t : Token} : (empty t).Formed ↔ t.kind = .semicolon := by
  rw [formed_of_inner_nil rfl]
  simp [Proper, Grammatical, exprs]

end Stmt

/-! ### Writing a statement out -/

/-- A word and a condition in parentheses, written out. -/
def conditionYield (word : Token) (condition : Expr) : List Mark :=
  .token word :: .kind .leftParen :: (condition.yield ++ [.kind .rightParen])

mutual

/-- A statement written out. -/
def Stmt.yield : Stmt → List Mark
  | .varDecl d => d.yield
  | .assign target value =>
    target.yield ++ .kind .assign :: (value.yield ++ [.kind .semicolon])
  | .branch t c b none => conditionYield t c ++ b.yield
  | .branch t c b (some other) =>
    conditionYield t c ++ (b.yield ++ .kind .elseWord :: other.yield)
  | .loop t c s => conditionYield t c ++ s.yield
  | .result t e => .token t :: (e.yield ++ [.kind .semicolon])
  | .block b => b.yield
  | .expression e => e.yield ++ [.kind .semicolon]
  | .empty t => [.token t]

def Block.yield : Block → List Mark
  | ⟨opener, statements⟩ => .token opener :: (Stmt.yields statements ++ [.kind .rightBrace])

def Stmt.yields : List Stmt → List Mark
  | [] => []
  | s :: ss => s.yield ++ Stmt.yields ss

end

theorem Stmt.yields_eq_flatMap (ss : List Stmt) : Stmt.yields ss = ss.flatMap Stmt.yield := by
  induction ss with
  | nil => rfl
  | cons s ss ih => simp [yields, ih]

theorem Stmt.yield_branch (t : Token) (c : Expr) (b : Block) (other : Option Block) :
    (branch t c b other).yield =
      conditionYield t c ++ (b.yield ++ other.elim [] fun o => .kind .elseWord :: o.yield) := by
  cases other with
  | none => simp [yield]
  | some other => simp [yield]

theorem Block.yield_eq (b : Block) :
    b.yield = .token b.opener :: (b.statements.flatMap Stmt.yield ++ [.kind .rightBrace]) := by
  cases b with
  | mk opener statements => rw [yield, Stmt.yields_eq_flatMap]

/-! ### Levels -/

mutual

/-- The most levels that are open at once in a statement, its own included. -/
def Stmt.need : Stmt → Nat
  | .varDecl d => d.need + 1
  | .assign target value => max target.depth (value.depth + 1) + 1
  | .branch _ c b none => max (c.depth + 1) b.need + 1
  | .branch _ c b (some other) => max (c.depth + 1) (max b.need other.need) + 1
  | .loop _ c s => max (c.depth + 1) s.need + 1
  | .result _ e => e.depth + 1 + 1
  | .block b => b.need + 1
  | .expression e => e.commandNeed + 1
  | .empty _ => 1

/-- The most levels open at once in a block, which opens none itself. -/
def Block.need : Block → Nat
  | ⟨_, statements⟩ => Stmt.needOf statements

def Stmt.needOf : List Stmt → Nat
  | [] => 0
  | s :: ss => max s.need (Stmt.needOf ss)

end

theorem Stmt.needOf_le_iff {ss : List Stmt} {levels : Nat} :
    Stmt.needOf ss ≤ levels ↔ ∀ s ∈ ss, s.need ≤ levels := by
  induction ss with
  | nil => simp [needOf]
  | cons s ss ih => rw [needOf, Nat.max_le, ih, List.forall_mem_cons]

theorem Stmt.need_branch_le_iff {t : Token} {c : Expr} {b : Block} {other : Option Block}
    {levels : Nat} :
    (branch t c b other).need ≤ levels + 1 ↔
      c.depth < levels ∧ b.need ≤ levels ∧ ∀ o ∈ other, o.need ≤ levels := by
  cases other with
  | none =>
    rw [need, Nat.add_le_add_iff_right, Nat.max_le, Nat.succ_le_iff]
    simp
  | some other =>
    rw [need, Nat.add_le_add_iff_right, Nat.max_le, Nat.max_le, Nat.succ_le_iff]
    simp

theorem Block.need_le_iff {b : Block} {levels : Nat} :
    b.need ≤ levels ↔ ∀ s ∈ b.statements, s.need ≤ levels := by
  cases b with
  | mk opener statements => rw [need, Stmt.needOf_le_iff]

end GameLang
