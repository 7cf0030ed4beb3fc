import GameLang.Proofs.Structure
import GameLang.Tree.Outline

/-!
# What the nodes of statements decide

Labels tell the constructors, and the grammar relates operators, values and types to the tokens that the
nodes show. So the node of an expression is of this one only (`Expr.eq_of_node_eq`), and the node of a
statement of this one only, up to the words that declare variables, which no node shows
(`Stmt.declaredBy_eq`).
-/

namespace GameLang

/-! ### Declaring words -/

def VarDecl.declaredBy (word : Token) (d : VarDecl) : VarDecl := { d with keyword := word }

mutual

/-- A statement in which one word declares all variables. -/
def Stmt.declaredBy (word : Token) : Stmt → Stmt
  | .varDecl d => .varDecl (d.declaredBy word)
  | .assign target value => .assign target value
  | .branch t c b none => .branch t c (b.declaredBy word) none
  | .branch t c b (some other) => .branch t c (b.declaredBy word) (some (other.declaredBy word))
  | .loop t c s => .loop t c (s.declaredBy word)
  | .result t e => .result t e
  | .block b => .block (b.declaredBy word)
  | .expression e => .expression e
  | .empty t => .empty t

def Block.declaredBy (word : Token) : Block → Block
  | ⟨opener, statements⟩ => ⟨opener, Stmt.allDeclaredBy word statements⟩

def Stmt.allDeclaredBy (word : Token) : List Stmt → List Stmt
  | [] => []
  | s :: ss => s.declaredBy word :: Stmt.allDeclaredBy word ss

end

variable {word : Token}

theorem Stmt.allDeclaredBy_eq_map (ss : List Stmt) :
    Stmt.allDeclaredBy word ss = ss.map (Stmt.declaredBy word) := by
  induction ss with
  | nil => rfl
  | cons s ss ih => rw [allDeclaredBy, ih, List.map_cons]

/-! ### No node shows a declaring word -/

mutual

theorem Stmt.node_declaredBy (s : Stmt) : (s.declaredBy word).node = s.node := by
  cases s with
  | branch t c b other =>
    cases other with
    | none => rw [Stmt.declaredBy, Stmt.node, Stmt.node, Block.node_declaredBy b]
    | some other =>
      rw [Stmt.declaredBy, Stmt.node, Stmt.node, Block.node_declaredBy b, Block.node_declaredBy other]
  | loop t c s => rw [Stmt.declaredBy, Stmt.node, Stmt.node, Stmt.node_declaredBy s]
  | block b => exact Block.node_declaredBy b
  | _ => rfl

theorem Block.node_declaredBy (b : Block) : (b.declaredBy word).node = b.node := by
  cases b with
  | mk opener statements =>
    rw [Block.declaredBy, Block.node, Block.node, Stmt.nodes_allDeclaredBy statements]

theorem Stmt.nodes_allDeclaredBy (ss : List Stmt) :
    Stmt.nodes (Stmt.allDeclaredBy word ss) = Stmt.nodes ss := by
  cases ss with
  | nil => rfl
  | cons s ss =>
    rw [Stmt.allDeclaredBy, Stmt.nodes, Stmt.nodes, Stmt.node_declaredBy s,
      Stmt.nodes_allDeclaredBy ss]

end

/-! ### Nodes of expressions -/

theorem map_eq_of_map_eq {α β γ : Type} {f : α → β} {g : α → γ} {as bs : List α}
    (inj : ∀ a ∈ as, ∀ b ∈ bs, f a = f b → g a = g b) (same : as.map f = bs.map f) :
    as.map g = bs.map g := by
  induction as generalizing bs with
  | nil =>
    cases bs with
    | nil => rfl
    | cons b bs => cases same
  | cons a as ih =>
    cases bs with
    | nil => cases same
    | cons b bs =>
      obtain ⟨first, others⟩ := List.cons.inj same
      have tail := ih (fun x inside y within => inj x (.tail a inside) y (.tail b within)) others
      rw [List.map_cons, List.map_cons, tail, inj a (.head as) b (.head bs) first]

theorem eq_of_map_eq {α β : Type} {f : α → β} {as bs : List α}
    (inj : ∀ a ∈ as, ∀ b ∈ bs, f a = f b → a = b) (same : as.map f = bs.map f) : as = bs := by
  have kept := map_eq_of_map_eq (g := id) inj same
  rwa [List.map_id, List.map_id] at kept

namespace Expr

theorem eq_of_nodes_eq {es ds : List Expr} (inj : ∀ e ∈ es, ∀ d ∈ ds, e.node = d.node → e = d)
    (same : nodes es = nodes ds) : es = ds := by
  rw [nodes_eq_map, nodes_eq_map] at same
  exact eq_of_map_eq inj same

/-- A node of the grammar is that of one expression. -/
theorem eq_of_node_eq {e d : Expr} (formed : e.Formed) (other : d.Formed) (same : e.node = d.node) :
    e = d := by
  -- Nodes with different labels are of different constructors and close their case.
  induction e using Expr.induction generalizing d with
  | literal t v =>
    cases d with
    | literal u w =>
      obtain ⟨-, found, -⟩ := Node.mk.inj same
      obtain rfl := Option.some.inj found
      have value := (formed_literal.mp formed).2
      rw [(formed_literal.mp other).2] at value
      rw [Option.some.inj value]
    | _ => cases (Node.mk.inj same).1
  | ident t =>
    cases d with
    | ident u => rw [Option.some.inj (Node.mk.inj same).2.1]
    | _ => cases (Node.mk.inj same).1
  | index t es ih =>
    cases d with
    | index u ds =>
      obtain ⟨-, found, parts⟩ := Node.mk.inj same
      obtain ⟨-, -, formed⟩ := formed_index.mp formed
      obtain ⟨-, -, other⟩ := formed_index.mp other
      rw [Option.some.inj found, eq_of_nodes_eq (fun e inside d within =>
        ih e inside (formed e inside) (other d within)) parts]
    | _ => cases (Node.mk.inj same).1
  | group e ih =>
    cases d with
    | group d =>
      have inner := (List.cons.inj (Node.mk.inj same).2.2).1
      rw [ih (formed_group.mp formed) (formed_group.mp other) inner]
    | _ => cases (Node.mk.inj same).1
  | call t es ih =>
    cases d with
    | call u ds =>
      obtain ⟨-, found, parts⟩ := Node.mk.inj same
      have formed := (formed_call.mp formed).2
      have other := (formed_call.mp other).2
      rw [Option.some.inj found, eq_of_nodes_eq (fun e inside d within =>
        ih e inside (formed e inside) (other d within)) parts]
    | _ => cases (Node.mk.inj same).1
  | unary op t e ih =>
    cases d with
    | unary op' u d =>
      obtain ⟨-, found, parts⟩ := Node.mk.inj same
      obtain rfl := Option.some.inj found
      obtain ⟨⟨kinds, -⟩, formed⟩ := formed_unary.mp formed
      obtain ⟨⟨kindsOther, -⟩, other⟩ := formed_unary.mp other
      -- One token, so one kind, and a kind is that of one operator.
      have operator : op = op' := by
        obtain ⟨minus, rfl⟩ | ⟨bang, rfl⟩ := kinds
        · rw [minus] at kindsOther
          have negates : op' = .neg := by simpa using kindsOther
          exact negates.symm
        · rw [bang] at kindsOther
          have inverts : op' = .not := by simpa using kindsOther
          exact inverts.symm
      rw [operator, ih formed other (List.cons.inj parts).1]
    | _ => cases (Node.mk.inj same).1
  | binary l op t r ihl ihr =>
    cases d with
    | binary l' op' u r' =>
      obtain ⟨-, found, parts⟩ := Node.mk.inj same
      obtain rfl := Option.some.inj found
      obtain ⟨left, parts⟩ := List.cons.inj parts
      obtain ⟨⟨kind, -⟩, formedLeft, formedRight⟩ := formed_binary.mp formed
      obtain ⟨⟨kindOther, -⟩, otherLeft, otherRight⟩ := formed_binary.mp other
      rw [kind] at kindOther
      rw [Option.some.inj kindOther, ihl formedLeft otherLeft left,
        ihr formedRight otherRight (List.cons.inj parts).1]
    | _ => cases (Node.mk.inj same).1

theorem eq_of_optionNodes_eq {e d : Option Expr} (formed : ∀ x ∈ e, x.Formed)
    (other : ∀ x ∈ d, x.Formed) (same : optionNodes e = optionNodes d) : e = d := by
  cases e with
  | none =>
    cases d with
    | none => rfl
    | some d => cases same
  | some e =>
    cases d with
    | none => cases same
    | some d => rw [eq_of_node_eq (formed e rfl) (other d rfl) (List.cons.inj same).1]

/-- Commands are calls, whatever is called. -/
theorem FormedCommand.exists_call {e : Expr} (formed : e.FormedCommand) :
    ∃ t args, e = .call t args ∧ ∀ x ∈ args, x.Formed := by
  cases e with
  | call t args =>
    refine ⟨t, args, rfl, ?_⟩
    rcases formedCommand_call.mp formed with ⟨-, parts⟩ | ⟨-, name, rfl, named⟩ | ⟨-, x, rfl, part⟩
    · exact parts
    · exact List.forall_mem_singleton.mpr (formed_ident.mpr named)
    · exact List.forall_mem_singleton.mpr part
  | _ => exact formed.1.elim

theorem FormedCommand.eq_of_node_eq {e d : Expr} (formed : e.FormedCommand)
    (other : d.FormedCommand) (same : e.node = d.node) : e = d := by
  obtain ⟨t, es, rfl, args⟩ := formed.exists_call
  obtain ⟨u, ds, rfl, argsOther⟩ := other.exists_call
  obtain ⟨-, found, parts⟩ := Node.mk.inj same
  rw [Option.some.inj found, eq_of_nodes_eq (fun e inside d within =>
    Expr.eq_of_node_eq (args e inside) (argsOther d within)) parts]

end Expr

/-! ### Nodes of declarations -/

/-- A type that is named by its token, with sizes of the grammar. -/
structure TypeRef.Proper (t : TypeRef) : Prop where
  kind : TypeKind.ofKind? t.token.kind = some t.kind
  rank : t.rank = t.dims.length
  sizes : ∀ size ∈ t.dims, ∀ e ∈ size, e.Formed

theorem TypeRef.Scalar.proper {t : TypeRef} (scalar : t.Scalar)
    (kind : TypeKind.ofKind? t.token.kind = some t.kind) : t.Proper := by
  obtain ⟨rank, dims⟩ := scalar
  exact ⟨kind, by rw [rank, dims, List.length_nil], by simp [dims]⟩

theorem TypeRef.eq_of_node_eq {t u : TypeRef} (proper : t.Proper) (other : u.Proper)
    (same : t.node = u.node) : t = u := by
  obtain ⟨-, found, parts⟩ := Node.mk.inj same
  have token : t.token = u.token := Option.some.inj found
  have dims : t.dims = u.dims := eq_of_map_eq (fun size inside size' within same =>
    Expr.eq_of_optionNodes_eq (proper.sizes size inside) (other.sizes size' within)
      (Node.mk.inj same).2.2) parts
  have kind : t.kind = u.kind := by
    apply Option.some.inj
    rw [← proper.kind, ← other.kind, token]
  have rank : t.rank = u.rank := by rw [proper.rank, other.rank, dims]
  cases t
  cases u
  simp_all only

theorem VarDecl.declaredBy_eq {d c : VarDecl} (formed : d.Formed) (other : c.Formed)
    (same : d.node = c.node) : d.declaredBy word = c.declaredBy word := by
  obtain ⟨-, rank, -, exprs⟩ := VarDecl.formed_iff.mp formed
  obtain ⟨-, rankOther, -, exprsOther⟩ := VarDecl.formed_iff.mp other
  obtain ⟨sizes, init⟩ := VarDecl.forall_mem_exprs.mp exprs
  obtain ⟨sizesOther, initOther⟩ := VarDecl.forall_mem_exprs.mp exprsOther
  obtain ⟨-, name, parts⟩ := Node.mk.inj same
  obtain ⟨type, value⟩ := List.cons.inj parts
  rw [declaredBy, declaredBy, Option.some.inj name, Expr.eq_of_optionNodes_eq init initOther value,
    TypeRef.eq_of_node_eq ⟨formed.1.kind, rank, sizes⟩ ⟨other.1.kind, rankOther, sizesOther⟩ type]

/-! ### Nodes of statements -/

namespace Stmt

def label : Stmt → Label
  | .varDecl _ => .varDecl
  | .assign _ _ => .assign
  | .branch _ _ _ _ => .branch
  | .loop _ _ _ => .loop
  | .result _ _ => .result
  | .block _ => .block
  | .expression _ => .expression
  | .empty _ => .empty

theorem label_node (s : Stmt) : s.node.label = s.label := by
  cases s with
  | branch t c b other => cases other <;> rfl
  | block b =>
    cases b
    rfl
  | _ => rfl

theorem label_eq {s t : Stmt} (same : s.node = t.node) : s.label = t.label := by
  rw [← label_node, same, label_node]

theorem node_branch (t : Token) (c : Expr) (b : Block) (other : Option Block) :
    (branch t c b other).node =
      .mk .branch (some t) (c.node :: b.node :: other.toList.map Block.node) := by
  cases other <;> rfl

theorem declaredBy_branch (t : Token) (c : Expr) (b : Block) (other : Option Block) :
    (branch t c b other).declaredBy word =
      .branch t c (b.declaredBy word) (other.map (Block.declaredBy word)) := by
  cases other <;> rfl

end Stmt

theorem Block.declaredBy_eq {b c : Block}
    (inj : ∀ s ∈ b.statements, ∀ t ∈ c.statements, s.node = t.node →
      s.declaredBy word = t.declaredBy word)
    (same : b.node = c.node) : b.declaredBy word = c.declaredBy word := by
  obtain ⟨opener, ss⟩ := b
  obtain ⟨openerOther, ts⟩ := c
  rw [Block.node, Block.node, Stmt.nodes_eq_map, Stmt.nodes_eq_map] at same
  obtain ⟨-, found, parts⟩ := Node.mk.inj same
  rw [Block.declaredBy, Block.declaredBy, Stmt.allDeclaredBy_eq_map, Stmt.allDeclaredBy_eq_map,
    Option.some.inj found, map_eq_of_map_eq inj parts]

namespace Stmt

/-- A node of the grammar is that of one statement, up to declaring words. -/
theorem declaredBy_eq {s t : Stmt} (formed : s.Formed) (other : t.Formed) (same : s.node = t.node) :
    s.declaredBy word = t.declaredBy word := by
  induction s using Stmt.induction generalizing t with
  | varDecl d =>
    cases t with
    | varDecl c =>
      exact congrArg varDecl
        (VarDecl.declaredBy_eq (formed_varDecl.mp formed) (formed_varDecl.mp other) same)
    | _ => cases label_eq same
  | assign target value =>
    cases t with
    | assign targetOther valueOther =>
      obtain ⟨-, -, parts⟩ := Node.mk.inj same
      obtain ⟨first, parts⟩ := List.cons.inj parts
      obtain ⟨-, formedTarget, formedValue⟩ := formed_assign.mp formed
      obtain ⟨-, otherTarget, otherValue⟩ := formed_assign.mp other
      rw [Expr.eq_of_node_eq formedTarget otherTarget first,
        Expr.eq_of_node_eq formedValue otherValue (List.cons.inj parts).1]
    | _ => cases label_eq same
  | branch w c b o ihThen ihElse =>
    cases t with
    | branch w' c' b' o' =>
      rw [node_branch, node_branch] at same
      obtain ⟨-, found, parts⟩ := Node.mk.inj same
      obtain ⟨condition, parts⟩ := List.cons.inj parts
      obtain ⟨thenNode, elseNodes⟩ := List.cons.inj parts
      obtain ⟨-, formedCondition, formedThen, formedElse⟩ := formed_branch.mp formed
      obtain ⟨-, otherCondition, otherThen, otherElse⟩ := formed_branch.mp other
      have thenBlock : b.declaredBy word = b'.declaredBy word :=
        Block.declaredBy_eq (fun s inside t within =>
          ihThen s inside (formedThen.2 s inside) (otherThen.2 t within)) thenNode
      have elseBlock : o.map (Block.declaredBy word) = o'.map (Block.declaredBy word) := by
        have blocks := map_eq_of_map_eq (g := Block.declaredBy word)
          (fun e among e' amongOther same => Block.declaredBy_eq (fun s inside t within same =>
            ihElse e (Option.mem_toList.mp among) s inside
              ((formedElse e (Option.mem_toList.mp among)).2 s inside)
              ((otherElse e' (Option.mem_toList.mp amongOther)).2 t within) same) same) elseNodes
        cases o with
        | none =>
          cases o' with
          | none => rfl
          | some e' => cases blocks
        | some e =>
          cases o' with
          | none => cases blocks
          | some e' => exact congrArg some (List.cons.inj blocks).1
      rw [declaredBy_branch, declaredBy_branch, Option.some.inj found,
        Expr.eq_of_node_eq formedCondition otherCondition condition, thenBlock, elseBlock]
    | _ => cases label_eq same
  | loop w c s ih =>
    cases t with
    | loop w' c' s' =>
      obtain ⟨-, found, parts⟩ := Node.mk.inj same
      obtain ⟨condition, parts⟩ := List.cons.inj parts
      obtain ⟨-, formedCondition, formedBody⟩ := formed_loop.mp formed
      obtain ⟨-, otherCondition, otherBody⟩ := formed_loop.mp other
      have body := (List.cons.inj parts).1
      rw [declaredBy, declaredBy, Option.some.inj found,
        Expr.eq_of_node_eq formedCondition otherCondition condition,
        ih formedBody otherBody body]
    | _ => cases label_eq same
  | result w e =>
    cases t with
    | result w' e' =>
      obtain ⟨-, found, parts⟩ := Node.mk.inj same
      rw [Option.some.inj found, Expr.eq_of_node_eq (formed_result.mp formed).2
        (formed_result.mp other).2 (List.cons.inj parts).1]
    | _ => cases label_eq same
  | block b ih =>
    cases t with
    | block b' =>
      have formed := (formed_block.mp formed).2
      have other := (formed_block.mp other).2
      refine congrArg block (Block.declaredBy_eq (fun s inside t within same => ?_) same)
      exact ih s inside (formed s inside) (other t within) same
    | _ => cases label_eq same
  | expression e =>
    cases t with
    | expression e' =>
      have parts := (Node.mk.inj same).2.2
      rw [(formed_expression.mp formed).eq_of_node_eq (formed_expression.mp other)
        (List.cons.inj parts).1]
    | _ => cases label_eq same
  | empty w =>
    cases t with
    | empty w' => rw [Option.some.inj (Node.mk.inj same).2.1]
    | _ => cases label_eq same

end Stmt

end GameLang
