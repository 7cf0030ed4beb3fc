import GameLang.Proofs.Recast.Tree

/-!
# Outlines of trees with other tokens

The nodes of a tree with other tokens are its nodes with those tokens (`Program.node_recast`). Since
a line of an outline shows the text of a token only, the outline stays if the texts do.
-/

namespace GameLang

mutual

/-- A node with other tokens. -/
def Node.recast (r : Recast) : Node → Node
  | .mk label token children => .mk label (token.map r.token) (Node.recasts r children)

def Node.recasts (r : Recast) : List Node → List Node
  | [] => []
  | n :: ns => n.recast r :: Node.recasts r ns

end

variable {r : Recast}

theorem Node.recasts_eq_map (ns : List Node) : Node.recasts r ns = ns.map (Node.recast r) := by
  induction ns with
  | nil => rfl
  | cons n ns ih => rw [recasts, ih, List.map_cons]

/-! ### The nodes of trees -/

mutual

theorem Expr.node_recast (e : Expr) : (e.recast r).node = e.node.recast r := by
  cases e with
  | literal t v => rfl
  | ident t => rfl
  | index t es => rw [recast, node, node, Node.recast, nodes_recasts es]; rfl
  | group e => rw [recast, node, node, node_recast e]; rfl
  | call t es => rw [recast, node, node, Node.recast, nodes_recasts es]; rfl
  | unary op t e => rw [recast, node, node, node_recast e]; rfl
  | binary left op t right =>
    rw [recast, node, node, node_recast left, node_recast right]; rfl

theorem Expr.nodes_recasts (es : List Expr) :
    nodes (recasts r es) = Node.recasts r (nodes es) := by
  cases es with
  | nil => rfl
  | cons e es => rw [recasts, nodes, nodes, Node.recasts, node_recast e, nodes_recasts es]

end

theorem Expr.optionNodes_recast (e : Option Expr) :
    optionNodes (e.map (Expr.recast r)) = Node.recasts r (optionNodes e) := by
  cases e with
  | none => rfl
  | some e => exact congrArg (fun n => [n]) (node_recast e)

theorem TypeRef.node_recast (t : TypeRef) : (t.recast r).node = t.node.recast r := by
  obtain ⟨kind, token, rank, dims⟩ := t
  rw [recast, node, node, Node.recast, Node.recasts_eq_map, List.map_map, List.map_map]
  congr 2
  funext size
  exact congrArg (Node.mk .dim none) (Expr.optionNodes_recast size)

theorem VarDecl.node_recast (d : VarDecl) : (d.recast r).node = d.node.recast r := by
  rw [recast, node, node, Node.recast, Node.recasts, TypeRef.node_recast, Expr.optionNodes_recast]
  rfl

mutual

theorem Stmt.node_recast (s : Stmt) : (s.recast r).node = s.node.recast r := by
  cases s with
  | varDecl d => exact VarDecl.node_recast d
  | assign target value =>
    rw [Stmt.recast, Stmt.node, Stmt.node, Expr.node_recast, Expr.node_recast]; rfl
  | branch t c b other =>
    cases other with
    | none => rw [Stmt.recast, Stmt.node, Stmt.node, Expr.node_recast, Block.node_recast b]; rfl
    | some other =>
      rw [Stmt.recast, Stmt.node, Stmt.node, Expr.node_recast, Block.node_recast b,
        Block.node_recast other]
      rfl
  | loop t c s => rw [Stmt.recast, Stmt.node, Stmt.node, Expr.node_recast, Stmt.node_recast s]; rfl
  | result t e => rw [Stmt.recast, Stmt.node, Stmt.node, Expr.node_recast]; rfl
  | block b => exact Block.node_recast b
  | expression e => rw [Stmt.recast, Stmt.node, Stmt.node, Expr.node_recast]; rfl
  | empty t => rfl

theorem Block.node_recast (b : Block) : (b.recast r).node = b.node.recast r := by
  cases b with
  | mk opener statements =>
    rw [Block.recast, Block.node, Block.node, Node.recast, Stmt.nodes_recasts statements]
    rfl

theorem Stmt.nodes_recasts (ss : List Stmt) :
    Stmt.nodes (Stmt.recasts r ss) = Node.recasts r (Stmt.nodes ss) := by
  cases ss with
  | nil => rfl
  | cons s ss =>
    rw [Stmt.recasts, Stmt.nodes, Stmt.nodes, Node.recasts, Stmt.node_recast s,
      Stmt.nodes_recasts ss]

end

theorem Param.node_recast (p : Param) : (p.recast r).node = p.node.recast r := by
  rw [recast, node, node, TypeRef.node_recast]
  rfl

theorem Function.node_recast (f : Function) : (f.recast r).node = f.node.recast r := by
  rw [recast, node, node, Node.recast, Node.recasts_eq_map, List.cons_append, List.cons_append,
    List.map_cons, List.map_append, List.map_map, List.map_map, TypeRef.node_recast,
    ← Stmt.recasts_eq_map, Stmt.nodes_recasts, Node.recasts_eq_map]
  simp only [Function.comp_def, Param.node_recast]
  rfl

theorem Item.node_recast (item : Item) : (item.recast r).node = item.node.recast r := by
  cases item with
  | function f => exact Function.node_recast f
  | var d => exact VarDecl.node_recast d
  | stmt s => exact Stmt.node_recast s

theorem Program.node_recast (p : Program) : (p.recast r).node = p.node.recast r := by
  rw [recast, node, node, Node.recast, Node.recasts_eq_map, List.map_map, List.map_map]
  congr 2
  funext item
  exact Item.node_recast item

/-! ### The lines of an outline -/

theorem Recast.KeepsText.line (keeps : r.KeepsText) (depth arity : Nat) (label : Label)
    (token : Option Token) :
    Entry.line ⟨depth, label, token.map r.token, arity⟩ = Entry.line ⟨depth, label, token, arity⟩ := by
  cases token with
  | none => rfl
  | some t =>
    unfold Entry.line
    simp only [Option.map_some, keeps t]

mutual

theorem Node.lines_recast (keeps : r.KeepsText) (depth : Nat) (n : Node) {rest rest' : List Entry}
    (same : rest'.map Entry.line = rest.map Entry.line) :
    ((n.recast r).entriesOnto depth rest').map Entry.line =
      (n.entriesOnto depth rest).map Entry.line := by
  cases n with
  | mk label token children =>
    rw [recast, entriesOnto, entriesOnto, List.map_cons, List.map_cons, keeps.line,
      childLines_recasts keeps (depth + 1) children same]
    rfl

theorem Node.childLines_recasts (keeps : r.KeepsText) (depth : Nat) (ns : List Node)
    {rest rest' : List Entry} (same : rest'.map Entry.line = rest.map Entry.line) :
    (childEntriesOnto depth (recasts r ns) rest').map Entry.line =
      (childEntriesOnto depth ns rest).map Entry.line := by
  cases ns with
  | nil => exact same
  | cons n ns =>
    rw [recasts, childEntriesOnto, childEntriesOnto]
    exact lines_recast keeps depth n (childLines_recasts keeps depth ns same)

end

theorem Node.outline_recast (keeps : r.KeepsText) (n : Node) : (n.recast r).outline = n.outline :=
  congrArg String.join (lines_recast keeps 0 n rfl)

theorem Program.outline_recast (keeps : r.KeepsText) (p : Program) :
    (p.recast r).outline = p.outline := by
  rw [outline, node_recast, Node.outline_recast keeps, outline]

end GameLang
