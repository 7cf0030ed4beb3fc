import GameLang.Tree.Basic

/-!
# Outlines

Every part of a program as a node with a label, perhaps a token, and its parts in source order. The
outline lists the nodes of a tree, one a line, each indented by its depth.
-/

namespace GameLang

/-- What a node stands for. -/
inductive Label where
  | program
  | function
  | param
  | type
  | dim
  | varDecl
  | block
  | assign
  | branch
  | loop
  | result
  | expression
  | empty
  | literal
  | ident
  | index
  | group
  | call
  | unary
  | binary
  deriving DecidableEq

def Label.name : Label → String
  | program => "Program"
  | function => "FunctionDef"
  | param => "Param"
  | type => "Type"
  | dim => "Dim"
  | varDecl => "VarDecl"
  | block => "Block"
  | assign => "Assign"
  | branch => "If"
  | loop => "While"
  | result => "Return"
  | expression => "ExpressionStmt"
  | empty => "Empty"
  | literal => "Literal"
  | ident => "Ident"
  | index => "Index"
  | group => "Grouping"
  | call => "Call"
  | unary => "Unary"
  | binary => "Binary"

/-- A part of a program. -/
inductive Node where
  | mk (label : Label) (token : Option Token) (children : List Node)

namespace Node

def label : Node → Label
  | .mk label _ _ => label

def token : Node → Option Token
  | .mk _ token _ => token

def children : Node → List Node
  | .mk _ _ children => children

end Node

/-! ### Programs as nodes -/

mutual

def Expr.node : Expr → Node
  | .literal t _ => .mk .literal (some t) []
  | .ident t => .mk .ident (some t) []
  | .index t indices => .mk .index (some t) (Expr.nodes indices)
  | .group inner => .mk .group none [inner.node]
  | .call t args => .mk .call (some t) (Expr.nodes args)
  | .unary _ t operand => .mk .unary (some t) [operand.node]
  | .binary left _ t right => .mk .binary (some t) [left.node, right.node]

def Expr.nodes : List Expr → List Node
  | [] => []
  | e :: rest => e.node :: Expr.nodes rest

end

theorem Expr.nodes_eq_map (es : List Expr) : nodes es = es.map node := by
  induction es with
  | nil => rfl
  | cons e es ih => rw [nodes, ih, List.map_cons]

def Expr.optionNodes (e : Option Expr) : List Node := e.toList.map Expr.node

/-- A type as a node; its dimensions are nodes too, with or without a size. -/
def TypeRef.node (t : TypeRef) : Node :=
  .mk .type (some t.token) (t.dims.map fun size => .mk .dim none (Expr.optionNodes size))

def VarDecl.node (d : VarDecl) : Node :=
  .mk .varDecl (some d.name) (d.type.node :: Expr.optionNodes d.init)

mutual

def Stmt.node : Stmt → Node
  | .varDecl decl => decl.node
  | .assign target value => .mk .assign none [target.node, value.node]
  | .branch t condition thenBlock none =>
    .mk .branch (some t) [condition.node, thenBlock.node]
  | .branch t condition thenBlock (some elseBlock) =>
    .mk .branch (some t) [condition.node, thenBlock.node, elseBlock.node]
  | .loop t condition body => .mk .loop (some t) [condition.node, body.node]
  | .result t value => .mk .result (some t) [value.node]
  | .block b => b.node
  | .expression e => .mk .expression none [e.node]
  | .empty t => .mk .empty (some t) []

def Block.node : Block → Node
  | ⟨opener, statements⟩ => .mk .block (some opener) (Stmt.nodes statements)

def Stmt.nodes : List Stmt → List Node
  | [] => []
  | s :: rest => s.node :: Stmt.nodes rest

end

theorem Stmt.nodes_eq_map (ss : List Stmt) : nodes ss = ss.map node := by
  induction ss with
  | nil => rfl
  | cons s ss ih => rw [nodes, ih, List.map_cons]

def Param.node (p : Param) : Node := .mk .param (some p.name) [p.type.node]

def Function.node (f : Function) : Node :=
  .mk .function (some f.name) (f.returnType.node :: f.params.map Param.node ++ Stmt.nodes f.body)

def Item.node : Item → Node
  | .function f => f.node
  | .var decl => decl.node
  | .stmt s => s.node

def Program.node (p : Program) : Node := .mk .program none (p.items.map Item.node)

/-! ### Listing the nodes -/

/-- A node in a list of nodes: its depth below the first, and the number of its parts. -/
structure Entry where
  depth : Nat
  label : Label
  token : Option Token
  arity : Nat

mutual

/-- The entries of a node at some depth, each node before its parts, in front of `rest`. -/
def Node.entriesOnto (depth : Nat) : Node → List Entry → List Entry
  | .mk label token children, rest =>
    ⟨depth, label, token, children.length⟩ :: Node.childEntriesOnto (depth + 1) children rest

/-- The entries of some nodes, one node after the other, in front of `rest`. -/
def Node.childEntriesOnto (depth : Nat) : List Node → List Entry → List Entry
  | [], rest => rest
  | n :: siblings, rest => n.entriesOnto depth (Node.childEntriesOnto depth siblings rest)

end

def Node.entries (n : Node) : List Entry := n.entriesOnto 0 []

/-- The line of an entry: two spaces for each level, the label, and the text of the token. -/
def Entry.line (e : Entry) : String :=
  Text.copies (2 * e.depth) ' ' ++ e.label.name ++
    (match e.token with
      | some t => " " ++ t.lexeme
      | none => "") ++ "\n"

def Node.outline (n : Node) : String := String.join (n.entries.map Entry.line)

def Program.outline (p : Program) : String := p.node.outline

end GameLang
