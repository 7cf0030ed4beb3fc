import GameLang.Reader.Goal
import GameLang.Tree.Layout
import GameLang.Tree.Outline

/-!
# Trees with other tokens

A `Recast` puts other tokens and values in the place of those of a tree, and keeps the kinds of the
tokens. One that also keeps their texts changes neither the source text nor the outline of a tree
(`Program.print_recast`, `Program.outline_recast`). Forgetting where tokens stand is such a recast.
-/

namespace GameLang

/-- Other tokens of the same kinds, with other values for the literals. -/
structure Recast where
  token : Token → Token
  value : Literal → Literal
  kind_token : ∀ t, (token t).kind = t.kind
  literal_token : ∀ t, (token t).literal = t.literal.map value
  token_ending : token (Token.ending .start) = Token.ending .start

namespace Recast

def KeepsText (r : Recast) : Prop := ∀ t, (r.token t).lexeme = t.lexeme

end Recast

/-- A token without its place. -/
def Token.unplaced (t : Token) : Token := { t with span := (Token.ending .start).span }

/-- Forgets where tokens stand. -/
def Recast.unplaced : Recast where
  token := Token.unplaced
  value := id
  kind_token _ := rfl
  literal_token t := (congrFun Option.map_id t.literal).symm
  token_ending := rfl

theorem Recast.keepsText_unplaced : Recast.unplaced.KeepsText := fun _ => rfl

/-! ### Expressions -/

variable (r : Recast)

mutual

/-- An expression with other tokens. -/
def Expr.recast (r : Recast) : Expr → Expr
  | .literal t v => .literal (r.token t) (r.value v)
  | .ident t => .ident (r.token t)
  | .index t es => .index (r.token t) (Expr.recasts r es)
  | .group e => .group (e.recast r)
  | .call t es => .call (r.token t) (Expr.recasts r es)
  | .unary op t e => .unary op (r.token t) (e.recast r)
  | .binary left op t right => .binary (left.recast r) op (r.token t) (right.recast r)

def Expr.recasts (r : Recast) : List Expr → List Expr
  | [] => []
  | e :: es => e.recast r :: Expr.recasts r es

end

theorem Expr.recasts_eq_map (es : List Expr) : Expr.recasts r es = es.map (Expr.recast r) := by
  induction es with
  | nil => rfl
  | cons e es ih => rw [recasts, ih, List.map_cons]

/-! ### Declarations -/

def TypeRef.recast (t : TypeRef) : TypeRef :=
  ⟨t.kind, r.token t.token, t.rank, t.dims.map (Option.map (Expr.recast r))⟩

theorem TypeRef.recast_withDims (t : TypeRef) (dims : List (Option Expr)) :
    (t.withDims dims).recast r = (t.recast r).withDims (dims.map (Option.map (Expr.recast r))) := by
  rw [recast, withDims, withDims, recast, List.length_map]

def VarDecl.recast (d : VarDecl) : VarDecl :=
  ⟨r.token d.keyword, d.type.recast r, r.token d.name, d.init.map (Expr.recast r)⟩

/-! ### Statements -/

mutual

def Stmt.recast (r : Recast) : Stmt → Stmt
  | .varDecl d => .varDecl (d.recast r)
  | .assign target value => .assign (target.recast r) (value.recast r)
  | .branch t c b none => .branch (r.token t) (c.recast r) (b.recast r) none
  | .branch t c b (some other) =>
    .branch (r.token t) (c.recast r) (b.recast r) (some (other.recast r))
  | .loop t c s => .loop (r.token t) (c.recast r) (s.recast r)
  | .result t e => .result (r.token t) (e.recast r)
  | .block b => .block (b.recast r)
  | .expression e => .expression (e.recast r)
  | .empty t => .empty (r.token t)

def Block.recast (r : Recast) : Block → Block
  | ⟨opener, statements⟩ => ⟨r.token opener, Stmt.recasts r statements⟩

def Stmt.recasts (r : Recast) : List Stmt → List Stmt
  | [] => []
  | s :: ss => s.recast r :: Stmt.recasts r ss

end

theorem Stmt.recasts_eq_map (ss : List Stmt) : Stmt.recasts r ss = ss.map (Stmt.recast r) := by
  induction ss with
  | nil => rfl
  | cons s ss ih => rw [recasts, ih, List.map_cons]

theorem Stmt.recast_branch (t : Token) (c : Expr) (b : Block) (other : Option Block) :
    (branch t c b other).recast r =
      .branch (r.token t) (c.recast r) (b.recast r) (other.map (Block.recast r)) := by
  cases other <;> rw [recast] <;> rfl

/-! ### Programs -/

def Param.recast (p : Param) : Param := ⟨r.token p.name, p.type.recast r⟩

def Function.recast (f : Function) : Function :=
  ⟨r.token f.name, f.params.map (Param.recast r), f.returnType.recast r,
    f.body.map (Stmt.recast r)⟩

def Item.recast : Item → Item
  | .function f => .function (f.recast r)
  | .var d => .var (d.recast r)
  | .stmt s => .stmt (s.recast r)

def Program.recast (p : Program) : Program := ⟨p.items.map (Item.recast r)⟩

def Tree.recast : Tree → Tree
  | .program p => .program (p.recast r)
  | .statement s => .statement (s.recast r)
  | .expression e => .expression (e.recast r)

def Expr.unplaced (e : Expr) : Expr := e.recast .unplaced

def Program.unplaced (p : Program) : Program := p.recast .unplaced

/-! ### The source text stays -/

variable {r : Recast}

theorem Recast.KeepsText.ofToken (keeps : r.KeepsText) (t : Token) :
    Piece.ofToken (r.token t) = Piece.ofToken t := congrArg Piece.word (keeps t)

mutual

theorem Expr.layout_recast (keeps : r.KeepsText) (e : Expr) (rest : List Piece) :
    (e.recast r).layout rest = e.layout rest := by
  cases e with
  | literal t v => rw [recast, layout, layout, keeps.ofToken]
  | ident t => rw [recast, layout, layout, keeps.ofToken]
  | index t es => rw [recast, layout, layout, keeps.ofToken, indexLayout_recasts keeps]
  | group e => rw [recast, layout, layout, layout_recast keeps e]
  | call t es =>
    cases es with
    | nil => rw [recast, recasts, layout, layout, keeps.ofToken]
    | cons e es =>
      rw [recast, recasts, layout, layout, keeps.ofToken, layout_recast keeps e,
        argLayout_recasts keeps]
  | unary op t e => rw [recast, layout, layout, keeps.ofToken, layout_recast keeps e]
  | binary left op t right =>
    rw [recast, layout, layout, keeps.ofToken, layout_recast keeps left,
      layout_recast keeps right]

theorem Expr.indexLayout_recasts (keeps : r.KeepsText) (es : List Expr) (rest : List Piece) :
    indexLayout (recasts r es) rest = indexLayout es rest := by
  cases es with
  | nil => rfl
  | cons e es =>
    rw [recasts, indexLayout, indexLayout, layout_recast keeps e, indexLayout_recasts keeps es]

theorem Expr.argLayout_recasts (keeps : r.KeepsText) (es : List Expr) (rest : List Piece) :
    argLayout (recasts r es) rest = argLayout es rest := by
  cases es with
  | nil => rfl
  | cons e es =>
    rw [recasts, argLayout, argLayout, layout_recast keeps e, argLayout_recasts keeps es]

end

theorem dimLayout_recast (keeps : r.KeepsText) (dims : List (Option Expr)) (rest : List Piece) :
    dimLayout (dims.map (Option.map (Expr.recast r))) rest = dimLayout dims rest := by
  induction dims with
  | nil => rfl
  | cons size dims ih =>
    cases size with
    | none => rw [List.map_cons, Option.map_none, dimLayout, dimLayout, ih]
    | some e =>
      rw [List.map_cons, Option.map_some, dimLayout, dimLayout, ih, Expr.layout_recast keeps]

theorem VarDecl.layout_recast (keeps : r.KeepsText) (d : VarDecl) (rest : List Piece) :
    (d.recast r).layout rest = d.layout rest := by
  obtain ⟨keyword, type, name, init⟩ := d
  unfold layout recast TypeRef.recast
  simp only [keeps.ofToken, dimLayout_recast keeps]
  cases init with
  | none => rfl
  | some e => simp only [Option.map_some, Expr.layout_recast keeps]

theorem conditionLayout_recast (keeps : r.KeepsText) (t : Token) (c : Expr) (rest : List Piece) :
    conditionLayout (r.token t) (c.recast r) rest = conditionLayout t c rest := by
  rw [conditionLayout, conditionLayout, keeps.ofToken, Expr.layout_recast keeps]

mutual

theorem Stmt.layout_recast (keeps : r.KeepsText) (depth : Nat) (s : Stmt) (rest : List Piece) :
    (s.recast r).layout depth rest = s.layout depth rest := by
  cases s with
  | varDecl d => rw [Stmt.recast, Stmt.layout, Stmt.layout, VarDecl.layout_recast keeps]
  | assign target value =>
    rw [Stmt.recast, Stmt.layout, Stmt.layout, Expr.layout_recast keeps, Expr.layout_recast keeps]
  | branch t c b other =>
    cases other with
    | none =>
      rw [Stmt.recast, Stmt.layout, Stmt.layout, conditionLayout_recast keeps, Block.layout_recast keeps depth b]
    | some other =>
      rw [Stmt.recast, Stmt.layout, Stmt.layout, conditionLayout_recast keeps, Block.layout_recast keeps depth b,
        Block.layout_recast keeps depth other]
  | loop t c s =>
    rw [Stmt.recast, Stmt.layout, Stmt.layout, conditionLayout_recast keeps, Stmt.layout_recast keeps depth s]
  | result t e => rw [Stmt.recast, Stmt.layout, Stmt.layout, keeps.ofToken, Expr.layout_recast keeps]
  | block b => rw [Stmt.recast, Stmt.layout, Stmt.layout, Block.layout_recast keeps depth b]
  | expression e => rw [Stmt.recast, Stmt.layout, Stmt.layout, Expr.layout_recast keeps]
  | empty t => rw [Stmt.recast, Stmt.layout, Stmt.layout]

theorem Block.layout_recast (keeps : r.KeepsText) (depth : Nat) (b : Block) (rest : List Piece) :
    (b.recast r).layout depth rest = b.layout depth rest := by
  cases b with
  | mk opener statements =>
    rw [Block.recast, Block.layout, Block.layout, Stmt.linesLayout_recasts keeps (depth + 1) statements]

theorem Stmt.linesLayout_recasts (keeps : r.KeepsText) (depth : Nat) (ss : List Stmt)
    (rest : List Piece) :
    Stmt.linesLayout depth (Stmt.recasts r ss) rest = Stmt.linesLayout depth ss rest := by
  cases ss with
  | nil => rfl
  | cons s ss =>
    rw [Stmt.recasts, Stmt.linesLayout, Stmt.linesLayout, Stmt.layout_recast keeps depth s,
      Stmt.linesLayout_recasts keeps depth ss]

end

theorem Param.layout_recast (keeps : r.KeepsText) (p : Param) (rest : List Piece) :
    (p.recast r).layout rest = p.layout rest := by
  rw [layout, layout, recast, TypeRef.recast, keeps.ofToken, keeps.ofToken]

theorem Param.othersLayout_recast (keeps : r.KeepsText) (ps : List Param) (rest : List Piece) :
    othersLayout (ps.map (Param.recast r)) rest = othersLayout ps rest := by
  induction ps with
  | nil => rfl
  | cons p ps ih => rw [List.map_cons, othersLayout, othersLayout, layout_recast keeps, ih]

theorem Param.listLayout_recast (keeps : r.KeepsText) (ps : List Param) (rest : List Piece) :
    listLayout (ps.map (Param.recast r)) rest = listLayout ps rest := by
  cases ps with
  | nil => rfl
  | cons p ps =>
    rw [List.map_cons, listLayout, listLayout, layout_recast keeps, othersLayout_recast keeps]

theorem Function.layout_recast (keeps : r.KeepsText) (f : Function) (rest : List Piece) :
    (f.recast r).layout rest = f.layout rest := by
  unfold layout recast TypeRef.recast
  simp only [keeps.ofToken, Param.listLayout_recast keeps, ← Stmt.recasts_eq_map,
    Stmt.linesLayout_recasts keeps]

theorem Block.entryLayout_recast (keeps : r.KeepsText) (b : Block) (rest : List Piece) :
    (b.recast r).entryLayout rest = b.entryLayout rest := by
  cases b with
  | mk opener statements =>
    rw [recast, entryLayout, entryLayout, keeps.ofToken, Stmt.linesLayout_recasts keeps]

theorem Item.layout_recast (keeps : r.KeepsText) (item : Item) (rest : List Piece) :
    (item.recast r).layout rest = item.layout rest := by
  cases item with
  | function f => rw [recast, layout, layout, Function.layout_recast keeps]
  | var d => rw [recast, layout, layout, VarDecl.layout_recast keeps]
  | stmt s =>
    cases s with
    | block b =>
      have opener : (b.recast r).opener.kind = b.opener.kind := by
        cases b
        exact r.kind_token _
      rw [recast, Stmt.recast, layout, layout, opener, Block.entryLayout_recast keeps,
        Block.layout_recast keeps]
    | branch t c b other =>
      have same := Stmt.layout_recast keeps 0 (.branch t c b other) (.newline :: rest)
      rw [Stmt.recast_branch] at same
      rw [recast, Stmt.recast_branch]
      exact congrArg (Piece.indent 0 :: ·) same
    | _ => exact congrArg (Piece.indent 0 :: ·) (Stmt.layout_recast keeps 0 _ (.newline :: rest))

theorem Program.layout_recast (keeps : r.KeepsText) (p : Program) :
    (p.recast r).layout = p.layout := by
  unfold layout recast
  rw [List.foldr_map]
  congr 1
  funext item rest
  exact Item.layout_recast keeps item rest

theorem Program.print_recast (keeps : r.KeepsText) (p : Program) : (p.recast r).print = p.print :=
  congrArg pieceText (layout_recast keeps p)

theorem Expr.print_recast (keeps : r.KeepsText) (e : Expr) : (e.recast r).print = e.print :=
  congrArg pieceText (layout_recast keeps e [])

end GameLang
