import GameLang.Json.Value
import GameLang.Tree.Basic

/-!
# Programs as JSON

The members of each object, in their order. What has several forms is marked by a first member:
`expr` for expressions, `stmt` for statements, `item` for items. A token without a value has no
member for it; everything else that is absent is `null`.
-/

namespace GameLang

open Json

/-! ### Tokens -/

/-- A value of a literal as JSON; a character is a string of one. -/
def Literal.json : Literal → Value
  | .int n => .int n
  | .real x => .real x
  | .bool b => .bool b
  | .char c => .string (String.singleton c)
  | .text s => .string s

def Span.json (s : Span) : Value :=
  .object [("line", .int s.line), ("col_start", .int s.first), ("col_end", .int s.last)]

def Token.json (t : Token) : Value :=
  .object
    (("kind", .string t.kind.name) :: ("lexeme", .string t.lexeme) ::
      (match t.literal with
        | some value => [("literal", value.json)]
        | none => []) ++
      [("span", t.span.json)])

/-! ### Expressions and types -/

mutual

def Expr.json : Expr → Value
  | .literal t value =>
    .object [("expr", .string "Literal"), ("token", t.json), ("value", value.json)]
  | .ident t => .object [("expr", .string "Ident"), ("name", t.json)]
  | .index t indices =>
    .object
      [("expr", .string "Index"), ("name", t.json), ("indices", .array (Expr.jsonList indices))]
  | .group inner => .object [("expr", .string "Grouping"), ("inner", inner.json)]
  | .call t args =>
    .object [("expr", .string "Call"), ("callee", t.json), ("args", .array (Expr.jsonList args))]
  | .unary op t operand =>
    .object
      [("expr", .string "Unary"), ("op", .string op.name), ("op_token", t.json),
        ("right", operand.json)]
  | .binary left op t right =>
    .object
      [("expr", .string "Binary"), ("left", left.json), ("op", .string op.name),
        ("op_token", t.json), ("right", right.json)]

def Expr.jsonList : List Expr → List Value
  | [] => []
  | e :: rest => e.json :: Expr.jsonList rest

end

def Expr.optionJson : Option Expr → Value
  | none => .null
  | some e => e.json

def TypeRef.json (t : TypeRef) : Value :=
  .object
    [("kind", .string t.kind.name), ("token", t.token.json), ("rank", .int t.rank),
      ("dims", .array (t.dims.map Expr.optionJson))]

/-! ### Statements -/

def VarDecl.jsonMembers (d : VarDecl) : List (String × Value) :=
  [("keyword", d.keyword.json), ("var_type", d.type.json), ("name", d.name.json),
    ("init", Expr.optionJson d.init)]

mutual

def Stmt.json : Stmt → Value
  | .varDecl decl => .object (("stmt", .string "VarDecl") :: decl.jsonMembers)
  | .assign target value =>
    .object [("stmt", .string "Assign"), ("target", target.json), ("value", value.json)]
  | .branch t condition thenBlock none =>
    .object
      [("stmt", .string "If"), ("keyword", t.json), ("condition", condition.json),
        ("then_branch", .object thenBlock.jsonMembers), ("else_branch", .null)]
  | .branch t condition thenBlock (some elseBlock) =>
    .object
      [("stmt", .string "If"), ("keyword", t.json), ("condition", condition.json),
        ("then_branch", .object thenBlock.jsonMembers),
        ("else_branch", .object elseBlock.jsonMembers)]
  | .loop t condition body =>
    .object
      [("stmt", .string "While"), ("keyword", t.json), ("condition", condition.json),
        ("body", body.json)]
  | .result t value =>
    .object [("stmt", .string "Return"), ("keyword", t.json), ("value", value.json)]
  | .block b => .object (("stmt", .string "Block") :: b.jsonMembers)
  | .expression e => .object [("stmt", .string "Expression"), ("expr", e.json)]
  | .empty t => .object [("stmt", .string "Empty"), ("semicolon", t.json)]

def Block.jsonMembers : Block → List (String × Value)
  | ⟨opener, statements⟩ =>
    [("open", opener.json), ("statements", .array (Stmt.jsonList statements))]

def Stmt.jsonList : List Stmt → List Value
  | [] => []
  | s :: rest => s.json :: Stmt.jsonList rest

end

/-! ### Programs -/

def Param.json (p : Param) : Value :=
  .object [("name", p.name.json), ("param_type", p.type.json)]

def Item.json : Item → Value
  | .function f =>
    .object
      [("item", .string "Function"), ("name", f.name.json),
        ("params", .array (f.params.map Param.json)), ("return_type", f.returnType.json),
        ("body", .array (Stmt.jsonList f.body))]
  | .var decl => .object (("item", .string "Var") :: decl.jsonMembers)
  | .stmt s => .object [("item", .string "Stmt"), ("stmt", s.json)]

def Program.json (p : Program) : Value := .object [("items", .array (p.items.map Item.json))]

end GameLang
