import GameLang.Proofs.Soundness.Program

/-!
# The structure of programs that are read

Many trees are built from no tokens. What sets those of programs apart holds of every block, type,
declaration, statement and expression inside, at any depth: `Program.Regular` collects it, and
`Goal.regular_of_read` says that every program that is read has it.
-/

namespace GameLang

/-! ### What is inside a program -/

namespace Stmt

/-- The blocks of a statement, apart from those in the statements inside it. -/
def blocks : Stmt → List Block
  | .branch _ _ b other => b :: other.toList
  | .block b => [b]
  | .varDecl _ | .assign _ _ | .loop _ _ _ | .result _ _ | .expression _ | .empty _ => []

def decls : Stmt → List VarDecl
  | .varDecl d => [d]
  | _ => []

/-- The nodes of the expressions of a statement. A command itself is none. -/
def operands : Stmt → List Expr
  | .expression e => e.inner
  | s => s.exprs.flatMap Expr.parts

end Stmt

namespace Item

def decls : Item → List VarDecl
  | .var d => [d]
  | _ => []

def types : Item → List TypeRef
  | .function f => f.returnType :: f.params.map Param.type
  | _ => []

end Item

namespace Program

/-- Every statement, the entry block itself left out. -/
def statements (p : Program) : List Stmt :=
  p.items.flatMap fun item => Stmt.partsOf item.statements

/-- Every block, the entry block left out. -/
def blocks (p : Program) : List Block := p.statements.flatMap Stmt.blocks

def decls (p : Program) : List VarDecl :=
  p.items.flatMap Item.decls ++ p.statements.flatMap Stmt.decls

/-- The types of results and parameters. -/
def signatures (p : Program) : List TypeRef := p.items.flatMap Item.types

def types (p : Program) : List TypeRef := p.signatures ++ p.decls.map VarDecl.type

/-- Every node of every expression, commands themselves left out. -/
def operands (p : Program) : List Expr :=
  p.items.flatMap (fun item => item.exprs.flatMap Expr.parts) ++ p.statements.flatMap Stmt.operands

/-- What programs have in common that are read. -/
structure Regular (p : Program) : Prop where
  /-- Functions, then variables, then the entry block. -/
  items : ∃ functions decls entry,
    p.items = List.map .function functions ++ List.map .var decls ++ [.stmt (.block entry)] ∧
    entry.opener.kind = .beginWord ∧ p.entry = some entry
  blocks : ∀ b ∈ p.blocks, b.opener.kind = .leftBrace
  types : ∀ t ∈ p.types,
    t.rank = t.dims.length ∧ TypeKind.ofKind? t.token.kind = some t.kind ∧ t.kind ≠ .void
  signatures : ∀ t ∈ p.signatures, t.rank = 0
  decls : ∀ d ∈ p.decls,
    d.keyword.kind = .varWord ∨ d.keyword.kind = .varCharWord ∧ d.type.kind = .char
  indices : ∀ t es, .index t es ∈ p.nodesOfExprs → es ≠ []
  literals : ∀ t v, .literal t v ∈ p.nodesOfExprs → t.literal = some v
  targets : ∀ target value, .assign target value ∈ p.statements → target.IsTarget
  /-- A statement that is an expression is a call of a function, or of a built-in procedure with one
  argument, which is a plain name where a value is read in. -/
  commands : ∀ e, .expression e ∈ p.statements → ∃ callee args, e = .call callee args ∧
    (callee.kind = .ident ∨ callee.kind.isBuiltin = true ∧ ∃ arg, args = [arg] ∧
      (callee.kind = .readWord → ∃ name, arg = .ident name ∧ name.kind = .ident))
  /-- Built-in procedures are called by statements only. -/
  callees : ∀ callee args, .call callee args ∈ p.operands → callee.kind = .ident

end Program

/-! ### Statements of the grammar -/

/-- The arguments of a command are expressions, whatever is called. -/
theorem Expr.IsCommand.shaped {callee : Token} {args : List Expr}
    (command : (call callee args).IsCommand) : ∀ e ∈ args, e.Shaped := by
  rcases command with ⟨-, shaped⟩ | ⟨-, name, rfl, named⟩ | ⟨-, e, rfl, shaped⟩
  · exact shaped
  · exact List.forall_mem_singleton.mpr (formed_ident.mpr named).1
  · exact List.forall_mem_singleton.mpr shaped

theorem VarDecl.Grammatical.kind {d : VarDecl} (grammatical : d.Grammatical) :
    TypeKind.ofKind? d.type.token.kind = some d.type.kind := by
  obtain ⟨⟨-, found⟩ | ⟨-, word, char⟩, -⟩ := grammatical
  · exact found
  · rw [word, char]
    rfl

theorem TypeKind.ne_void {k : Kind} {kind : TypeKind} (found : ofKind? k = some kind) :
    kind ≠ .void := by
  rintro rfl
  cases k <;> cases found

namespace Stmt

variable {s : Stmt}

theorem Grammatical.blocks (grammatical : s.Grammatical) : ∀ b ∈ s.blocks, b.Braced := by
  intro b member
  cases s with
  | block b =>
    obtain rfl := List.mem_singleton.mp member
    exact grammatical
  | branch t c first other =>
    obtain ⟨-, -, braced, others⟩ := grammatical
    rcases List.mem_cons.mp member with rfl | member
    · exact braced
    · exact others b (Option.mem_toList.mp member)
  | _ => cases member

theorem Grammatical.decls (grammatical : s.Grammatical) : ∀ d ∈ s.decls, d.Grammatical := by
  intro d member
  cases s with
  | varDecl d =>
    obtain rfl := List.mem_singleton.mp member
    exact grammatical
  | _ => cases member

theorem Grammatical.operands (grammatical : s.Grammatical) : ∀ x ∈ s.operands, x.Grammatical := by
  have whole (shaped : ∀ e ∈ s.exprs, e.Shaped) : ∀ x ∈ s.exprs.flatMap Expr.parts, x.Grammatical :=
    List.forall_mem_flatMap.mpr shaped
  cases s with
  | varDecl d => exact whole grammatical.2.2.2
  | assign target value =>
    exact whole (List.forall_mem_cons.mpr
      ⟨grammatical.2.1, List.forall_mem_singleton.mpr grammatical.2.2⟩)
  | branch t c b other => exact whole (List.forall_mem_singleton.mpr grammatical.2.1)
  | loop t c body => exact whole (List.forall_mem_singleton.mpr grammatical.2)
  | result t e => exact whole (List.forall_mem_singleton.mpr grammatical.2)
  | expression e =>
    -- The call that the command consists of need not be one that the grammar has inside expressions.
    cases e with
    | call callee args => exact Expr.forall_mem_partsOf.mpr grammatical.shaped
    | _ => exact grammatical.elim
  | block b => exact whole (List.forall_mem_nil _)
  | empty t => exact whole (List.forall_mem_nil _)

end Stmt

namespace Program

variable {p : Program}

/-! ### Programs of the grammar -/

theorem Shaped.statements (shaped : p.Shaped) : ∀ s ∈ p.statements, s.Grammatical := by
  intro s member
  obtain ⟨item, inside, member⟩ := List.mem_flatMap.mp member
  obtain ⟨whole, direct, part⟩ := Stmt.mem_partsOf.mp member
  exact shaped.2 item inside whole direct s part

theorem Shaped.items (shaped : p.Shaped) :
    (∀ f, .function f ∈ p.items → f.Grammatical) ∧ ∀ d, .var d ∈ p.items → d.Grammatical := by
  obtain ⟨⟨functions, decls, entry, items, functionsOk, declsOk, -⟩, -⟩ := shaped
  rw [items]
  constructor
  · intro f member
    have among : f ∈ functions := by simpa using member
    exact functionsOk f among
  · intro d member
    have among : d ∈ decls := by simpa using member
    exact declsOk d among

theorem Shaped.decls (shaped : p.Shaped) : ∀ d ∈ p.decls, d.Grammatical := by
  refine List.forall_mem_append.mpr ⟨?_, ?_⟩
  · intro d member
    obtain ⟨item, inside, member⟩ := List.mem_flatMap.mp member
    cases item with
    | var d =>
      obtain rfl := List.mem_singleton.mp member
      exact shaped.items.2 d inside
    | _ => cases member
  · exact List.forall_mem_flatMap.mpr fun s member => (shaped.statements s member).decls

theorem Shaped.signatures (shaped : p.Shaped) :
    ∀ t ∈ p.signatures, TypeKind.ofKind? t.token.kind = some t.kind ∧ t.Scalar := by
  intro t member
  obtain ⟨item, inside, member⟩ := List.mem_flatMap.mp member
  cases item with
  | function f =>
    obtain ⟨kind, scalar, -, params⟩ := shaped.items.1 f inside
    rcases List.mem_cons.mp member with rfl | member
    · exact ⟨kind, scalar⟩
    · obtain ⟨q, among, rfl⟩ := List.mem_map.mp member
      exact ⟨(params q among).1, (params q among).2.1⟩
  | _ => cases member

theorem Shaped.types (shaped : p.Shaped) :
    ∀ t ∈ p.types, t.rank = t.dims.length ∧ TypeKind.ofKind? t.token.kind = some t.kind := by
  refine List.forall_mem_append.mpr ⟨?_, List.forall_mem_map.mpr ?_⟩
  · intro t member
    obtain ⟨kind, rank, dims⟩ := shaped.signatures t member
    rw [rank, dims]
    exact ⟨rfl, kind⟩
  · intro d member
    have grammatical := shaped.decls d member
    exact ⟨grammatical.2.1, grammatical.kind⟩

theorem Shaped.operands (shaped : p.Shaped) : ∀ x ∈ p.operands, x.Grammatical := by
  refine List.forall_mem_append.mpr ⟨?_, ?_⟩
  · intro x member
    obtain ⟨item, inside, member⟩ := List.mem_flatMap.mp member
    obtain ⟨e, whole, part⟩ := List.mem_flatMap.mp member
    cases item with
    | var d => exact (shaped.items.2 d inside).2.2.2 e whole x part
    | _ => cases whole
  · exact List.forall_mem_flatMap.mpr fun s member => (shaped.statements s member).operands

/-- Apart from commands, the nodes of expressions are those of operands. -/
theorem mem_operands {x : Expr} (node : x ∈ p.nodesOfExprs) :
    x ∈ p.operands ∨ .expression x ∈ p.statements := by
  obtain ⟨item, inside, node⟩ := List.mem_flatMap.mp node
  rcases List.mem_append.mp node with outside | node
  · exact .inl (List.mem_append_left _ (List.mem_flatMap.mpr ⟨item, inside, outside⟩))
  obtain ⟨whole, direct, node⟩ := List.mem_flatMap.mp node
  obtain ⟨s, part, node⟩ := List.mem_flatMap.mp node
  have member : s ∈ p.statements :=
    List.mem_flatMap.mpr ⟨item, inside, Stmt.mem_partsOf.mpr ⟨whole, direct, part⟩⟩
  have operand (found : x ∈ s.operands) : x ∈ p.operands :=
    List.mem_append_right _ (List.mem_flatMap.mpr ⟨s, member, found⟩)
  cases s with
  | expression e =>
    have node : x ∈ e.parts := by simpa [Stmt.exprs] using node
    rcases List.mem_cons.mp node with rfl | node
    · exact .inr member
    · exact .inl (operand node)
  | _ => exact .inl (operand node)

theorem Shaped.command (shaped : p.Shaped) {e : Expr} (member : .expression e ∈ p.statements) :
    ∃ callee args, e = .call callee args ∧
      (callee.kind = .ident ∨ callee.kind.isBuiltin = true ∧ ∃ arg, args = [arg] ∧
        (callee.kind = .readWord → ∃ name, arg = .ident name ∧ name.kind = .ident)) := by
  have command : e.IsCommand := shaped.statements _ member
  cases e with
  | call callee args =>
    refine ⟨callee, args, rfl, ?_⟩
    rcases command with ⟨named, -⟩ | ⟨word, name, rfl, named⟩ | ⟨word, e, rfl, -⟩
    · exact .inl named
    · exact .inr ⟨by rw [word]; rfl, .ident name, rfl, fun _ => ⟨name, rfl, named⟩⟩
    · have words : callee.kind = .printWord ∨ callee.kind = .encryptWord ∨
          callee.kind = .decryptWord := by simpa using word
      refine .inr ⟨?_, e, rfl, fun reads => absurd reads (Kind.ne_readWord word)⟩
      rcases words with same | same | same <;> rw [same] <;> rfl
  | _ => exact command.elim

theorem entry_of_items {front : List Item} {b : Block}
    (items : p.items = front ++ [.stmt (.block b)]) : p.entry = some b := by
  rw [entry, items, List.getLast?_concat]

theorem Shaped.regular (shaped : p.Shaped) : p.Regular where
  items := by
    obtain ⟨⟨functions, decls, entry, items, -, -, opener⟩, -⟩ := shaped
    exact ⟨functions, decls, entry, items, opener, entry_of_items items⟩
  blocks := List.forall_mem_flatMap.mpr fun s member => (shaped.statements s member).blocks
  types t member :=
    have ⟨rank, kind⟩ := shaped.types t member
    ⟨rank, kind, TypeKind.ne_void kind⟩
  signatures t member := (shaped.signatures t member).2.1
  decls d member := by
    obtain ⟨⟨word, -⟩ | ⟨word, -, char⟩, -⟩ := shaped.decls d member
    · exact .inl word
    · exact .inr ⟨word, char⟩
  indices t es node := by
    rcases mem_operands node with operand | command
    · exact (shaped.operands _ operand).2
    · exact (shaped.statements _ command).elim
  literals t v node := by
    rcases mem_operands node with operand | command
    · exact (shaped.operands _ operand).2
    · exact (shaped.statements _ command).elim
  targets target value member := (shaped.statements _ member).1
  commands e member := shaped.command member
  callees callee args operand := shaped.operands _ operand

end Program

namespace Goal

variable {ts rest : List Token} {tree : Tree}

/-- What is read as a program is one, with everything inside as it should be. -/
theorem regular_of_read (read : program.read ts = (.ok tree, rest)) :
    ∃ p, tree = .program p ∧ p.Regular := by
  obtain ⟨same, formed, -⟩ := within_ok (Reader.run_ok_iff.mp read)
  cases tree with
  | program p => exact ⟨p, rfl, Program.Shaped.regular formed.1⟩
  | statement s => cases same
  | expression e => cases same

theorem regular_of_read_element :
    let word (k : Kind) : Token := ⟨k, k.spelling, none, ⟨1, 1, 1⟩⟩
    let x : Token := ⟨.ident, "x", none, ⟨1, 1, 1⟩⟩
    let two : Token := ⟨.intLiteral, "2", some (.int 2), ⟨1, 1, 1⟩⟩
    let ts : List Token := [word .varWord, word .arrayType, x, word .leftBracket, two,
      word .rightBracket, word .semicolon, word .beginWord, x, word .leftBracket, x,
      word .rightBracket, word .assign, two, word .semicolon, word .readWord, word .leftParen, x,
      word .rightParen, word .semicolon, word .endWord, word .semicolon]
    let type : TypeRef := ⟨.array, word .arrayType, 1, [some (.literal two (.int 2))]⟩
    let body : List Stmt := [.assign (.index x [.ident x]) (.literal two (.int 2)),
      .expression (.call (word .readWord) [.ident x])]
    let p : Program :=
      ⟨[.var ⟨word .varWord, type, x, none⟩, .stmt (.block ⟨word .beginWord, body⟩)]⟩
    program.read ts = (.ok (.program p), []) ∧ p.Regular := by
  intro word x two ts type body p
  have read : program.read ts = (.ok (.program p), []) := rfl
  obtain ⟨q, same, regular⟩ := regular_of_read read
  have same : q = p := (Tree.program.inj same).symm
  rw [same] at regular
  exact ⟨read, regular⟩

end Goal

end GameLang
