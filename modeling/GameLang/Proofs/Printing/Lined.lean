import GameLang.Proofs.Json.Worded

/-!
# Lines of layouts

`Lined` says of pieces that they are lines: each starts with the blanks for the blocks that are open and
goes on with a word, and spaces stand between words only. The layouts of trees of the grammar are such
pieces, at whatever depth (`Stmt.lined`, `Program.lined`).
-/

namespace GameLang

/-! ### Words that open and close blocks -/

namespace Kind

def opensBlock (k : Kind) : Bool := k = leftBrace || k = beginWord

def closesBlock (k : Kind) : Bool := k = rightBrace || k = endWord

/-- A kind that neither opens a block nor closes one. -/
def IsLevel (k : Kind) : Prop := k.opensBlock = false ∧ k.closesBlock = false

theorem isLevel_of_all {q : Kind → Bool}
    (none : ([leftBrace, beginWord, rightBrace, endWord].all fun l => !q l) = true) {k : Kind}
    (holds : q k = true) : k.IsLevel := by
  have other {l : Kind} (among : l ∈ [leftBrace, beginWord, rightBrace, endWord]) : k ≠ l := by
    rintro rfl
    have fails := List.all_eq_true.mp none k among
    rw [holds] at fails
    cases fails
  have opener := other (l := leftBrace) (by decide)
  have entry := other (l := beginWord) (by decide)
  have closer := other (l := rightBrace) (by decide)
  have finish := other (l := endWord) (by decide)
  simp [IsLevel, opensBlock, closesBlock, opener, entry, closer, finish]

theorem isLevel_ident : IsLevel .ident := ⟨rfl, rfl⟩

end Kind

/-! ### Lines -/

/-- A place between pieces: where a line starts, where a word comes next, or behind a word. -/
inductive Spot where
  | first
  | within
  | behind

def Spot.TakesWord : Spot → Prop
  | first => False
  | within | behind => True

/-- Pieces from a spot on, with some blocks open, are lines of words. An empty line stands only where no
block is open, in front of pieces that can follow one. -/
inductive Lined (atBreak : List Piece → Prop) : Spot → Nat → List Piece → Prop where
  | finish : Lined atBreak .first 1 [.ofKind .endWord, .ofKind .semicolon, .newline]
  | blank {pieces : List Piece} (breaks : atBreak pieces) (back : Lined atBreak .first 0 pieces) :
      Lined atBreak .first 0 (.newline :: pieces)
  | flush {pieces : List Piece} (back : Lined atBreak .within 0 pieces) : Lined atBreak .first 0 pieces
  | indent {n : Nat} {pieces : List Piece} (back : Lined atBreak .within n pieces) :
      Lined atBreak .first n (.indent n :: pieces)
  | close {n : Nat} {pieces : List Piece} (back : Lined atBreak .behind n pieces) :
      Lined atBreak .first (n + 1) (.indent n :: .ofKind .rightBrace :: pieces)
  | word {spot : Spot} {n : Nat} {k : Kind} {s : String} {value : Option Literal} {pieces : List Piece}
      (inside : spot.TakesWord) (isWord : IsWord k s.toList value) (stays : k.closesBlock = false)
      (back : Lined atBreak .behind (n + k.opensBlock.toNat) pieces) :
      Lined atBreak spot n (.word s :: pieces)
  | space {n : Nat} {pieces : List Piece} (back : Lined atBreak .within n pieces) :
      Lined atBreak .behind n (.space :: pieces)
  | newline {n : Nat} {pieces : List Piece} (back : Lined atBreak .first n pieces) :
      Lined atBreak .behind n (.newline :: pieces)

namespace Lined

variable {atBreak : List Piece → Prop} {spot : Spot} {n : Nat} {t : Token} {k : Kind}
  {pieces : List Piece}

theorem level {s : String} {value : Option Literal} (inside : spot.TakesWord)
    (isWord : IsWord k s.toList value) (level : k.IsLevel) (back : Lined atBreak .behind n pieces) :
    Lined atBreak spot n (.word s :: pieces) := by
  refine .word inside isWord level.2 ?_
  rw [level.1]
  exact back

theorem token (inside : spot.TakesWord) (isWord : t.IsWord) (level : t.kind.IsLevel)
    (back : Lined atBreak .behind n pieces) : Lined atBreak spot n (.ofToken t :: pieces) :=
  .level inside isWord level back

theorem kind (inside : spot.TakesWord) (fixed : k.isFixed = true) (level : k.IsLevel)
    (back : Lined atBreak .behind n pieces) : Lined atBreak spot n (.ofKind k :: pieces) :=
  .level inside (Kind.isWord_spelling fixed) level back

theorem mark (fixed : k.isFixed = true) (level : k.IsLevel) (back : Lined atBreak .behind n pieces) :
    Lined atBreak .behind n (.ofKind k :: pieces) := kind trivial fixed level back

theorem opener {s : String} {value : Option Literal} (inside : spot.TakesWord)
    (isWord : IsWord k s.toList value) (opens : k.opensBlock = true)
    (back : Lined atBreak .behind (n + 1) pieces) : Lined atBreak spot n (.word s :: pieces) := by
  refine .word inside isWord ?_ ?_
  · cases k <;> first | rfl | cases opens
  · rw [opens]
    exact back

end Lined

variable {atBreak : List Piece → Prop} {spot : Spot} {n : Nat} {t : Token} {rest : List Piece}

/-! ### Expressions -/

/-- An expression keeps to its line, wherever in it a word may stand. -/
def Expr.KeepsLine (atBreak : List Piece → Prop) (n : Nat) (e : Expr) : Prop :=
  ∀ spot rest, spot.TakesWord → Lined atBreak .behind n rest → Lined atBreak spot n (e.layout rest)

namespace Expr

theorem indexLayout_lined {es : List Expr} (all : ∀ e ∈ es, e.KeepsLine atBreak n)
    (back : Lined atBreak .behind n rest) : Lined atBreak .behind n (indexLayout es rest) := by
  induction es with
  | nil => exact back
  | cons e es ih =>
    obtain ⟨first, others⟩ := List.forall_mem_cons.mp all
    exact .mark rfl ⟨rfl, rfl⟩ (first _ _ trivial (.mark rfl ⟨rfl, rfl⟩ (ih others)))

theorem argLayout_lined {es : List Expr} (all : ∀ e ∈ es, e.KeepsLine atBreak n)
    (back : Lined atBreak .behind n rest) : Lined atBreak .behind n (argLayout es rest) := by
  induction es with
  | nil => exact back
  | cons e es ih =>
    obtain ⟨first, others⟩ := List.forall_mem_cons.mp all
    exact .mark rfl ⟨rfl, rfl⟩ (.space (first _ _ trivial (ih others)))

theorem call_keepsLine {es : List Expr} (isWord : t.IsWord) (level : t.kind.IsLevel)
    (all : ∀ e ∈ es, e.KeepsLine atBreak n) : (call t es).KeepsLine atBreak n := by
  intro spot rest inside back
  have closing : Lined atBreak .behind n (.ofKind .rightParen :: rest) := .mark rfl ⟨rfl, rfl⟩ back
  cases es with
  | nil => exact .token inside isWord level (.mark rfl ⟨rfl, rfl⟩ closing)
  | cons e es =>
    obtain ⟨first, others⟩ := List.forall_mem_cons.mp all
    exact .token inside isWord level
      (.mark rfl ⟨rfl, rfl⟩ (first _ _ trivial (argLayout_lined others closing)))

theorem keepsLine {e : Expr} (formed : e.Formed) (worded : e.Worded) : e.KeepsLine atBreak n := by
  induction e using Expr.induction with
  | literal t v =>
    intro spot rest inside back
    cases worded with
    | literal isWord =>
      have level := Kind.isLevel_of_all (by decide) (formed_literal.mp formed).1
      exact .token inside isWord level back
  | ident t =>
    intro spot rest inside back
    cases worded with
    | ident isWord =>
      exact .token inside isWord (formed_ident.mp formed ▸ Kind.isLevel_ident) back
  | index t es ih =>
    intro spot rest inside back
    obtain ⟨named, -, formed⟩ := formed_index.mp formed
    cases worded with
    | index isWord indices =>
      exact .token inside isWord (named ▸ Kind.isLevel_ident) (indexLayout_lined
        (fun e member => ih e member (formed e member) (indices e member)) back)
  | group e ih =>
    intro spot rest inside back
    cases worded with
    | group inner =>
      exact .kind inside rfl ⟨rfl, rfl⟩
        (ih (formed_group.mp formed) inner _ _ trivial (.mark rfl ⟨rfl, rfl⟩ back))
  | call t es ih =>
    obtain ⟨named, formed⟩ := formed_call.mp formed
    cases worded with
    | call isWord args =>
      exact call_keepsLine isWord (named ▸ Kind.isLevel_ident)
        fun e member => ih e member (formed e member) (args e member)
  | unary op t e ih =>
    intro spot rest inside back
    obtain ⟨⟨prefixed, -⟩, formed⟩ := formed_unary.mp formed
    cases worded with
    | unary isWord operand =>
      have level : t.kind.IsLevel := by
        rcases prefixed with ⟨same, -⟩ | ⟨same, -⟩ <;> rw [same] <;> exact ⟨rfl, rfl⟩
      exact .token inside isWord level (ih formed operand _ _ trivial back)
  | binary left op t right ihl ihr =>
    intro spot rest inside back
    obtain ⟨⟨known, -⟩, formedLeft, formedRight⟩ := formed_binary.mp formed
    cases worded with
    | binary wordedLeft isWord wordedRight =>
      have found : (BinOp.ofKind? t.kind).isSome = true := by rw [known]; rfl
      have level := Kind.isLevel_of_all (q := fun k => (BinOp.ofKind? k).isSome) (by decide) found
      exact ihl formedLeft wordedLeft _ _ inside (.space (.token trivial isWord level
        (.space (ihr formedRight wordedRight _ _ trivial back))))

end Expr

/-! ### Declarations -/

theorem isLevel_of_type {kind : TypeKind} (found : TypeKind.ofKind? t.kind = some kind) :
    t.kind.IsLevel := by
  have known : (TypeKind.ofKind? t.kind).isSome = true := by rw [found]; rfl
  exact Kind.isLevel_of_all (q := fun k => (TypeKind.ofKind? k).isSome) (by decide) known

theorem dimLayout_lined {dims : List (Option Expr)}
    (all : ∀ size ∈ dims, ∀ e ∈ size, e.KeepsLine atBreak n) (back : Lined atBreak .behind n rest) :
    Lined atBreak .behind n (dimLayout dims rest) := by
  induction dims with
  | nil => exact back
  | cons size dims ih =>
    obtain ⟨first, others⟩ := List.forall_mem_cons.mp all
    have closing := Lined.mark (k := .rightBracket) rfl ⟨rfl, rfl⟩ (ih others)
    cases size with
    | none => exact .mark rfl ⟨rfl, rfl⟩ closing
    | some e => exact .mark rfl ⟨rfl, rfl⟩ (first e rfl _ _ trivial closing)

theorem VarDecl.lined {d : VarDecl} (formed : d.Formed) (worded : d.Worded) (inside : spot.TakesWord)
    (back : Lined atBreak .behind n rest) : Lined atBreak spot n (d.layout rest) := by
  obtain ⟨keyword, -, named, exprs⟩ := formed_iff.mp formed
  obtain ⟨sizes, init⟩ := forall_mem_exprs.mp exprs
  have levels : d.keyword.kind.IsLevel ∧ d.type.token.kind.IsLevel := by
    rcases keyword with ⟨same, type⟩ | ⟨same, type, -⟩
    · exact ⟨same ▸ ⟨rfl, rfl⟩, isLevel_of_type type⟩
    · exact ⟨same ▸ ⟨rfl, rfl⟩, type ▸ ⟨rfl, rfl⟩⟩
  have closing := Lined.mark (k := .semicolon) rfl ⟨rfl, rfl⟩ back
  have dims {rest : List Piece} (back : Lined atBreak .behind n rest) :
      Lined atBreak .behind n (dimLayout d.type.dims rest) :=
    dimLayout_lined (fun size member e same =>
      Expr.keepsLine (sizes size member e same) (worded.type.sizes size member e same)) back
  have name {rest : List Piece} (back : Lined atBreak .behind n rest) :
      Lined atBreak .within n (.ofToken d.name :: rest) :=
    .token trivial worded.name (named ▸ Kind.isLevel_ident) back
  have type {rest : List Piece} (back : Lined atBreak .within n rest) :
      Lined atBreak .within n (.ofToken d.type.token :: .space :: rest) :=
    .token trivial worded.type.word levels.2 (.space back)
  refine .token inside worded.keyword levels.1 (.space (type (name (dims ?_))))
  cases value : d.init with
  | none => exact closing
  | some e =>
    have shown : Lined atBreak .within n (e.layout (.ofKind .semicolon :: rest)) :=
      Expr.keepsLine (init e value) (worded.init e value) _ _ trivial closing
    exact .space (.kind trivial rfl ⟨rfl, rfl⟩ (.space shown))

/-! ### Statements -/

/-- A statement keeps to lines at any depth: its own blocks are closed where it ends. -/
def Stmt.KeepsLines (atBreak : List Piece → Prop) (s : Stmt) : Prop :=
  ∀ spot n rest, spot.TakesWord → Lined atBreak .behind n rest →
    Lined atBreak spot n (s.layout n rest)

theorem Stmt.linesLayout_lined {ss : List Stmt} (all : ∀ s ∈ ss, s.KeepsLines atBreak)
    (back : Lined atBreak .first n rest) : Lined atBreak .first n (linesLayout n ss rest) := by
  induction ss with
  | nil => exact back
  | cons s ss ih =>
    obtain ⟨first, others⟩ := List.forall_mem_cons.mp all
    exact .indent (first _ _ _ trivial (.newline (ih others)))

theorem braces_lined {ss : List Stmt} (all : ∀ s ∈ ss, s.KeepsLines atBreak) (inside : spot.TakesWord)
    (back : Lined atBreak .behind n rest) :
    Lined atBreak spot n (.ofKind .leftBrace :: .newline :: Stmt.linesLayout (n + 1) ss
      (.indent n :: .ofKind .rightBrace :: rest)) :=
  .opener inside (Kind.isWord_spelling (k := .leftBrace) rfl) rfl
    (.newline (Stmt.linesLayout_lined all (.close back)))

theorem Block.lined {b : Block} (all : ∀ s ∈ b.statements, s.KeepsLines atBreak)
    (inside : spot.TakesWord) (back : Lined atBreak .behind n rest) :
    Lined atBreak spot n (b.layout n rest) := by
  cases b with
  | mk opener statements => exact braces_lined all inside back

theorem condition_lined {c : Expr} (isWord : t.IsWord) (level : t.kind.IsLevel) (formed : c.Formed)
    (worded : c.Worded) (inside : spot.TakesWord) (back : Lined atBreak .within n rest) :
    Lined atBreak spot n (conditionLayout t c rest) := by
  have closing : Lined atBreak .behind n (.ofKind .rightParen :: .space :: rest) :=
    .mark rfl ⟨rfl, rfl⟩ (.space back)
  have test : Lined atBreak .behind n (c.layout (.ofKind .rightParen :: .space :: rest)) :=
    Expr.keepsLine formed worded _ _ trivial closing
  exact .token inside isWord level (.space (.kind trivial rfl ⟨rfl, rfl⟩ test))

theorem Expr.FormedCommand.keepsLine {e : Expr} (formed : e.FormedCommand) (worded : e.Worded) :
    e.KeepsLine atBreak n := by
  cases worded with
  | @call t es isWord args =>
    rcases formedCommand_call.mp formed with ⟨named, formed⟩ | ⟨read, name, rfl, named⟩ |
      ⟨procedure, e, rfl, formedArg⟩
    · exact call_keepsLine isWord (named ▸ Kind.isLevel_ident)
        fun e member => Expr.keepsLine (formed e member) (args e member)
    · exact call_keepsLine isWord (read ▸ ⟨rfl, rfl⟩)
        fun e member => Expr.keepsLine (List.mem_singleton.mp member ▸ formed_ident.mpr named)
          (args e member)
    · have level : t.kind.IsLevel :=
        Kind.isLevel_of_all (q := fun k => k ∈ [.printWord, .encryptWord, .decryptWord]) (by decide)
          (decide_eq_true procedure)
      exact call_keepsLine isWord level
        fun e member => Expr.keepsLine (List.mem_singleton.mp member ▸ formedArg) (args e member)
  | _ => exact formed.1.elim

/-- The layout of a statement of the grammar is lines, at whatever depth it stands. -/
theorem Stmt.lined {s : Stmt} (formed : s.Formed) (worded : s.Worded) : s.KeepsLines atBreak := by
  induction s using Stmt.induction with
  | varDecl d =>
    intro spot n rest inside back
    cases worded with
    | varDecl decl => exact VarDecl.lined (formed_varDecl.mp formed) decl inside back
  | assign target value =>
    intro spot n rest inside back
    obtain ⟨-, formedTarget, formedValue⟩ := formed_assign.mp formed
    cases worded with
    | assign left right =>
      have assigned : Lined atBreak .within n (value.layout (.ofKind .semicolon :: rest)) :=
        Expr.keepsLine formedValue right _ _ trivial (.mark rfl ⟨rfl, rfl⟩ back)
      exact Expr.keepsLine formedTarget left _ _ inside
        (.space (.kind trivial rfl ⟨rfl, rfl⟩ (.space assigned)))
  | branch t c b other ihThen ihElse =>
    intro spot n rest inside back
    obtain ⟨same, formedTest, formedThen, formedElse⟩ := formed_branch.mp formed
    cases worded with
    | branch isWord condition _ thenBlock _ elseBlock =>
      have level : t.kind.IsLevel := same ▸ ⟨rfl, rfl⟩
      have inThen : ∀ s ∈ b.statements, s.KeepsLines atBreak :=
        fun s member => ihThen s member (formedThen.2 s member) (thenBlock s member)
      cases other with
      | none =>
        exact condition_lined isWord level formedTest condition inside (Block.lined inThen trivial back)
      | some o =>
        have inElse : ∀ s ∈ o.statements, s.KeepsLines atBreak := fun s member =>
          ihElse o rfl s member ((formedElse o rfl).2 s member) (elseBlock o rfl s member)
        have otherwise : Lined atBreak .within n (o.layout n rest) := Block.lined inElse trivial back
        have chosen : Lined atBreak .within n
            (b.layout n (.space :: .ofKind .elseWord :: .space :: o.layout n rest)) :=
          Block.lined inThen trivial (.space (.kind trivial rfl ⟨rfl, rfl⟩ (.space otherwise)))
        exact condition_lined isWord level formedTest condition inside chosen
  | loop t c s ih =>
    intro spot n rest inside back
    obtain ⟨same, formedTest, formedBody⟩ := formed_loop.mp formed
    cases worded with
    | loop isWord condition body =>
      have level : t.kind.IsLevel := same ▸ ⟨rfl, rfl⟩
      exact condition_lined isWord level formedTest condition inside
        (ih formedBody body _ _ _ trivial back)
  | result t e =>
    intro spot n rest inside back
    obtain ⟨same, formedValue⟩ := formed_result.mp formed
    cases worded with
    | result isWord value =>
      have level : t.kind.IsLevel := same ▸ ⟨rfl, rfl⟩
      exact .token inside isWord level (.space
        (Expr.keepsLine formedValue value _ _ trivial (.mark rfl ⟨rfl, rfl⟩ back)))
  | block b ih =>
    intro spot n rest inside back
    have formed := (formed_block.mp formed).2
    cases worded with
    | block _ statements =>
      exact Block.lined (fun s member => ih s member (formed s member) (statements s member)) inside back
  | expression e =>
    intro spot n rest inside back
    cases worded with
    | expression command =>
      exact (formed_expression.mp formed).keepsLine command _ _ inside (.mark rfl ⟨rfl, rfl⟩ back)
  | empty t =>
    intro spot n rest inside back
    exact .kind inside rfl ⟨rfl, rfl⟩ back

/-! ### Programs -/

theorem Param.lined {p : Param} (grammatical : p.Grammatical) (worded : p.Worded)
    (inside : spot.TakesWord) (back : Lined atBreak .behind n rest) :
    Lined atBreak spot n (p.layout rest) :=
  .token inside worded.type.word (isLevel_of_type grammatical.1)
    (.space (.token trivial worded.name (grammatical.2.2 ▸ Kind.isLevel_ident) back))

theorem Param.listLayout_lined {ps : List Param} (all : ∀ p ∈ ps, p.Grammatical)
    (worded : ∀ p ∈ ps, p.Worded) (back : Lined atBreak .behind n rest) :
    Lined atBreak .behind n (listLayout ps rest) := by
  have others {ps : List Param} (all : ∀ p ∈ ps, p.Grammatical) (worded : ∀ p ∈ ps, p.Worded) :
      Lined atBreak .behind n (othersLayout ps rest) := by
    induction ps with
    | nil => exact back
    | cons p ps ih =>
      obtain ⟨first, others⟩ := List.forall_mem_cons.mp all
      obtain ⟨word, words⟩ := List.forall_mem_cons.mp worded
      exact .mark rfl ⟨rfl, rfl⟩ (.space (Param.lined first word trivial (ih others words)))
  cases ps with
  | nil => exact back
  | cons p ps =>
    obtain ⟨first, formed⟩ := List.forall_mem_cons.mp all
    obtain ⟨word, words⟩ := List.forall_mem_cons.mp worded
    exact Param.lined first word trivial (others formed words)

theorem Function.lined {f : Function} (formed : f.Formed) (worded : f.Worded) (breaks : atBreak rest)
    (back : Lined atBreak .first 0 rest) : Lined atBreak .first 0 (f.layout rest) := by
  obtain ⟨⟨type, -, named, params⟩, body⟩ := formed
  have statements : ∀ s ∈ f.body, s.KeepsLines atBreak :=
    fun s member => Stmt.lined (body s member) (worded.body s member)
  have closing : Lined atBreak .behind 0 (.newline :: .newline :: rest) := .newline (.blank breaks back)
  have braces : Lined atBreak .within 0 (.ofKind .leftBrace :: .newline ::
      Stmt.linesLayout 1 f.body (.indent 0 :: .ofKind .rightBrace :: .newline :: .newline :: rest)) :=
    braces_lined statements trivial closing
  have inParens := Param.listLayout_lined params worded.params
    (.mark (k := .rightParen) rfl ⟨rfl, rfl⟩ (.space braces))
  have named : Lined atBreak .within 0 (.ofToken f.name :: _) :=
    .token trivial worded.name (named ▸ Kind.isLevel_ident)
      (.mark (k := .leftParen) rfl ⟨rfl, rfl⟩ inParens)
  exact .flush (.token trivial worded.type.word (isLevel_of_type type) (.space named))

theorem Block.entry_lined {b : Block} (formed : ∀ s ∈ b.statements, s.Formed)
    (worded : ∀ s ∈ b.statements, s.Worded) (isWord : b.opener.IsWord)
    (opens : b.opener.kind = .beginWord) : Lined atBreak .first 0 (b.entryLayout []) := by
  have statements : ∀ s ∈ b.statements, s.KeepsLines atBreak :=
    fun s member => Stmt.lined (formed s member) (worded s member)
  exact .flush (.opener trivial isWord (opens ▸ rfl)
    (.newline (Stmt.linesLayout_lined statements .finish)))

/-- Pieces behind a function of a program are those of the items behind it. -/
def Program.AtBreak (p : Program) (pieces : List Piece) : Prop :=
  ∃ front f back, p.items = front ++ .function f :: back ∧ pieces = back.foldr Item.layout []

/-- The layout of a program of the grammar is lines, with an empty one behind each function. -/
theorem Program.lined {p : Program} (formed : p.Formed) (worded : p.Worded) :
    Lined p.AtBreak .first 0 p.layout := by
  obtain ⟨functions, decls, entry, items, formedFunctions, formedDecls, opens, formedEntry⟩ :=
    formed_iff.mp formed
  have functionsWorded : ∀ f ∈ functions, f.Worded :=
    fun f member => worded (.function f) (by simp [items, member])
  have declsWorded : ∀ d ∈ decls, d.Worded := fun d member => worded (.var d) (by simp [items, member])
  have entryWorded : Stmt.Worded (.block entry) := worded (.stmt (.block entry)) (by simp [items])
  have last : Lined p.AtBreak .first 0 ([Item.stmt (.block entry)].foldr Item.layout []) := by
    rw [List.foldr_cons, List.foldr_nil, Item.layout, if_pos opens]
    cases entryWorded with
    | block isWord statements => exact Block.entry_lined formedEntry statements isWord opens
  have middle : Lined p.AtBreak .first 0
      ((List.map Item.var decls ++ [Item.stmt (.block entry)]).foldr Item.layout []) := by
    clear items
    induction decls with
    | nil => exact last
    | cons d decls ih =>
      obtain ⟨first, others⟩ := List.forall_mem_cons.mp formedDecls
      obtain ⟨word, words⟩ := List.forall_mem_cons.mp declsWorded
      exact .flush (VarDecl.lined first word trivial (.newline (ih others words)))
  -- What stands behind a function is part of the whole program, so the functions in front are kept.
  have all (front back : List Function) (split : functions = front ++ back) : Lined p.AtBreak .first 0
      ((List.map Item.function back ++ (List.map Item.var decls ++ [Item.stmt (.block entry)])).foldr
        Item.layout []) := by
    induction back generalizing front with
    | nil => exact middle
    | cons f back ih =>
      have member : f ∈ functions := by simp [split]
      refine Function.lined (formedFunctions f member) (functionsWorded f member) ?_
        (ih (front ++ [f]) (by simp [split]))
      exact ⟨List.map .function front, f, _, by simp [items, split], rfl⟩
  unfold layout
  rw [items, List.append_assoc]
  exact all [] functions rfl

end GameLang
