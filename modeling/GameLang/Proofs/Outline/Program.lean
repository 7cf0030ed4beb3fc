import GameLang.Proofs.Outline.Lines
import GameLang.Proofs.Outline.Stmt
import GameLang.Proofs.Recast.Tokens
import GameLang.Proofs.RoundTrip

/-!
# What the outline of a program decides

The outlines of two programs that were read are the same exactly if the programs are, apart from the
places of tokens and the words that declare variables (`Source.outline_eq_iff`).
-/

namespace GameLang

variable {word : Token}

/-! ### Declaring words -/

def Function.declaredBy (word : Token) (f : Function) : Function :=
  { f with body := f.body.map (Stmt.declaredBy word) }

def Item.declaredBy (word : Token) : Item → Item
  | .function f => .function (f.declaredBy word)
  | .var d => .var (d.declaredBy word)
  | .stmt s => .stmt (s.declaredBy word)

/-- A program in which one word declares all variables. -/
def Program.declaredBy (word : Token) (p : Program) : Program :=
  ⟨p.items.map (Item.declaredBy word)⟩

theorem Item.node_declaredBy (item : Item) : (item.declaredBy word).node = item.node := by
  cases item with
  | function f =>
    rw [declaredBy, node, node, Function.declaredBy, Function.node, ← Stmt.allDeclaredBy_eq_map,
      Stmt.nodes_allDeclaredBy, Function.node]
  | var d => rfl
  | stmt s => exact Stmt.node_declaredBy s

theorem Program.outline_declaredBy (p : Program) : (p.declaredBy word).outline = p.outline := by
  have nodes : (p.items.map (Item.declaredBy word)).map Item.node = p.items.map Item.node := by
    rw [List.map_map]
    exact List.map_congr_left fun item _ => Item.node_declaredBy item
  rw [outline, node, declaredBy, nodes]
  rfl

/-! ### Nodes of programs -/

theorem Param.eq_of_node_eq {p q : Param} (grammatical : p.Grammatical) (other : q.Grammatical)
    (same : p.node = q.node) : p = q := by
  obtain ⟨kind, scalar, -⟩ := grammatical
  obtain ⟨kindOther, scalarOther, -⟩ := other
  obtain ⟨-, found, parts⟩ := Node.mk.inj same
  have name : p.name = q.name := Option.some.inj found
  have type : p.type = q.type :=
    TypeRef.eq_of_node_eq (scalar.proper kind) (scalarOther.proper kindOther) (List.cons.inj parts).1
  cases p
  cases q
  simp_all only

theorem Param.nodes_append_inj {ps qs : List Param} {ss ts : List Stmt}
    (same : ps.map node ++ Stmt.nodes ss = qs.map node ++ Stmt.nodes ts) :
    ps.map node = qs.map node ∧ ss.map Stmt.node = ts.map Stmt.node := by
  -- The parameters are the run of children with their own label, which no statement has.
  have params (ps : List Param) : ∀ n ∈ ps.map node, decide (n.label = .param) = true := by
    rw [List.forall_mem_map]
    exact fun p _ => rfl
  have body (ss : List Stmt) : (Stmt.nodes ss).head?.any (fun n => decide (n.label = .param)) = false := by
    cases ss with
    | nil => rfl
    | cons s ss =>
      have other : s.node.label ≠ .param := by
        rw [Stmt.label_node]
        cases s <;> exact Label.noConfusion
      exact decide_eq_false other
  obtain ⟨first, second⟩ := run_append_inj (params ps) (params qs) (body ss) (body ts) same
  rw [Stmt.nodes_eq_map, Stmt.nodes_eq_map] at second
  exact ⟨first, second⟩

theorem Function.declaredBy_eq {f g : Function} (formed : f.Formed) (other : g.Formed)
    (same : f.node = g.node) : f.declaredBy word = g.declaredBy word := by
  obtain ⟨⟨kind, scalar, -, params⟩, body⟩ := formed
  obtain ⟨⟨kindOther, scalarOther, -, paramsOther⟩, bodyOther⟩ := other
  obtain ⟨-, found, parts⟩ := Node.mk.inj same
  obtain ⟨result, parts⟩ := List.cons.inj parts
  obtain ⟨paramNodes, bodyNodes⟩ := Param.nodes_append_inj parts
  have sameParams : f.params = g.params := eq_of_map_eq (fun p inside q within =>
    Param.eq_of_node_eq (params p inside) (paramsOther q within)) paramNodes
  have sameBody := map_eq_of_map_eq (g := Stmt.declaredBy word) (fun s inside t within =>
    Stmt.declaredBy_eq (body s inside) (bodyOther t within)) bodyNodes
  rw [declaredBy, declaredBy, Option.some.inj found, sameParams, sameBody,
    TypeRef.eq_of_node_eq (scalar.proper kind) (scalarOther.proper kindOther) result]

namespace Item

def label : Item → Label
  | .function _ => .function
  | .var _ => .varDecl
  | .stmt s => s.label

theorem label_node (item : Item) : item.node.label = item.label := by
  cases item with
  | stmt s => exact s.label_node
  | _ => rfl

/-- What an item of a program of the grammar is: a function, a variable or the entry block. -/
def Formed : Item → Prop
  | .function f => f.Formed
  | .var d => d.Formed
  | .stmt (.block b) => ∀ s ∈ b.statements, s.Formed
  | .stmt _ => False

theorem declaredBy_eq {item other : Item} (formed : item.Formed) (formedOther : other.Formed)
    (same : item.node = other.node) : item.declaredBy word = other.declaredBy word := by
  have labels : item.label = other.label := by rw [← label_node, same, label_node]
  cases item with
  | function f =>
    cases other with
    | function g => exact congrArg function (Function.declaredBy_eq formed formedOther same)
    | var d => cases labels
    | stmt s => cases s <;> cases labels
  | var d =>
    cases other with
    | function g => cases labels
    | var c => exact congrArg var (VarDecl.declaredBy_eq formed formedOther same)
    | stmt s =>
      -- A declaring statement has the node of a variable, but the grammar has it in blocks only.
      cases s with
      | varDecl d => exact formedOther.elim
      | _ => cases labels
  | stmt s =>
    cases s with
    | block b =>
      cases other with
      | function g => cases labels
      | var c => cases labels
      | stmt t =>
        cases t with
        | block c =>
          refine congrArg (fun b => stmt (.block b)) (Block.declaredBy_eq ?_ same)
          intro s inside t within
          exact Stmt.declaredBy_eq (formed s inside) (formedOther t within)
        | _ => exact formedOther.elim
    | _ => exact formed.elim

end Item

theorem Program.Formed.item {p : Program} (formed : p.Formed) : ∀ item ∈ p.items, item.Formed := by
  obtain ⟨functions, decls, entry, items, functionsOk, declsOk, -, statements⟩ :=
    Program.formed_iff.mp formed
  rw [items]
  simp only [List.forall_mem_append, List.forall_mem_map, List.forall_mem_singleton]
  exact ⟨⟨functionsOk, declsOk⟩, statements⟩

/-- A node of the grammar is that of one program, up to declaring words. -/
theorem Program.declaredBy_eq {p q : Program} (formed : p.Formed) (other : q.Formed)
    (same : p.node = q.node) : p.declaredBy word = q.declaredBy word := by
  have parts := (Node.mk.inj same).2.2
  have items := map_eq_of_map_eq (g := Item.declaredBy word) (fun item inside item' within =>
    Item.declaredBy_eq (formed.item item inside) (other.item item' within)) parts
  rw [declaredBy, declaredBy, items]

/-! ### Sources -/

namespace Source

variable {text other : String} {a b : Source}

/-- The program of a source is of the grammar, and its tokens are words of the text. -/
theorem formed_legible (read : Source.read text = .ok a) :
    a.program.unplaced.Formed ∧ a.program.unplaced.node.Legible := by
  obtain ⟨lexed, parsed⟩ := read_eq_ok_iff.mp read
  obtain ⟨rest, parsed⟩ := Reader.fst_run_ok_iff.mp parsed
  obtain ⟨us, p, split, words⟩ := (tokens_eq_ok_iff.mp lexed).exists_words
  have agree := Reader.program_follows (r := .unplaced) nestingLimit a.tokens
  rw [parsed] at agree
  cases placed : Reader.program nestingLimit (a.tokens.map Recast.unplaced.token) with
  | fail cause others =>
    rw [placed] at agree
    exact agree.elim
  | ok q others =>
    rw [placed] at agree
    obtain rfl : q = a.program.unplaced := agree.1
    have legible : ∀ t ∈ a.tokens.map Recast.unplaced.token, t.Legible := by
      rw [split, List.map_append, List.forall_mem_append, List.forall_mem_map]
      exact ⟨fun t member => ⟨rfl, .inl (words t member)⟩,
        List.forall_mem_singleton.mpr ⟨rfl, .inr rfl⟩⟩
    exact ⟨(Reader.program_ok placed).1,
      Program.forall_tokens_of_ok ⟨rfl, .inr rfl⟩ placed legible⟩

/-- Two sources have the same outline exactly if their programs are the same apart from the places of
tokens and the words that declare variables. -/
theorem outline_eq_iff (first : Source.read text = .ok a) (second : Source.read other = .ok b)
    (word : Token) : a.program.outline = b.program.outline ↔
      a.program.unplaced.declaredBy word = b.program.unplaced.declaredBy word := by
  have kept (s : Source) : s.program.unplaced.outline = s.program.outline :=
    Program.outline_recast Recast.keepsText_unplaced s.program
  obtain ⟨formed, legible⟩ := formed_legible first
  obtain ⟨formedOther, legibleOther⟩ := formed_legible second
  constructor
  · intro same
    rw [← kept a, ← kept b] at same
    exact Program.declaredBy_eq formed formedOther (Node.eq_of_outline_eq legible legibleOther same)
  · intro same
    rw [← kept a, ← kept b, ← Program.outline_declaredBy a.program.unplaced, same,
      Program.outline_declaredBy]

theorem outline_eq_iff_declaring :
    let declaring (word type name opener : Token) : Program :=
      ⟨[.var ⟨word, .scalar .char type, name, none⟩, .stmt (.block ⟨opener, []⟩)]⟩
    let p := declaring ⟨.varWord, "moj", none, ⟨1, 1, 3⟩⟩ ⟨.charType, "slovo", none, ⟨1, 5, 9⟩⟩
      ⟨.ident, "c", none, ⟨1, 11, 11⟩⟩ ⟨.beginWord, "zapocni_igru", none, ⟨1, 13, 24⟩⟩
    let q := declaring ⟨.varCharWord, "moje", none, ⟨1, 1, 4⟩⟩ ⟨.charType, "slovo", none, ⟨2, 1, 5⟩⟩
      ⟨.ident, "c", none, ⟨2, 7, 7⟩⟩ ⟨.beginWord, "zapocni_igru", none, ⟨2, 10, 21⟩⟩
    ∃ ts us, Source.read "moj slovo c;zapocni_igru zavrsi_igru;" = .ok ⟨ts, p⟩ ∧
      Source.read "moje\nslovo c; zapocni_igru zavrsi_igru;" = .ok ⟨us, q⟩ ∧
      p.outline = q.outline := by
  intro declaring p q
  have lexed : GameLang.tokens "moj slovo c;zapocni_igru zavrsi_igru;" = .ok
      [⟨.varWord, "moj", none, ⟨1, 1, 3⟩⟩, ⟨.charType, "slovo", none, ⟨1, 5, 9⟩⟩,
        ⟨.ident, "c", none, ⟨1, 11, 11⟩⟩, ⟨.semicolon, ";", none, ⟨1, 12, 12⟩⟩,
        ⟨.beginWord, "zapocni_igru", none, ⟨1, 13, 24⟩⟩, ⟨.endWord, "zavrsi_igru", none, ⟨1, 26, 36⟩⟩,
        ⟨.semicolon, ";", none, ⟨1, 37, 37⟩⟩, Token.ending ⟨1, 38⟩] := by decide +kernel
  have lexedOther : GameLang.tokens "moje\nslovo c; zapocni_igru zavrsi_igru;" = .ok
      [⟨.varCharWord, "moje", none, ⟨1, 1, 4⟩⟩, ⟨.charType, "slovo", none, ⟨2, 1, 5⟩⟩,
        ⟨.ident, "c", none, ⟨2, 7, 7⟩⟩, ⟨.semicolon, ";", none, ⟨2, 8, 8⟩⟩,
        ⟨.beginWord, "zapocni_igru", none, ⟨2, 10, 21⟩⟩, ⟨.endWord, "zavrsi_igru", none, ⟨2, 23, 33⟩⟩,
        ⟨.semicolon, ";", none, ⟨2, 34, 34⟩⟩, Token.ending ⟨2, 35⟩] := by decide +kernel
  have first : Source.read "moj slovo c;zapocni_igru zavrsi_igru;" = .ok ⟨_, p⟩ :=
    read_eq_ok_iff.mpr ⟨lexed, rfl⟩
  have second : Source.read "moje\nslovo c; zapocni_igru zavrsi_igru;" = .ok ⟨_, q⟩ :=
    read_eq_ok_iff.mpr ⟨lexedOther, rfl⟩
  exact ⟨_, _, first, second, (outline_eq_iff first second (Token.ending .start)).mpr rfl⟩

end Source

end GameLang
