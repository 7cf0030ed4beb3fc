import GameLang.Proofs.Lexing.Tiles
import GameLang.Proofs.Outline.Program
import Mathlib.Data.List.Nodup

/-!
# Which tokens the nodes of a program have

Every token that says something is that of one node, and a token that only punctuates is that of none,
but for the brace of a block and the semicolon of an empty statement. Nodes with the same parent stand
in the order of their tokens (`Source.tokens_covered`).
-/

namespace GameLang

/-- The kinds whose tokens always have a node. -/
def Kind.isShown (k : Kind) : Bool :=
  k = .ident || k.isLiteral || k.isTypeWord || (BinOp.ofKind? k).isSome || (UnOp.ofKind? k).isSome ||
    k.isBuiltin || k ∈ [ifWord, whileWord, returnWord, beginWord]

/-! ### The nodes inside a node -/

namespace Node

mutual

/-- A node and the nodes inside it, each before its parts. -/
def parts : Node → List Node
  | .mk label token children => .mk label token children :: partsOf children

def partsOf : List Node → List Node
  | [] => []
  | n :: siblings => n.parts ++ partsOf siblings

end

/-- The nodes inside a node whose token stands where some token does. -/
def owners (n : Node) (t : Token) : List Node :=
  n.parts.filter fun m => m.token.map Token.span = some t.span

/-- The tokens of a node and of the nodes inside it. -/
def tokens (n : Node) : List Token := n.parts.filterMap token

def tokensOf (ns : List Node) : List Token := (partsOf ns).filterMap token

theorem partsOf_eq_flatMap (ns : List Node) : partsOf ns = ns.flatMap parts := by
  induction ns with
  | nil => rfl
  | cons n ns ih => rw [partsOf, ih, List.flatMap_cons]

theorem partsOf_append (ns ms : List Node) : partsOf (ns ++ ms) = partsOf ns ++ partsOf ms := by
  simp only [partsOf_eq_flatMap, List.flatMap_append]

theorem partsOf_singleton (n : Node) : partsOf [n] = n.parts := by
  rw [partsOf, partsOf, List.append_nil]

theorem tokensOf_append (ns ms : List Node) : tokensOf (ns ++ ms) = tokensOf ns ++ tokensOf ms := by
  rw [tokensOf, partsOf_append, List.filterMap_append]
  rfl

theorem tokensOf_singleton (n : Node) : tokensOf [n] = n.tokens := by
  rw [tokensOf, partsOf_singleton, tokens]

theorem length_owners (n : Node) (t : Token) :
    (n.owners t).length = (n.tokens.map Token.span).count t.span := by
  rw [owners, ← List.countP_eq_length_filter, tokens, List.count, List.countP_map,
    List.countP_filterMap]
  refine List.countP_congr fun m _ => ?_
  cases m.token with
  | none => simp
  | some u => simp

theorem tokens_subset_tokensOf {n : Node} {ns : List Node} (member : n ∈ ns) :
    n.tokens ⊆ tokensOf ns := by
  obtain ⟨front, back, rfl⟩ := List.append_of_mem member
  intro t inside
  rw [tokensOf_append, ← List.singleton_append, tokensOf_append, tokensOf, tokensOf,
    partsOf_singleton]
  exact List.mem_append_right _ (List.mem_append_left _ inside)

/-! ### Nodes that cover tokens -/

/-- The tokens in one node stand in front of those in another one. -/
def Ahead (ts : List Token) (m n : Node) : Prop :=
  ∀ t ∈ m.tokens, ∀ u ∈ n.tokens, [t, u].Sublist ts

/-- A node has no token, one that says something, or the one that stands for its empty or braced
text. -/
def Proper (n : Node) : Prop :=
  ∀ t ∈ n.token, t.kind.isShown = true ∨ n.label = .block ∧ t.kind = .leftBrace ∨
    n.label = .empty ∧ t.kind = .semicolon

/-- Nodes and the tokens that they were read from. Only tokens that say nothing lack a node, and at
every depth siblings stand in the order of their tokens. -/
structure Covers (ts : List Token) (ns : List Node) : Prop where
  shown : ∃ hidden, ts.Perm (tokensOf ns ++ hidden) ∧ ∀ t ∈ hidden, t.kind.isShown = false
  proper : ∀ n ∈ partsOf ns, n.Proper
  siblings : ns.Pairwise (Ahead ts)
  nested : ∀ n ∈ partsOf ns, n.children.Pairwise (Ahead ts)

theorem Ahead.mono {ts us : List Token} (sub : ts.Sublist us) {m n : Node} (ahead : Ahead ts m n) :
    Ahead us m n := fun t first u second => (ahead t first u second).trans sub

/-- Where no token is twice, one in front of another has the smaller index. -/
theorem idxOf_lt_idxOf {ts : List Token} {t u : Token} (distinct : ts.Nodup)
    (ahead : [t, u].Sublist ts) : ts.idxOf t < ts.idxOf u := by
  obtain ⟨front, back, rfl, first, later⟩ := List.cons_sublist_iff.mp ahead
  have second := List.singleton_sublist.mp later
  have apart : u ∉ front := fun inside => List.disjoint_of_nodup_append distinct inside second
  rw [List.idxOf_append_of_mem first, List.idxOf_append_of_notMem apart]
  exact Nat.lt_add_right _ (List.idxOf_lt_length_iff.mpr first)

namespace Covers

variable {ts us front back : List Token} {ns ms : List Node} {t : Token} {label : Label}

theorem mem (covers : Covers ts ns) {n : Node} (member : n ∈ ns) (inside : t ∈ n.tokens) : t ∈ ts := by
  obtain ⟨hidden, perm, -⟩ := covers.shown
  exact perm.mem_iff.mpr (List.mem_append_left _ (tokens_subset_tokensOf member inside))

theorem nothing : Covers [] [] := ⟨⟨[], .nil, by simp⟩, by simp [partsOf], .nil, by simp [partsOf]⟩

theorem append (first : Covers ts ns) (second : Covers us ms) : Covers (ts ++ us) (ns ++ ms) := by
  have left : ts.Sublist (ts ++ us) := List.sublist_append_left ts us
  have right : us.Sublist (ts ++ us) := List.sublist_append_right ts us
  obtain ⟨hidden, perm, silent⟩ := first.shown
  obtain ⟨others, permOthers, silentOthers⟩ := second.shown
  constructor
  · refine ⟨hidden ++ others, ?_, List.forall_mem_append.mpr ⟨silent, silentOthers⟩⟩
    refine (perm.append permOthers).trans ?_
    rw [tokensOf_append, List.append_assoc, List.append_assoc]
    exact (List.perm_append_comm_assoc _ _ _).append_left _
  · rw [partsOf_append, List.forall_mem_append]
    exact ⟨first.proper, second.proper⟩
  · refine List.pairwise_append.mpr ⟨first.siblings.imp (Ahead.mono left),
      second.siblings.imp (Ahead.mono right), ?_⟩
    intro m member n other t inside u within
    have one : [t].Sublist ts := List.singleton_sublist.mpr (first.mem member inside)
    have two : [u].Sublist us := List.singleton_sublist.mpr (second.mem other within)
    exact one.append two
  · rw [partsOf_append, List.forall_mem_append]
    exact ⟨fun n inside => (first.nested n inside).imp (Ahead.mono left),
      fun n inside => (second.nested n inside).imp (Ahead.mono right)⟩

/-- A token that says nothing, anywhere. -/
theorem hide (covers : Covers (front ++ back) ns) (silent : t.kind.isShown = false) :
    Covers (front ++ t :: back) ns := by
  have sub : (front ++ back).Sublist (front ++ t :: back) :=
    (List.sublist_cons_self t back).append_left front
  obtain ⟨hidden, perm, others⟩ := covers.shown
  refine ⟨⟨t :: hidden, ?_, List.forall_mem_cons.mpr ⟨silent, others⟩⟩, covers.proper,
    covers.siblings.imp (Ahead.mono sub), fun n inside => (covers.nested n inside).imp (Ahead.mono sub)⟩
  exact List.perm_middle.trans ((perm.cons t).trans List.perm_middle.symm)

/-- The token of a node, anywhere among those of its parts. -/
theorem node (covers : Covers (front ++ back) ns) (proper : Proper (.mk label (some t) ns)) :
    Covers (front ++ t :: back) [.mk label (some t) ns] := by
  have sub : (front ++ back).Sublist (front ++ t :: back) :=
    (List.sublist_cons_self t back).append_left front
  obtain ⟨hidden, perm, silent⟩ := covers.shown
  refine ⟨⟨hidden, ?_, silent⟩, ?_, List.pairwise_singleton _ _, ?_⟩
  · rw [tokensOf, partsOf_singleton, parts]
    exact List.perm_middle.trans (perm.cons t)
  · rw [partsOf_singleton, parts]
    exact List.forall_mem_cons.mpr ⟨proper, covers.proper⟩
  · rw [partsOf_singleton, parts]
    exact List.forall_mem_cons.mpr ⟨covers.siblings.imp (Ahead.mono sub),
      fun n inside => (covers.nested n inside).imp (Ahead.mono sub)⟩

/-- A node without a token. -/
theorem plain (covers : Covers ts ns) : Covers ts [.mk label none ns] := by
  refine ⟨?_, ?_, List.pairwise_singleton _ _, ?_⟩
  · rw [tokensOf, partsOf_singleton, parts]
    exact covers.shown
  · rw [partsOf_singleton, parts]
    refine List.forall_mem_cons.mpr ⟨?_, covers.proper⟩
    rintro t ⟨⟩
  · rw [partsOf_singleton, parts]
    exact List.forall_mem_cons.mpr ⟨covers.siblings, covers.nested⟩

/-! ### Owners -/

section Owners

variable {n m : Node}

theorem mem_of_token (covers : Covers ts [n]) (inside : m ∈ n.parts) (found : t ∈ m.token) :
    t ∈ ts := covers.mem (List.mem_singleton_self n) (List.mem_filterMap.mpr ⟨m, inside, found⟩)

/-- The nodes with a token and the hidden tokens with its span are one together. -/
theorem owners_add_hidden {hidden : List Token} (spans : (ts.map Token.span).Nodup)
    (perm : ts.Perm (tokensOf [n] ++ hidden)) (member : t ∈ ts) :
    (n.owners t).length + (hidden.map Token.span).count t.span = 1 := by
  rw [length_owners, ← tokensOf_singleton, ← List.count_append, ← List.map_append,
    ← (perm.map Token.span).count_eq]
  exact List.count_eq_one_of_mem spans (List.mem_map_of_mem member)

theorem exists_owner (covers : Covers ts [n]) (spans : (ts.map Token.span).Nodup) (member : t ∈ ts)
    (shown : t.kind.isShown = true) : ∃ m, n.owners t = [m] := by
  obtain ⟨hidden, perm, silent⟩ := covers.shown
  have absent : (hidden.map Token.span).count t.span = 0 := by
    refine List.count_eq_zero.mpr fun inside => ?_
    obtain ⟨u, found, placed⟩ := List.mem_map.mp inside
    have other : u ∈ ts := perm.mem_iff.mpr (List.mem_append_right _ found)
    obtain rfl : u = t := List.inj_on_of_nodup_map spans other member placed
    rw [silent u found] at shown
    cases shown
  have one := owners_add_hidden spans perm member
  rw [absent] at one
  exact List.length_eq_one_iff.mp one

theorem owners_of_hidden (covers : Covers ts [n]) (spans : (ts.map Token.span).Nodup)
    (member : t ∈ ts) (silent : t.kind.isShown = false) :
    n.owners t = [] ∨ ∃ m, n.owners t = [m] ∧
      (m.label = .block ∧ t.kind = .leftBrace ∨ m.label = .empty ∧ t.kind = .semicolon) := by
  obtain ⟨hidden, perm, -⟩ := covers.shown
  have one := owners_add_hidden spans perm member
  cases owned : n.owners t with
  | nil => exact .inl rfl
  | cons m others =>
    rw [owned, List.length_cons] at one
    obtain rfl : others = [] := List.length_eq_zero_iff.mp (by omega)
    refine .inr ⟨m, rfl, ?_⟩
    have owner : m ∈ n.owners t := by
      rw [owned]
      exact List.mem_singleton_self m
    obtain ⟨inside, placed⟩ := List.mem_filter.mp owner
    obtain ⟨u, found, same⟩ := Option.map_eq_some_iff.mp (of_decide_eq_true placed)
    obtain rfl : u = t :=
      List.inj_on_of_nodup_map spans (covers.mem_of_token inside found) member same
    have proper := covers.proper
    rw [partsOf_singleton] at proper
    rcases proper m inside u found with shown | rest
    · rw [silent] at shown
      cases shown
    · exact rest

end Owners

end Covers

/-! ### Nodes that cover what stands at marks -/

/-- Nodes cover all tokens that can stand at the places of some marks. -/
def Answers (marks : List Mark) (ns : List Node) : Prop := ∀ ts, Written marks ts → Covers ts ns

namespace Answers

variable {front back : List Mark} {ns ms : List Node} {t : Token} {k : Kind} {label : Label}

theorem nothing : Answers [] [] := by
  intro ts written
  rw [written_nil_iff.mp written]
  exact .nothing

theorem append (first : Answers front ns) (second : Answers back ms) :
    Answers (front ++ back) (ns ++ ms) := by
  intro ts written
  obtain ⟨us, vs, rfl, left, right⟩ := written_append_iff.mp written
  exact (first us left).append (second vs right)

theorem flatMap {α : Type} {yield : α → List Mark} {node : α → Node} {values : List α}
    (all : ∀ v ∈ values, Answers (yield v) [node v]) :
    Answers (values.flatMap yield) (values.map node) := by
  induction values with
  | nil => exact nothing
  | cons v values ih =>
    obtain ⟨first, others⟩ := List.forall_mem_cons.mp all
    exact first.append (ih others)

theorem kind (answers : Answers (front ++ back) ns) (silent : k.isShown = false) :
    Answers (front ++ .kind k :: back) ns := by
  intro ts written
  obtain ⟨us, vs, rfl, left, right⟩ := written_append_iff.mp written
  obtain ⟨t, vs, rfl, same, others⟩ := written_kind_iff.mp right
  exact (answers _ (left.append others)).hide (by rw [same, silent])

/-- A kept token that says nothing and has no node. -/
theorem token (answers : Answers (front ++ back) ns) (silent : t.kind.isShown = false) :
    Answers (front ++ .token t :: back) ns := by
  intro ts written
  obtain ⟨us, vs, rfl, left, right⟩ := written_append_iff.mp written
  obtain ⟨vs, rfl, others⟩ := written_token_iff.mp right
  exact (answers _ (left.append others)).hide silent

theorem node (answers : Answers (front ++ back) ns) (proper : Proper (.mk label (some t) ns)) :
    Answers (front ++ .token t :: back) [.mk label (some t) ns] := by
  intro ts written
  obtain ⟨us, vs, rfl, left, right⟩ := written_append_iff.mp written
  obtain ⟨vs, rfl, others⟩ := written_token_iff.mp right
  exact (answers _ (left.append others)).node proper

theorem plain (answers : Answers front ns) : Answers front [.mk label none ns] :=
  fun ts written => (answers ts written).plain

theorem opened (answers : Answers back ns) (silent : k.isShown = false) :
    Answers (.kind k :: back) ns := @kind [] back ns k answers silent

theorem closed (answers : Answers front ns) (silent : k.isShown = false) :
    Answers (front ++ [.kind k]) ns := by
  rw [← List.append_nil front] at answers
  exact answers.kind silent

/-- The token of a node in front of those of its parts. -/
theorem head (answers : Answers back ns) (proper : Proper (.mk label (some t) ns)) :
    Answers (.token t :: back) [.mk label (some t) ns] := @node [] back ns t label answers proper

end Answers

end Node

open Node

/-! ### Kinds -/

namespace Kind

variable {k : Kind}

theorem isShown_of_isLiteral (literal : k.isLiteral = true) : k.isShown = true := by
  cases k <;> first | rfl | cases literal

theorem isShown_of_binary {op : BinOp} (found : BinOp.ofKind? k = some op) : k.isShown = true := by
  cases k <;> first | rfl | cases found

theorem isShown_of_type {kind : TypeKind} (found : TypeKind.ofKind? k = some kind) :
    k.isShown = true := by
  cases k <;> first | rfl | cases found

end Kind

theorem Node.proper_of_isShown {t : Token} (shown : t.kind.isShown = true) (label : Label)
    (ns : List Node) : Proper (.mk label (some t) ns) := by
  rintro u ⟨⟩
  exact .inl shown

/-! ### Expressions -/

namespace Expr

variable {t : Token} {es : List Expr}

theorem args_answer (all : ∀ e ∈ es, Answers e.yield [e.node]) : Answers (argYield es) (nodes es) := by
  rw [nodes_eq_map]
  cases es with
  | nil => exact .nothing
  | cons e es =>
    obtain ⟨first, others⟩ := List.forall_mem_cons.mp all
    rw [argYield, nextArgYield_eq_flatMap]
    exact first.append (.flatMap fun d member => (others d member).opened rfl)

theorem call_answers (shown : t.kind.isShown = true) (all : ∀ e ∈ es, Answers e.yield [e.node]) :
    Answers (call t es).yield [(call t es).node] :=
  (((args_answer all).closed rfl).opened rfl).head (proper_of_isShown shown _ _)

theorem answers {e : Expr} (formed : e.Formed) : Answers e.yield [e.node] := by
  induction e using Expr.induction with
  | literal t v =>
    have shown := Kind.isShown_of_isLiteral (formed_literal.mp formed).1
    exact Answers.nothing.head (proper_of_isShown shown _ _)
  | ident t =>
    have shown : t.kind.isShown = true := by rw [formed_ident.mp formed]; rfl
    exact Answers.nothing.head (proper_of_isShown shown _ _)
  | index t es ih =>
    obtain ⟨named, -, formed⟩ := formed_index.mp formed
    have shown : t.kind.isShown = true := by rw [named]; rfl
    rw [yield, node, indexYield_eq_flatMap, nodes_eq_map]
    refine (Answers.flatMap fun e member => ?_).head (proper_of_isShown shown _ _)
    exact ((ih e member (formed e member)).closed rfl).opened rfl
  | group e ih => exact (((ih (formed_group.mp formed)).closed rfl).opened rfl).plain
  | call t es ih =>
    obtain ⟨named, formed⟩ := formed_call.mp formed
    exact call_answers (by rw [named]; rfl) fun e member => ih e member (formed e member)
  | unary op t e ih =>
    obtain ⟨⟨operator, -⟩, formed⟩ := formed_unary.mp formed
    have shown : t.kind.isShown = true := by
      rcases operator with ⟨same, -⟩ | ⟨same, -⟩ <;> rw [same] <;> rfl
    exact (ih formed).head (proper_of_isShown shown _ _)
  | binary l op t r left right =>
    obtain ⟨⟨operator, -⟩, formedLeft, formedRight⟩ := formed_binary.mp formed
    have shown := Kind.isShown_of_binary operator
    exact ((left formedLeft).append (right formedRight)).node (proper_of_isShown shown _ _)

theorem FormedCommand.answers {e : Expr} (formed : e.FormedCommand) : Answers e.yield [e.node] := by
  obtain ⟨t, es, rfl, -⟩ := formed.exists_call
  have arg {e : Expr} (formed : e.Formed) : ∀ d ∈ [e], Answers d.yield [d.node] :=
    List.forall_mem_singleton.mpr (Expr.answers formed)
  rcases formedCommand_call.mp formed with ⟨named, all⟩ | ⟨reads, name, rfl, named⟩ | ⟨word, e, rfl, one⟩
  · exact call_answers (by rw [named]; rfl) fun e member => Expr.answers (all e member)
  · exact call_answers (by rw [reads]; rfl) (arg (formed_ident.mpr named))
  · refine call_answers ?_ (arg one)
    have words : t.kind = .printWord ∨ t.kind = .encryptWord ∨ t.kind = .decryptWord := by
      simpa using word
    rcases words with same | same | same <;> rw [same] <;> rfl

end Expr

/-! ### Declarations -/

theorem TypeRef.answers_scalar {type : TypeRef} (found : TypeKind.ofKind? type.token.kind = some type.kind)
    (scalar : type.Scalar) : Answers [.token type.token] [type.node] := by
  rw [node, scalar.2]
  exact Answers.nothing.head (proper_of_isShown (Kind.isShown_of_type found) _ _)

theorem VarDecl.answers {d : VarDecl} (formed : d.Formed) : Answers d.yield [d.node] := by
  obtain ⟨kinds, -, named, exprs⟩ := formed_iff.mp formed
  obtain ⟨sizes, init⟩ := forall_mem_exprs.mp exprs
  have typed := Kind.isShown_of_type formed.1.kind
  have shown : d.name.kind.isShown = true := by rw [named]; rfl
  have silent : d.keyword.kind.isShown = false := by
    rcases kinds with ⟨same, -⟩ | ⟨same, -⟩ <;> rw [same] <;> rfl
  have dims : Answers (d.type.dims.flatMap dimYield)
      (d.type.dims.map fun size => .mk .dim none (Expr.optionNodes size)) := by
    refine .flatMap fun size member => Answers.plain ?_
    cases size with
    | none => exact (Answers.nothing.closed rfl).opened rfl
    | some e => exact ((Expr.answers (sizes _ member e rfl)).closed rfl).opened rfl
  have value : Answers (initYield d.init ++ [.kind .semicolon]) (Expr.optionNodes d.init) := by
    refine Answers.closed ?_ rfl
    cases found : d.init with
    | none => exact .nothing
    | some e => exact (Expr.answers (init e found)).opened rfl
  -- The name stands between the word for the type and its dimensions.
  have parts := (dims.head (proper_of_isShown typed .type _)).append value
  have whole := @Answers.node [.token d.type.token] _ _ _ _ parts (proper_of_isShown shown .varDecl _)
  exact @Answers.token [] _ _ _ whole silent

/-! ### Statements -/

theorem Block.statements_answer {b : Block} (all : ∀ s ∈ b.statements, Answers s.yield [s.node]) :
    Answers (b.statements.flatMap Stmt.yield) (Stmt.nodes b.statements) := by
  rw [Stmt.nodes_eq_map]
  exact .flatMap all

theorem Block.answers {b : Block} (braced : b.Braced)
    (all : ∀ s ∈ b.statements, Answers s.yield [s.node]) : Answers b.yield [b.node] := by
  have inside := statements_answer all
  rw [yield_eq]
  cases b with
  | mk opener statements =>
    refine (inside.closed rfl).head ?_
    rintro t ⟨⟩
    exact .inr (.inl ⟨rfl, braced⟩)

/-- A keyword with a condition and what follows it. -/
theorem Expr.condition_answers {word : Token} {c : Expr} {back : List Mark} {ns : List Node}
    (shown : word.kind.isShown = true) (label : Label) (formed : c.Formed) (rest : Answers back ns) :
    Answers (conditionYield word c ++ back) [.mk label (some word) (c.node :: ns)] :=
  ((((answers formed).closed rfl).append rest).opened rfl).head (proper_of_isShown shown label _)

theorem Stmt.answers {s : Stmt} (formed : s.Formed) : Answers s.yield [s.node] := by
  induction s using Stmt.induction with
  | varDecl d => exact VarDecl.answers (formed_varDecl.mp formed)
  | assign target value =>
    obtain ⟨-, formedTarget, formedValue⟩ := formed_assign.mp formed
    exact ((Expr.answers formedTarget).append
      (((Expr.answers formedValue).closed rfl).opened rfl)).plain
  | branch t c b other ihThen ihElse =>
    obtain ⟨word, formedCondition, formedThen, formedElse⟩ := formed_branch.mp formed
    have thenBlock := Block.answers formedThen.1 fun s inside => ihThen s inside (formedThen.2 s inside)
    have elseBlock : Answers (other.elim [] fun o => .kind .elseWord :: o.yield)
        (other.toList.map Block.node) := by
      cases other with
      | none => exact .nothing
      | some o =>
        have formed := formedElse o rfl
        have answer := Block.answers formed.1 fun s inside => ihElse o rfl s inside (formed.2 s inside)
        exact answer.opened rfl
    rw [yield_branch, node_branch]
    exact Expr.condition_answers (by rw [word]; rfl) .branch formedCondition
      (thenBlock.append elseBlock)
  | loop t c s ih =>
    obtain ⟨word, formedCondition, formedBody⟩ := formed_loop.mp formed
    exact Expr.condition_answers (by rw [word]; rfl) .loop formedCondition (ih formedBody)
  | result t e =>
    obtain ⟨word, formedValue⟩ := formed_result.mp formed
    exact ((Expr.answers formedValue).closed rfl).head (proper_of_isShown (by rw [word]; rfl) _ _)
  | block b ih =>
    obtain ⟨braced, all⟩ := formed_block.mp formed
    exact Block.answers braced fun s inside => ih s inside (all s inside)
  | expression e =>
    exact ((formed_expression.mp formed).answers.closed rfl).plain
  | empty t =>
    refine Answers.nothing.head ?_
    rintro u ⟨⟩
    exact .inr (.inr ⟨rfl, formed_empty.mp formed⟩)

/-! ### Programs -/

theorem Param.answers {p : Param} (grammatical : p.Grammatical) : Answers p.yield [p.node] := by
  obtain ⟨kind, scalar, named⟩ := grammatical
  have type := TypeRef.answers_scalar kind scalar
  exact @Answers.node [.token p.type.token] [] _ _ _ type (proper_of_isShown (by rw [named]; rfl) _ _)

theorem Param.all_answer {ps : List Param} (all : ∀ p ∈ ps, p.Grammatical) :
    Answers (yields ps) (ps.map node) := by
  cases ps with
  | nil => exact .nothing
  | cons p ps =>
    obtain ⟨first, others⟩ := List.forall_mem_cons.mp all
    exact (answers first).append (.flatMap fun q member => (answers (others q member)).opened rfl)

theorem Function.answers {f : Function} (formed : f.Formed) : Answers f.yield [f.node] := by
  obtain ⟨⟨kind, scalar, named, params⟩, body⟩ := formed
  have statements : Answers (f.body.flatMap Stmt.yield) (Stmt.nodes f.body) := by
    rw [Stmt.nodes_eq_map]
    exact .flatMap fun s member => Stmt.answers (body s member)
  have braced := (statements.closed (k := .rightBrace) rfl).opened (k := .leftBrace) rfl
  have signature := ((Param.all_answer params).append (braced.opened (k := .rightParen) rfl)).opened
    (k := .leftParen) rfl
  exact @Answers.node [.token f.returnType.token] _ _ _ _
    ((TypeRef.answers_scalar kind scalar).append signature)
    (proper_of_isShown (by rw [named]; rfl) _ _)

theorem Block.entry_answers {b : Block} (opener : b.opener.kind = .beginWord)
    (all : ∀ s ∈ b.statements, s.Formed) : Answers b.entryYield [b.node] := by
  have inside := statements_answer fun s member => Stmt.answers (all s member)
  cases b with
  | mk word statements =>
    have ended := (inside.closed (k := .endWord) rfl).closed (k := .semicolon) rfl
    rw [List.append_assoc] at ended
    exact ended.head (proper_of_isShown (by rw [opener]; rfl) _ _)

theorem Program.answers {p : Program} (formed : p.Formed) : Answers p.yield [p.node] := by
  obtain ⟨functions, decls, entry, items, functionsOk, declsOk, opener, statements⟩ :=
    formed_iff.mp formed
  refine Answers.plain (.flatMap ?_)
  rw [items]
  simp only [List.forall_mem_append, List.forall_mem_map, List.forall_mem_singleton]
  refine ⟨⟨fun f member => Function.answers (functionsOk f member),
    fun d member => VarDecl.answers (declsOk d member)⟩, ?_⟩
  rw [Item.yield, if_pos opener]
  exact Block.entry_answers opener statements

/-! ### Sources -/

namespace Source

variable {text : String} {s : Source}

theorem covers (read : Source.read text = .ok s) : Covers s.tokens [s.program.node] := by
  obtain ⟨formed, us, q, split, written, -⟩ := spelled_of_read read
  have inside := Program.answers formed us written
  rw [← List.append_nil us] at inside
  rw [split]
  exact inside.hide rfl

/-- A token with one of the shown kinds is that of exactly one node, every other token that of one at
most, which is a block that it opens or an empty statement that it is. The nodes have no tokens but
those of the source, and those in one node stand in front of those in the next ones beside it. -/
theorem tokens_covered (read : Source.read text = .ok s) :
    (s.tokens.map Token.span).Nodup ∧
      (∀ n ∈ s.program.node.parts, ∀ t ∈ n.token, t ∈ s.tokens) ∧
      (∀ t ∈ s.tokens, t.kind.isShown = true → ∃ n, s.program.node.owners t = [n]) ∧
      (∀ t ∈ s.tokens, t.kind.isShown = false → s.program.node.owners t = [] ∨
        ∃ n, s.program.node.owners t = [n] ∧
          (n.label = .block ∧ t.kind = .leftBrace ∨ n.label = .empty ∧ t.kind = .semicolon)) ∧
      ∀ n ∈ s.program.node.parts, n.children.Pairwise fun m o =>
        ∀ t ∈ m.tokens, ∀ u ∈ o.tokens, s.tokens.idxOf t < s.tokens.idxOf u := by
  have spans := (tokens_eq_ok_iff.mp (read_eq_ok_iff.mp read).1).nodup_spans
  have covered := covers read
  have nested := covered.nested
  rw [partsOf_singleton] at nested
  refine ⟨spans, fun n inside t found => covered.mem_of_token inside found,
    fun t member shown => covered.exists_owner spans member shown,
    fun t member hidden => covered.owners_of_hidden spans member hidden, ?_⟩
  intro n inside
  refine (nested n inside).imp fun ahead t first u second => ?_
  exact idxOf_lt_idxOf (List.Nodup.of_map _ spans) (ahead t first u second)

theorem tokens_covered_branch :
    let opener : Token := ⟨.beginWord, "zapocni_igru", none, ⟨1, 1, 12⟩⟩
    let word : Token := ⟨.ifWord, "ako", none, ⟨1, 14, 16⟩⟩
    let name : Token := ⟨.ident, "x", none, ⟨1, 18, 18⟩⟩
    let brace : Token := ⟨.leftBrace, "\x7b", none, ⟨1, 20, 20⟩⟩
    let semicolon : Token := ⟨.semicolon, ";", none, ⟨1, 21, 21⟩⟩
    let statement : Stmt := .branch word (.ident name) ⟨brace, [.empty semicolon]⟩ none
    let p : Program := ⟨[.stmt (.block ⟨opener, [statement]⟩)]⟩
    ∃ ts, Source.read "zapocni_igru ako(x)\x7b;\x7dzavrsi_igru;" = .ok ⟨ts, p⟩ ∧ ts.length = 11 ∧
      (∀ t ∈ ts, t.kind.isShown = true → ∃ n, p.node.owners t = [n]) ∧
      ts.filter (·.kind.isShown) = [opener, word, name] ∧
      p.node.tokens = [opener, word, name, brace, semicolon] := by
  intro opener word name brace semicolon statement p
  have lexed : GameLang.tokens "zapocni_igru ako(x)\x7b;\x7dzavrsi_igru;" = .ok [opener, word,
      ⟨.leftParen, "(", none, ⟨1, 17, 17⟩⟩, name, ⟨.rightParen, ")", none, ⟨1, 19, 19⟩⟩, brace,
      semicolon, ⟨.rightBrace, "\x7d", none, ⟨1, 22, 22⟩⟩,
      ⟨.endWord, "zavrsi_igru", none, ⟨1, 23, 33⟩⟩, ⟨.semicolon, ";", none, ⟨1, 34, 34⟩⟩,
      Token.ending ⟨1, 35⟩] := by decide +kernel
  have read : Source.read "zapocni_igru ako(x)\x7b;\x7dzavrsi_igru;" = .ok ⟨_, p⟩ :=
    read_eq_ok_iff.mpr ⟨lexed, rfl⟩
  obtain ⟨-, -, shown, -⟩ := tokens_covered read
  exact ⟨_, read, rfl, shown, rfl, rfl⟩

end Source

end GameLang
