import GameLang.Proofs.Reading
import GameLang.Proofs.Viability.Expr
import GameLang.Tree.Outline

/-!
# How high trees are

The limit on open levels bounds the steps from the root of a program down to any of its nodes, but
for those along a chain of operators of one level, which opens no level however long it is
(`Goal.folded_le_of_read`). So there is no bound on the height itself (`Goal.height_unbounded`).
-/

namespace GameLang

/-! ### Heights -/

namespace Node

mutual

/-- The greatest cost of a way from a node down to one inside it, where each step has a cost. -/
def heightBy (cost : Node → Node → Nat) : Node → Nat
  | .mk label token children => heightOf cost (.mk label token children) children

def heightOf (cost : Node → Node → Nat) (above : Node) : List Node → Nat
  | [] => 0
  | n :: siblings => max (cost above n + n.heightBy cost) (heightOf cost above siblings)

end

/-- The number of steps on the longest way down. -/
def height (n : Node) : Nat := n.heightBy fun _ _ => 1

/-- The level of an operator with two operands. -/
def level? : Node → Option Precedence
  | .mk .binary (some t) _ => (BinOp.ofKind? t.kind).map BinOp.precedence
  | _ => none

/-- The steps along a chain, from an operator to an operand that is one of the same level, cost
nothing. -/
def foldedCost (n operand : Node) : Nat :=
  if n.level?.isSome ∧ n.level? = operand.level? then 0 else 1

/-- The height of a node where each chain of operators of one level counts as one. -/
def folded (n : Node) : Nat := n.heightBy foldedCost

variable {cost : Node → Node → Nat} {n c : Node} {bound : Nat}

theorem heightOf_le_iff {ns : List Node} :
    heightOf cost n ns ≤ bound ↔ ∀ c ∈ ns, cost n c + c.heightBy cost ≤ bound := by
  induction ns with
  | nil => simp [heightOf]
  | cons c ns ih => rw [heightOf, Nat.max_le, ih, List.forall_mem_cons]

theorem heightBy_le_iff :
    n.heightBy cost ≤ bound ↔ ∀ c ∈ n.children, cost n c + c.heightBy cost ≤ bound := by
  cases n with
  | mk label token children => rw [heightBy, heightOf_le_iff, Node.children]

theorem height_child_lt (child : c ∈ n.children) : c.height < n.height := by
  have step : 1 + c.height ≤ n.height := heightBy_le_iff.mp (Nat.le_refl n.height) c child
  omega

theorem foldedCost_le_one (n c : Node) : foldedCost n c ≤ 1 := by
  unfold foldedCost
  split <;> omega

theorem folded_le (lower : ∀ c ∈ n.children, c.folded + 1 ≤ bound) : n.folded ≤ bound := by
  refine heightBy_le_iff.mpr fun c child => ?_
  have cost := foldedCost_le_one n c
  have inside : c.heightBy foldedCost + 1 ≤ bound := lower c child
  omega

end Node

/-! ### Bounds for expressions -/

namespace Expr

theorem level?_node {e : Expr} (ordered : e.Ordered) :
    e.node.level? = e.operator?.map BinOp.precedence := by
  cases e with
  | binary l op t r => rw [node, Node.level?, ordered.1, operator?]
  | _ => rfl

/-- An operand that goes on with the chain costs no step, and any other binds tighter. -/
theorem foldedCost_operand {l r operand : Expr} {op : BinOp} {t : Token}
    (ordered : (binary l op t r).Ordered) (orderedOperand : operand.Ordered)
    (binds : operand.BindsFrom op.precedence.rank) :
    Node.foldedCost (binary l op t r).node operand.node = 0 ∨
      operand.BindsFrom (op.precedence.rank + 1) := by
  by_cases same : operand.operator?.map BinOp.precedence = some op.precedence
  · left
    have above := level?_node ordered
    have below := level?_node orderedOperand
    rw [same] at below
    unfold Node.foldedCost
    rw [above, below]
    exact if_pos ⟨rfl, rfl⟩
  · right
    intro other found
    have different : op.precedence.rank ≠ other.precedence.rank := by
      intro eq
      apply same
      rw [Option.mem_def.mp found, Option.map_some, Precedence.eq_of_rank_eq eq]
    have le := binds other found
    omega

/-- Seven steps for each level that is open, and six for the operators around all levels: one for each
level of operators, from the loosest to the tightest. Where the looser ones are ruled out there are
fewer. -/
def Shallow (e : Expr) : Prop :=
  ∀ level ≤ 6, e.BindsFrom level → e.node.folded + level ≤ 7 * e.depth + 6

theorem Shallow.folded_le {e : Expr} (shallow : e.Shallow) : e.node.folded ≤ 7 * e.depth + 6 :=
  shallow 0 (by omega) e.bindsFrom_zero

theorem Shallow.of_folded_le {e : Expr} (bounded : e.node.folded ≤ 7 * e.depth) : e.Shallow := by
  intro level small _
  omega

theorem folded_le_of_opened (e : Expr) (es : List Expr) (children : e.node.children = nodes es)
    (levels : e.depth = depthOf es) (shallow : ∀ x ∈ es, x.Shallow) :
    e.node.folded ≤ 7 * e.depth := by
  refine Node.folded_le ?_
  rw [children, levels, nodes_eq_map, List.forall_mem_map]
  intro x member
  have deeper : x.depth < depthOf es := depthOf_le_iff.mp (Nat.le_refl _) x member
  have inside := (shallow x member).folded_le
  omega

theorem shallow_binary {l r : Expr} {op : BinOp} {t : Token} (ordered : (binary l op t r).Ordered)
    (orderedLeft : l.Ordered) (left : l.Shallow) (right : r.Shallow) :
    (binary l op t r).Shallow := by
  intro level _ binds
  have rank := op.precedence.rank_lt
  have level_le : level ≤ op.precedence.rank := binds op rfl
  have step (operand : Expr) := Node.foldedCost_le_one (binary l op t r).node operand.node
  -- The left operand goes on with the chain, or there is a step to it and one level less to come.
  have leftSteps : Node.foldedCost (binary l op t r).node l.node + l.node.folded + level ≤
      7 * l.depth + 6 := by
    rcases foldedCost_operand ordered orderedLeft ordered.2.1 with free | tighter
    · have chain := left _ (by omega) ordered.2.1
      omega
    · have other := left _ (by omega) tighter
      have one := step l
      omega
  have rightSteps : Node.foldedCost (binary l op t r).node r.node + r.node.folded + level ≤
      7 * r.depth + 6 := by
    have other := right _ (by omega) ordered.2.2
    have one := step r
    omega
  have whole : (binary l op t r).node.folded ≤ 7 * max l.depth r.depth + 6 - level := by
    unfold Node.folded at leftSteps rightSteps
    apply Node.heightBy_le_iff.mpr
    exact List.forall_mem_cons.mpr ⟨by omega, List.forall_mem_singleton.mpr (by omega)⟩
  rw [depth]
  omega

theorem shallow_of_formed {e : Expr} (formed : e.Formed) : e.Shallow := by
  induction e using Expr.induction with
  | literal t v => exact .of_folded_le (folded_le_of_opened _ [] rfl rfl (by simp))
  | ident t => exact .of_folded_le (folded_le_of_opened _ [] rfl rfl (by simp))
  | index t es ih =>
    obtain ⟨-, -, formed⟩ := formed_index.mp formed
    exact .of_folded_le (folded_le_of_opened _ es rfl (by rw [depth])
      fun x member => ih x member (formed x member))
  | call t es ih =>
    obtain ⟨-, formed⟩ := formed_call.mp formed
    exact .of_folded_le (folded_le_of_opened _ es rfl (by rw [depth])
      fun x member => ih x member (formed x member))
  | group e ih =>
    have inside := ih (formed_group.mp formed)
    exact .of_folded_le (folded_le_of_opened _ [e] rfl (by simp [depth, depthOf])
      (List.forall_mem_singleton.mpr inside))
  | unary op t e ih =>
    have inside := ih (formed_unary.mp formed).2
    exact .of_folded_le (folded_le_of_opened _ [e] rfl (by simp [depth, depthOf])
      (List.forall_mem_singleton.mpr inside))
  | binary l op t r ihl ihr =>
    obtain ⟨ordered, formedLeft, formedRight⟩ := formed_binary.mp formed
    have orderedLeft : l.Ordered := formedLeft.2 l List.mem_cons_self
    exact shallow_binary ordered orderedLeft (ihl formedLeft) (ihr formedRight)

theorem folded_le {e : Expr} (formed : e.Formed) : e.node.folded ≤ 7 * e.depth + 6 :=
  (shallow_of_formed formed).folded_le

theorem folded_le_of_none {e : Expr} (formed : e.Formed) (alone : e.operator? = none) :
    e.node.folded ≤ 7 * e.depth := by
  have all := shallow_of_formed formed 6 (by omega) (bindsFrom_of_none 6 alone)
  omega

theorem optionNodes_folded_le {e : Option Expr} {bound : Nat} (formed : ∀ x ∈ e, x.Formed)
    (opened : ∀ x ∈ e, 7 * (x.depth + 1) ≤ bound) : ∀ c ∈ optionNodes e, c.folded + 1 ≤ bound := by
  refine List.forall_mem_map.mpr fun x member => ?_
  have member : x ∈ e := Option.mem_toList.mp member
  have inside := folded_le (formed x member)
  have room := opened x member
  omega

end Expr

/-! ### Bounds for statements -/

theorem TypeRef.folded_le {t : TypeRef} {bound : Nat} (formed : ∀ size ∈ t.dims, ∀ e ∈ size, e.Formed)
    (opened : ∀ size ∈ t.dims, ∀ e ∈ size, 7 * (e.depth + 1) ≤ bound) :
    t.node.folded ≤ bound + 1 := by
  refine Node.folded_le (List.forall_mem_map.mpr fun size member => ?_)
  have inside : (Node.mk .dim none (Expr.optionNodes size)).folded ≤ bound :=
    Node.folded_le (Expr.optionNodes_folded_le (formed size member) (opened size member))
  omega

theorem TypeRef.folded_scalar_le {t : TypeRef} (scalar : t.Scalar) : t.node.folded ≤ 0 := by
  refine Node.folded_le ?_
  rw [node, scalar.2]
  exact List.forall_mem_nil _

theorem VarDecl.folded_le {d : VarDecl} (formed : d.Formed) : d.node.folded ≤ 7 * d.need + 2 := by
  obtain ⟨-, -, -, formed⟩ := formed_iff.mp formed
  obtain ⟨formedDims, formedInit⟩ := forall_mem_exprs.mp formed
  obtain ⟨dims, init⟩ := need_le_iff.mp (Nat.le_refl d.need)
  have type : d.type.node.folded ≤ 7 * d.need + 1 := by
    refine TypeRef.folded_le formedDims fun size member e inside => ?_
    have deeper := dims size member e inside
    omega
  have value : ∀ c ∈ Expr.optionNodes d.init, c.folded + 1 ≤ 7 * d.need + 2 := by
    refine Expr.optionNodes_folded_le formedInit fun e inside => ?_
    have deeper := init e inside
    omega
  exact Node.folded_le (List.forall_mem_cons.mpr ⟨by omega, value⟩)

namespace Stmt

theorem folded_nodes_le {ss : List Stmt} (bounded : ∀ s ∈ ss, s.node.folded + 5 ≤ 7 * s.need) :
    ∀ c ∈ nodes ss, c.folded + 1 ≤ 7 * needOf ss := by
  rw [nodes_eq_map, List.forall_mem_map]
  intro s member
  have deeper : s.need ≤ needOf ss := needOf_le_iff.mp (Nat.le_refl _) s member
  have inside := bounded s member
  omega

theorem folded_command_le {e : Expr} (formed : e.FormedCommand) :
    e.node.folded ≤ 7 * e.commandNeed + 1 := by
  cases e with
  | call callee args =>
    have arguments (formedArgs : ∀ x ∈ args, x.Formed) :
        (Expr.call callee args).node.folded ≤ 7 * Expr.depthOf args :=
      Expr.folded_le_of_opened (.call callee args) args rfl (by rw [Expr.depth])
        fun x member => Expr.shallow_of_formed (formedArgs x member)
    rw [Expr.commandNeed]
    rcases Expr.formedCommand_call.mp formed with
      ⟨named, formedArgs⟩ | ⟨reads, name, rfl, named⟩ | ⟨word, arg, rfl, formedArg⟩
    · have inside := arguments formedArgs
      rw [if_neg (by rw [named]; decide)]
      omega
    · -- The name of a variable that is read in opens no level.
      have leaf : (Expr.ident name).node.folded ≤ 7 * 0 :=
        Expr.folded_le_of_none (Expr.formed_ident.mpr named) rfl
      have alone : (Expr.ident name).node.folded + 1 ≤ 1 := by omega
      have inside : (Expr.call callee [.ident name]).node.folded ≤ 1 :=
        Node.folded_le (List.forall_mem_singleton.mpr alone)
      omega
    · have inside := arguments (List.forall_mem_singleton.mpr formedArg)
      rw [if_neg (Kind.ne_readWord word)]
      omega
  | _ => exact formed.1.elim

theorem need_pos (s : Stmt) : 0 < s.need := by
  cases s with
  | branch t c b other => cases other <;> simp [need]
  | _ => simp [need]

theorem folded_add_le_of_children {s : Stmt}
    (lower : ∀ c ∈ s.node.children, c.folded + 6 ≤ 7 * s.need) :
    s.node.folded + 5 ≤ 7 * s.need := by
  have positive := s.need_pos
  have inside : s.node.folded ≤ 7 * s.need - 5 := by
    refine Node.folded_le fun c child => ?_
    have below := lower c child
    omega
  omega

end Stmt

theorem Block.folded_le {b : Block} (bounded : ∀ s ∈ b.statements, s.node.folded + 5 ≤ 7 * s.need) :
    b.node.folded ≤ 7 * b.need := by
  cases b with
  | mk opener statements =>
    rw [need]
    exact Node.folded_le (Stmt.folded_nodes_le bounded)

namespace Stmt

/-- Each level that a statement opens leaves room for the steps of one around it. -/
theorem folded_add_le {s : Stmt} (formed : s.Formed) : s.node.folded + 5 ≤ 7 * s.need := by
  induction s using Stmt.induction with
  | varDecl d =>
    have inside := VarDecl.folded_le (formed_varDecl.mp formed)
    rw [node, need]
    omega
  | assign target value =>
    obtain ⟨isTarget, formedTarget, formedValue⟩ := formed_assign.mp formed
    have alone : target.operator? = none := by
      cases target <;> first | rfl | exact isTarget.elim
    have left := Expr.folded_le_of_none formedTarget alone
    have right := Expr.folded_le formedValue
    apply folded_add_le_of_children
    rw [need]
    exact List.forall_mem_cons.mpr ⟨by omega, List.forall_mem_singleton.mpr (by omega)⟩
  | branch t c b other ihb iho =>
    obtain ⟨-, formedCondition, formedBlock, formedOther⟩ := formed_branch.mp formed
    have condition := Expr.folded_le formedCondition
    have first := Block.folded_le fun s member => ihb s member (formedBlock.2 s member)
    cases other with
    | none =>
      apply folded_add_le_of_children
      rw [need]
      exact List.forall_mem_cons.mpr ⟨by omega, List.forall_mem_singleton.mpr (by omega)⟩
    | some other =>
      have second := Block.folded_le fun s member =>
        iho other rfl s member ((formedOther other rfl).2 s member)
      apply folded_add_le_of_children
      rw [need]
      exact List.forall_mem_cons.mpr
        ⟨by omega, List.forall_mem_cons.mpr ⟨by omega, List.forall_mem_singleton.mpr (by omega)⟩⟩
  | loop t c s ih =>
    obtain ⟨-, formedCondition, formedBody⟩ := formed_loop.mp formed
    have condition := Expr.folded_le formedCondition
    have body := ih formedBody
    apply folded_add_le_of_children
    rw [need]
    exact List.forall_mem_cons.mpr ⟨by omega, List.forall_mem_singleton.mpr (by omega)⟩
  | result t e =>
    have value := Expr.folded_le (formed_result.mp formed).2
    apply folded_add_le_of_children
    rw [need]
    exact List.forall_mem_singleton.mpr (by omega)
  | block b ih =>
    have formed := formed_block.mp formed
    have inside := Block.folded_le fun s member => ih s member (formed.2 s member)
    rw [node, need]
    omega
  | expression e =>
    have command := folded_command_le (formed_expression.mp formed)
    apply folded_add_le_of_children
    rw [need]
    exact List.forall_mem_singleton.mpr (by omega)
  | empty t => exact folded_add_le_of_children (List.forall_mem_nil _)

end Stmt

/-! ### Bounds for programs -/

theorem Function.folded_le {f : Function} (formed : f.Formed) :
    f.node.folded ≤ 7 * Stmt.needOf f.body + 2 := by
  obtain ⟨⟨-, scalar, -, params⟩, formedBody⟩ := formed
  have result := TypeRef.folded_scalar_le scalar
  have param : ∀ c ∈ f.params.map Param.node, c.folded + 1 ≤ 7 * Stmt.needOf f.body + 2 := by
    refine List.forall_mem_map.mpr fun p member => ?_
    have type := TypeRef.folded_scalar_le (params p member).2.1
    have inside : p.node.folded ≤ 1 := Node.folded_le (List.forall_mem_singleton.mpr (by omega))
    omega
  have body : ∀ c ∈ Stmt.nodes f.body, c.folded + 1 ≤ 7 * Stmt.needOf f.body + 2 := by
    intro c member
    have inside := Stmt.folded_nodes_le (fun s member => Stmt.folded_add_le (formedBody s member))
      c member
    omega
  exact Node.folded_le (List.forall_mem_append.mpr
    ⟨List.forall_mem_cons.mpr ⟨by omega, param⟩, body⟩)

namespace Program

theorem folded_item_le {p : Program} (formed : p.Formed) :
    ∀ item ∈ p.items, item.node.folded ≤ 7 * item.need + 2 := by
  obtain ⟨functions, decls, entry, items, functionsOk, declsOk, -, statementsOk⟩ :=
    formed_iff.mp formed
  rw [items]
  refine List.forall_mem_append.mpr ⟨List.forall_mem_append.mpr ⟨?_, ?_⟩, ?_⟩
  · exact List.forall_mem_map.mpr fun f member => Function.folded_le (functionsOk f member)
  · exact List.forall_mem_map.mpr fun d member => VarDecl.folded_le (declsOk d member)
  · refine List.forall_mem_singleton.mpr ?_
    have inside : entry.node.folded ≤ 7 * entry.need :=
      Block.folded_le fun s member => Stmt.folded_add_le (statementsOk s member)
    change entry.node.folded ≤ 7 * entry.need + 2
    omega

theorem folded_le {p : Program} (formed : p.Formed) : p.node.folded ≤ 7 * p.need + 3 := by
  refine Node.folded_le (List.forall_mem_map.mpr fun item member => ?_)
  have inside := folded_item_le formed item member
  have less : item.need ≤ p.need := need_le_iff.mp (Nat.le_refl _) item member
  omega

end Program

namespace Goal

variable {ts rest : List Token} {p : Program}

theorem folded_le_of_ok {levels : Nat} (read : program.within levels ts = .ok (.program p) rest) :
    p.node.folded ≤ 7 * levels + 3 := by
  obtain ⟨-, formed, -⟩ := within_ok read
  have enough : p.need ≤ levels := need_le_of_ok read
  have bounded := Program.folded_le formed
  omega

/-- However long a program is, the limit on open levels bounds its height where each chain of
operators of one level counts as one. -/
theorem folded_le_of_read (read : program.read ts = (.ok (.program p), rest)) :
    p.node.folded ≤ 7 * nestingLimit + 3 :=
  folded_le_of_ok (Reader.run_ok_iff.mp read)

theorem folded_le_of_read_chain :
    let word (k : Kind) : Token := ⟨k, k.spelling, none, ⟨1, 1, 1⟩⟩
    let x : Token := ⟨.ident, "x", none, ⟨1, 1, 1⟩⟩
    let sum : Expr := .binary (.binary (.ident x) .add (word .plus) (.ident x)) .sub (word .minus)
      (.ident x)
    let ts : List Token := [word .beginWord, word .returnWord, x, word .plus, x, word .minus, x,
      word .semicolon, word .endWord, word .semicolon]
    let p : Program := ⟨[.stmt (.block ⟨word .beginWord, [.result (word .returnWord) sum]⟩)]⟩
    program.read ts = (.ok (.program p), []) ∧ p.node.folded = 4 ∧ p.node.height = 5 ∧
      p.node.folded ≤ 7 * nestingLimit + 3 := by
  intro word x sum ts p
  have read : program.read ts = (.ok (.program p), []) := rfl
  exact ⟨read, by decide, by decide, folded_le_of_read read⟩

end Goal

/-! ### Chains -/

/-- Each link of a chain is a step. -/
theorem Expr.height_foldl_join (first : Expr) (links : List (BinOp × Token × Expr)) :
    first.node.height + links.length ≤ (links.foldl join first).node.height := by
  induction links generalizing first with
  | nil => exact Nat.le_refl _
  | cons link links ih =>
    obtain ⟨op, t, right⟩ := link
    have step : first.node.height < (binary first op t right).node.height :=
      Node.height_child_lt List.mem_cons_self
    have others := ih (binary first op t right)
    rw [List.foldl_cons, List.length_cons, join]
    omega

/-- A name with a number of sums after it: `x + x + … + x`. -/
def Expr.someSums (length : Nat) : Expr :=
  (List.replicate length (.add, .ofKind .plus, someName)).foldl join someName

theorem Expr.formed_someSums (length : Nat) : (someSums length).Formed := by
  refine (formed_foldl_join formed_someName (bindsFrom_of_none Precedence.sum.rank rfl) ?_).1
  intro link member
  rw [List.eq_of_mem_replicate member]
  exact ⟨rfl, rfl, formed_someName, bindsFrom_of_none _ rfl⟩

theorem Expr.depth_someSums (length : Nat) : (someSums length).depth < 1 := by
  refine depth_foldl_join.mpr ⟨Nat.one_pos, ?_⟩
  intro link member
  rw [List.eq_of_mem_replicate member]
  exact Nat.one_pos

theorem Expr.le_height_someSums (length : Nat) : length ≤ (someSums length).node.height := by
  have links := height_foldl_join someName
    (List.replicate length (.add, .ofKind .plus, someName))
  rw [List.length_replicate] at links
  exact Nat.le_of_add_left_le links

/-- A program of one statement, which gives back a value. -/
def Program.ofValue (value : Expr) : Program :=
  ⟨[.stmt (.block ⟨.ofKind .beginWord, [.result (.ofKind .returnWord) value]⟩)]⟩

namespace Program

variable {value : Expr}

theorem formed_ofValue (formed : value.Formed) : (ofValue value).Formed := by
  have statement : (Stmt.result (.ofKind .returnWord) value).Formed :=
    Stmt.formed_result.mpr ⟨rfl, formed⟩
  exact formed_iff.mpr
    ⟨[], [], _, rfl, by simp, by simp, rfl, List.forall_mem_singleton.mpr statement⟩

theorem need_ofValue (value : Expr) : (ofValue value).need = value.depth + 2 := by
  simp [need, ofValue, Item.need, Block.need, Stmt.needOf, Stmt.need]

theorem height_ofValue (value : Expr) : value.node.height < (ofValue value).node.height := by
  let statement : Stmt := .result (.ofKind .returnWord) value
  let entry : Block := ⟨.ofKind .beginWord, [statement]⟩
  have inStatement : value.node.height < statement.node.height :=
    Node.height_child_lt List.mem_cons_self
  have inBlock : statement.node.height < entry.node.height :=
    Node.height_child_lt List.mem_cons_self
  have inProgram : entry.node.height < (ofValue value).node.height :=
    Node.height_child_lt List.mem_cons_self
  omega

end Program

namespace Goal

/-- A chain needs no more levels than one operator, so that programs of any height are read. -/
theorem height_unbounded : ¬ ∃ bound, ∀ ts rest p,
    program.read ts = (.ok (.program p), rest) → p.node.height ≤ bound := by
  rintro ⟨bound, bounded⟩
  let p := Program.ofValue (.someSums bound)
  have formed : (Tree.program p).Formed := Program.formed_ofValue (Expr.formed_someSums bound)
  have enough : p.need ≤ nestingLimit := by
    have flat := Expr.depth_someSums bound
    rw [Program.need_ofValue, nestingLimit]
    omega
  obtain ⟨us, written⟩ := exists_written p.yield
  have accepts : Accepts (p.need ≤ nestingLimit) (program.within nestingLimit) us [] (.program p) :=
    within_accepts nestingLimit formed written rfl
  have low := bounded (us ++ []) [] p (Reader.run_ok_iff.mpr (accepts.read enough))
  have high := Expr.le_height_someSums bound
  have higher : (Expr.someSums bound).node.height < p.node.height := Program.height_ofValue _
  omega

end Goal

end GameLang
