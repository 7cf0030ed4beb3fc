import GameLang.Tree.Basic
import Mathlib.Data.List.Forall2

/-!
# The grammar of expressions

`Expr.yield` writes an expression out: the tokens that the tree keeps, and in between the kinds of
those that it drops. `Expr.Formed` says which trees the grammar has; precedence and associativity
are `Expr.Ordered`, one node at a time. `Expr.depth` counts the levels that are open at once.
-/

namespace GameLang

/-! ### Marks -/

/-- A place in a tree that is written out: the very token kept there, or any token of a kind. -/
inductive Mark where
  | token (t : Token)
  | kind (k : Kind)
  deriving DecidableEq

/-- A token can stand at a place. -/
def Mark.Fits : Mark → Token → Prop
  | token kept, t => t = kept
  | kind k, t => t.kind = k

instance (m : Mark) (t : Token) : Decidable (m.Fits t) := by
  cases m <;> unfold Mark.Fits <;> infer_instance

/-- Tokens stand at the places of some marks, one for one and in order. -/
def Written (marks : List Mark) (ts : List Token) : Prop := List.Forall₂ Mark.Fits marks ts

theorem written_nil : Written [] [] := List.Forall₂.nil

theorem written_nil_iff {ts : List Token} : Written [] ts ↔ ts = [] := List.forall₂_nil_left_iff

theorem written_token_iff {t : Token} {marks : List Mark} {ts : List Token} :
    Written (.token t :: marks) ts ↔ ∃ back, ts = t :: back ∧ Written marks back := by
  unfold Written
  rw [List.forall₂_cons_left_iff]
  constructor
  · rintro ⟨u, back, rfl, written, rfl⟩
    exact ⟨back, rfl, written⟩
  · rintro ⟨back, rfl, written⟩
    exact ⟨t, back, rfl, written, rfl⟩

theorem written_kind_iff {k : Kind} {marks : List Mark} {ts : List Token} :
    Written (.kind k :: marks) ts ↔ ∃ t back, ts = t :: back ∧ t.kind = k ∧ Written marks back := by
  unfold Written
  rw [List.forall₂_cons_left_iff]
  constructor
  · rintro ⟨t, back, same, written, rfl⟩
    exact ⟨t, back, rfl, same, written⟩
  · rintro ⟨t, back, rfl, same, written⟩
    exact ⟨t, back, same, written, rfl⟩

theorem Written.append {front back : List Mark} {us vs : List Token} (first : Written front us)
    (second : Written back vs) : Written (front ++ back) (us ++ vs) :=
  List.rel_append first second

theorem written_append_iff {front back : List Mark} {ts : List Token} :
    Written (front ++ back) ts ↔ ∃ us vs, ts = us ++ vs ∧ Written front us ∧ Written back vs := by
  constructor
  · intro written
    induction front generalizing ts with
    | nil => exact ⟨[], ts, rfl, written_nil, written⟩
    | cons mark front ih =>
      obtain ⟨t, rest, fits, tail, rfl⟩ := List.forall₂_cons_left_iff.mp written
      obtain ⟨us, vs, rfl, first, second⟩ := ih tail
      exact ⟨t :: us, vs, rfl, .cons fits first, second⟩
  · rintro ⟨us, vs, rfl, first, second⟩
    exact first.append second

theorem written_singleton_iff {t : Token} {ts : List Token} : Written [.token t] ts ↔ ts = [t] := by
  rw [written_token_iff]
  constructor
  · rintro ⟨back, rfl, nothing⟩
    rw [written_nil_iff.mp nothing]
  · rintro rfl
    exact ⟨[], rfl, written_nil⟩

theorem written_append_kind_iff {marks : List Mark} {k : Kind} {ts : List Token} :
    Written (marks ++ [.kind k]) ts ↔
      ∃ us closer, ts = us ++ [closer] ∧ Written marks us ∧ closer.kind = k := by
  rw [written_append_iff]
  constructor
  · rintro ⟨us, closers, rfl, written, closed⟩
    obtain ⟨closer, back, rfl, same, nothing⟩ := written_kind_iff.mp closed
    rw [written_nil_iff.mp nothing]
    exact ⟨us, closer, rfl, written, same⟩
  · rintro ⟨us, closer, rfl, written, same⟩
    exact ⟨us, [closer], rfl, written, .cons same .nil⟩

theorem Precedence.rank_lt (p : Precedence) : p.rank < 6 := by cases p <;> decide

theorem Precedence.eq_of_rank_eq {p q : Precedence} (same : p.rank = q.rank) : p = q := by
  cases p <;> cases q <;> first | rfl | cases same

namespace Expr

/-! ### The expressions inside an expression -/

/-- What holds of an expression if it holds of its parts holds of every expression. -/
theorem induction {P : Expr → Prop} (literal : ∀ t v, P (.literal t v)) (ident : ∀ t, P (.ident t))
    (index : ∀ t es, (∀ e ∈ es, P e) → P (.index t es)) (group : ∀ e, P e → P (.group e))
    (call : ∀ t es, (∀ e ∈ es, P e) → P (.call t es))
    (unary : ∀ op t e, P e → P (.unary op t e))
    (binary : ∀ l op t r, P l → P r → P (.binary l op t r)) (e : Expr) : P e :=
  @Expr.rec P (fun es => ∀ e ∈ es, P e) literal ident index group call unary binary (by simp)
    (fun _ _ head tail => List.forall_mem_cons.mpr ⟨head, tail⟩) e

mutual

/-- The expressions inside an expression, itself left out. -/
def inner : Expr → List Expr
  | .literal _ _ => []
  | .ident _ => []
  | .index _ es => partsOf es
  | .group e => e :: e.inner
  | .call _ es => partsOf es
  | .unary _ _ e => e :: e.inner
  | .binary l _ _ r => l :: l.inner ++ r :: r.inner

def partsOf : List Expr → List Expr
  | [] => []
  | e :: es => e :: e.inner ++ partsOf es

end

/-- An expression and the expressions inside it. -/
def parts (e : Expr) : List Expr := e :: e.inner

theorem mem_partsOf {x : Expr} {es : List Expr} : x ∈ partsOf es ↔ ∃ e ∈ es, x ∈ e.parts := by
  induction es with
  | nil => simp [partsOf]
  | cons e es ih =>
    rw [partsOf, List.mem_append, ih, List.exists_mem_cons_iff]
    rfl

theorem forall_mem_partsOf {P : Expr → Prop} {es : List Expr} :
    (∀ x ∈ partsOf es, P x) ↔ ∀ e ∈ es, ∀ x ∈ e.parts, P x := by
  simp only [mem_partsOf]
  exact ⟨fun h e member x inside => h x ⟨e, member, inside⟩,
    fun h x ⟨e, member, inside⟩ => h e member x inside⟩

/-! ### What the grammar asks for -/

/-- The tokens of a node have the kinds that the grammar asks for. A literal keeps the value of its
token. -/
def Grammatical : Expr → Prop
  | .literal t v => t.kind.isLiteral = true ∧ t.literal = some v
  | .ident t => t.kind = .ident
  | .index t es => t.kind = .ident ∧ es ≠ []
  | .call t _ => t.kind = .ident
  | .group _ | .unary _ _ _ | .binary _ _ _ _ => True

/-- The operator with two operands that an expression consists of, if it does. -/
def operator? : Expr → Option BinOp
  | .binary _ op _ _ => some op
  | _ => none

/-- If an expression consists of an operator, the operator is none of the levels below one. -/
def BindsFrom (level : Nat) (e : Expr) : Prop := ∀ op ∈ e.operator?, level ≤ op.precedence.rank

theorem bindsFrom_zero (e : Expr) : e.BindsFrom 0 := fun _ _ => Nat.zero_le _

theorem BindsFrom.mono {e : Expr} {level lower : Nat} (binds : e.BindsFrom level)
    (le : lower ≤ level) : e.BindsFrom lower := fun op member => Nat.le_trans le (binds op member)

theorem bindsFrom_of_none {e : Expr} (level : Nat) (alone : e.operator? = none) :
    e.BindsFrom level := by
  intro op member
  rw [alone] at member
  cases member

/-- No operator is tighter than the levels. -/
theorem operator?_eq_none_of_bindsFrom {e : Expr} (binds : e.BindsFrom 6) : e.operator? = none := by
  cases found : e.operator? with
  | none => rfl
  | some op => exact absurd (binds op found) (Nat.not_le.mpr op.precedence.rank_lt)

/-- A node has the operator of its token, and its operands bind as tightly as they must: the right
one tighter than the operator, the left one no looser, and that of a prefix operator is no chain. -/
def Ordered : Expr → Prop
  | .unary op t e =>
    (t.kind = .minus ∧ op = .neg ∨ t.kind = .bang ∧ op = .not) ∧ e.operator? = none
  | .binary l op t r =>
    BinOp.ofKind? t.kind = some op ∧ l.BindsFrom op.precedence.rank ∧
      r.BindsFrom (op.precedence.rank + 1)
  | _ => True

/-- Every node of an expression has tokens of the right kinds. -/
def Shaped (e : Expr) : Prop := ∀ x ∈ e.parts, x.Grammatical

/-- An expression of the grammar, read by precedence and from left to right. -/
def Formed (e : Expr) : Prop := e.Shaped ∧ ∀ x ∈ e.parts, x.Ordered

theorem formed_literal {t : Token} {v : Literal} :
    (literal t v).Formed ↔ t.kind.isLiteral = true ∧ t.literal = some v := by
  simp [Formed, Shaped, parts, inner, Grammatical, Ordered]

theorem formed_ident {t : Token} : (ident t).Formed ↔ t.kind = .ident := by
  simp [Formed, Shaped, parts, inner, Grammatical, Ordered]

theorem formed_index {t : Token} {es : List Expr} :
    (index t es).Formed ↔ t.kind = .ident ∧ es ≠ [] ∧ ∀ e ∈ es, e.Formed := by
  simp [Formed, Shaped, parts, inner, Grammatical, Ordered, forall_mem_partsOf, forall_and,
    and_assoc]

theorem formed_group {e : Expr} : (group e).Formed ↔ e.Formed := by
  simp [Formed, Shaped, parts, inner, Grammatical, Ordered]

theorem formed_call {t : Token} {es : List Expr} :
    (call t es).Formed ↔ t.kind = .ident ∧ ∀ e ∈ es, e.Formed := by
  simp [Formed, Shaped, parts, inner, Grammatical, Ordered, forall_mem_partsOf, forall_and,
    and_assoc]

theorem formed_unary {op : UnOp} {t : Token} {e : Expr} :
    (unary op t e).Formed ↔ (unary op t e).Ordered ∧ e.Formed := by
  simp only [Formed, Shaped, parts, inner, Grammatical, List.forall_mem_cons]
  tauto

theorem formed_binary {l r : Expr} {op : BinOp} {t : Token} :
    (binary l op t r).Formed ↔ (binary l op t r).Ordered ∧ l.Formed ∧ r.Formed := by
  simp only [Formed, Shaped, parts, inner, Grammatical, List.forall_mem_cons, List.forall_mem_append,
    List.cons_append]
  tauto

/-! ### Writing an expression out -/

mutual

/-- An expression written out. -/
def yield : Expr → List Mark
  | .literal t _ => [.token t]
  | .ident t => [.token t]
  | .index t es => .token t :: indexYield es
  | .group e => .kind .leftParen :: (e.yield ++ [.kind .rightParen])
  | .call t es => .token t :: .kind .leftParen :: (argYield es ++ [.kind .rightParen])
  | .unary _ t e => .token t :: e.yield
  | .binary l _ t r => l.yield ++ .token t :: r.yield

def indexYield : List Expr → List Mark
  | [] => []
  | e :: es => .kind .leftBracket :: (e.yield ++ .kind .rightBracket :: indexYield es)

def argYield : List Expr → List Mark
  | [] => []
  | e :: es => e.yield ++ nextArgYield es

/-- The arguments after the first written out, each after a comma. -/
def nextArgYield : List Expr → List Mark
  | [] => []
  | e :: es => .kind .comma :: (e.yield ++ nextArgYield es)

end

theorem indexYield_eq_flatMap (es : List Expr) :
    indexYield es = es.flatMap fun e => .kind .leftBracket :: (e.yield ++ [.kind .rightBracket]) := by
  induction es with
  | nil => rfl
  | cons e es ih => simp [indexYield, ih]

theorem nextArgYield_eq_flatMap (es : List Expr) :
    nextArgYield es = es.flatMap fun e => .kind .comma :: e.yield := by
  induction es with
  | nil => rfl
  | cons e es ih => simp [nextArgYield, ih]

/-! ### Levels -/

mutual

/-- The most levels that are open at once inside an expression, its own left out: one for the
content of a group, for each index, each argument and the operand of a prefix operator. -/
def depth : Expr → Nat
  | .literal _ _ => 0
  | .ident _ => 0
  | .index _ es => depthOf es
  | .group e => e.depth + 1
  | .call _ es => depthOf es
  | .unary _ _ e => e.depth + 1
  | .binary l _ _ r => max l.depth r.depth

/-- The most levels that are open at once in some expressions, each of which opens one. -/
def depthOf : List Expr → Nat
  | [] => 0
  | e :: es => max (e.depth + 1) (depthOf es)

end

theorem depthOf_le_iff {es : List Expr} {levels : Nat} :
    depthOf es ≤ levels ↔ ∀ e ∈ es, e.depth < levels := by
  induction es with
  | nil => simp [depthOf]
  | cons e es ih => rw [depthOf, Nat.max_le, ih, List.forall_mem_cons, Nat.succ_le_iff]

/-! ### Chains of one level -/

/-- An operator with its right operand, joined to what is left of it. -/
def join (left : Expr) : BinOp × Token × Expr → Expr
  | (op, t, right) => .binary left op t right

def linkYield : BinOp × Token × Expr → List Mark
  | (_, t, right) => .token t :: right.yield

/-- An operator of a level, that of its token, with a right operand that binds tighter. -/
def GoodLink (level : Precedence) : BinOp × Token × Expr → Prop
  | (op, t, right) =>
    op.precedence = level ∧ BinOp.ofKind? t.kind = some op ∧ right.Formed ∧
      right.BindsFrom (level.rank + 1)

theorem yield_foldl_join (first : Expr) (links : List (BinOp × Token × Expr)) :
    (links.foldl join first).yield = first.yield ++ links.flatMap linkYield := by
  induction links generalizing first with
  | nil => simp
  | cons link links ih =>
    obtain ⟨op, t, right⟩ := link
    rw [List.foldl_cons, ih]
    simp [join, yield, linkYield]

/-- Operators of one level associate to the left. -/
theorem formed_foldl_join {level : Precedence} {links : List (BinOp × Token × Expr)} {first : Expr}
    (formed : first.Formed) (binds : first.BindsFrom level.rank)
    (good : ∀ link ∈ links, GoodLink level link) :
    (links.foldl join first).Formed ∧ (links.foldl join first).BindsFrom level.rank := by
  induction links generalizing first with
  | nil => exact ⟨formed, binds⟩
  | cons link links ih =>
    obtain ⟨op, t, right⟩ := link
    obtain ⟨⟨rfl, kind, formedRight, bindsRight⟩, good⟩ := List.forall_mem_cons.mp good
    refine ih (formed_binary.mpr ⟨⟨kind, binds, bindsRight⟩, formed, formedRight⟩) ?_ good
    intro other same
    obtain rfl := Option.some.inj same
    exact Nat.le_refl _

/-- An expression whose operators are from a level on is a chain of that level. -/
theorem exists_chain {level : Precedence} {e : Expr} (formed : e.Formed)
    (binds : e.BindsFrom level.rank) :
    ∃ first links, e = List.foldl join first links ∧ first.Formed ∧
      first.BindsFrom (level.rank + 1) ∧ ∀ link ∈ links, GoodLink level link := by
  induction e using Expr.induction with
  | binary l op t r ihl _ =>
    obtain ⟨⟨kind, bindsLeft, bindsRight⟩, formedLeft, formedRight⟩ := formed_binary.mp formed
    -- Only the left operand goes on with the chain: the right one binds tighter than the level.
    by_cases same : op.precedence = level
    · subst same
      obtain ⟨first, links, rfl, formedFirst, bindsFirst, good⟩ := ihl formedLeft bindsLeft
      refine ⟨first, links ++ [(op, t, r)], by simp [join], formedFirst, bindsFirst, ?_⟩
      intro link member
      rcases List.mem_append.mp member with old | last
      · exact good link old
      · obtain rfl := List.mem_singleton.mp last
        exact ⟨rfl, kind, formedRight, bindsRight⟩
    · refine ⟨binary l op t r, [], rfl, formed, ?_, by simp⟩
      intro other found
      obtain rfl := Option.some.inj found
      have le : level.rank ≤ op.precedence.rank := binds op rfl
      have ne : level.rank ≠ op.precedence.rank :=
        fun eq => same (Precedence.eq_of_rank_eq eq.symm)
      omega
  | _ => exact ⟨_, [], rfl, formed, bindsFrom_of_none _ rfl, by simp⟩

theorem depth_foldl_join {first : Expr} {links : List (BinOp × Token × Expr)} {levels : Nat} :
    (links.foldl join first).depth < levels ↔
      first.depth < levels ∧ ∀ link ∈ links, link.2.2.depth < levels := by
  induction links generalizing first with
  | nil => simp
  | cons link links ih =>
    obtain ⟨op, t, right⟩ := link
    rw [List.foldl_cons, ih, List.forall_mem_cons, ← and_assoc, join, depth, Nat.max_lt]

end Expr

end GameLang
