import GameLang.Proofs.Completeness.Expr
import GameLang.Proofs.Grammar.Program
import GameLang.Proofs.Printing.Piece

/-!
# Layouts of trees

The pieces of a tree of the grammar are the words of its tokens, in order, with the blanks that keep
neighbours apart (`Program.laidOut`, `Expr.laidOut`). Only behind a prefix operator nothing keeps two
words apart; no operand starts with an equals sign, so the operator stays alone.
-/

namespace GameLang

/-! ### Words at the places of a tree -/

/-- Words stand at the places of some marks. -/
def Spelled (marks : List Mark) (ts : List Token) : Prop := Written marks ts ∧ ∀ t ∈ ts, t.IsWord

variable {t : Token} {k : Kind} {marks front back : List Mark} {us ts : List Token}

theorem spelled_nil_iff : Spelled [] us ↔ us = [] := by
  rw [Spelled, written_nil_iff]
  refine and_iff_left_of_imp ?_
  rintro rfl
  simp

theorem spelled_token_iff :
    Spelled (.token t :: marks) us ↔ ∃ back, us = t :: back ∧ t.IsWord ∧ Spelled marks back := by
  rw [Spelled, written_token_iff]
  constructor
  · rintro ⟨⟨back, rfl, written⟩, words⟩
    obtain ⟨word, words⟩ := List.forall_mem_cons.mp words
    exact ⟨back, rfl, word, written, words⟩
  · rintro ⟨back, rfl, word, written, words⟩
    exact ⟨⟨back, rfl, written⟩, List.forall_mem_cons.mpr ⟨word, words⟩⟩

theorem spelled_kind_iff :
    Spelled (.kind k :: marks) us ↔
      ∃ t back, us = t :: back ∧ t.kind = k ∧ t.IsWord ∧ Spelled marks back := by
  rw [Spelled, written_kind_iff]
  constructor
  · rintro ⟨⟨t, back, rfl, same, written⟩, words⟩
    obtain ⟨word, words⟩ := List.forall_mem_cons.mp words
    exact ⟨t, back, rfl, same, word, written, words⟩
  · rintro ⟨t, back, rfl, same, word, written, words⟩
    exact ⟨⟨t, back, rfl, same, written⟩, List.forall_mem_cons.mpr ⟨word, words⟩⟩

theorem spelled_append_iff :
    Spelled (front ++ back) us ↔
      ∃ vs ws, us = vs ++ ws ∧ Spelled front vs ∧ Spelled back ws := by
  rw [Spelled, written_append_iff]
  constructor
  · rintro ⟨⟨vs, ws, rfl, first, second⟩, words⟩
    obtain ⟨wordsFirst, wordsSecond⟩ := List.forall_mem_append.mp words
    exact ⟨vs, ws, rfl, ⟨first, wordsFirst⟩, second, wordsSecond⟩
  · rintro ⟨vs, ws, rfl, ⟨first, wordsFirst⟩, second, wordsSecond⟩
    exact ⟨⟨vs, ws, rfl, first, second⟩, List.forall_mem_append.mpr ⟨wordsFirst, wordsSecond⟩⟩

theorem spelled_singleton_iff : Spelled [.token t] us ↔ us = [t] ∧ t.IsWord := by
  rw [Spelled, written_singleton_iff]
  refine and_congr_right ?_
  rintro rfl
  exact List.forall_mem_singleton

theorem spelled_append_kind_iff :
    Spelled (marks ++ [.kind k]) us ↔
      ∃ vs closer, us = vs ++ [closer] ∧ Spelled marks vs ∧ closer.kind = k ∧ closer.IsWord := by
  rw [Spelled, written_append_kind_iff]
  constructor
  · rintro ⟨⟨vs, closer, rfl, written, same⟩, words⟩
    obtain ⟨inside, word⟩ := List.forall_mem_append.mp words
    exact ⟨vs, closer, rfl, ⟨written, inside⟩, same, List.forall_mem_singleton.mp word⟩
  · rintro ⟨vs, closer, rfl, ⟨written, inside⟩, same, word⟩
    exact ⟨⟨vs, closer, rfl, written, same⟩,
      List.forall_mem_append.mpr ⟨inside, List.forall_mem_singleton.mpr word⟩⟩

variable {rest : List Piece}

/-! ### Expressions -/

namespace Expr

/-- The pieces of an expression are the words of its tokens, in front of pieces that are clear of
every word. -/
def IsLaidOut (e : Expr) : Prop :=
  ∀ us rest ts, Spelled e.yield us → Separated rest → LaidOut rest ts →
    LaidOut (e.layout rest) (us ++ ts)

theorem indexLayout_laidOut {es : List Expr} (all : ∀ e ∈ es, e.IsLaidOut)
    (spelled : Spelled (indexYield es) us) (separated : Separated rest) (laid : LaidOut rest ts) :
    LaidOut (indexLayout es rest) (us ++ ts) ∧ Separated (indexLayout es rest) := by
  induction es generalizing us with
  | nil =>
    obtain rfl := spelled_nil_iff.mp spelled
    exact ⟨laid, separated⟩
  | cons e es ih =>
    obtain ⟨first, others⟩ := List.forall_mem_cons.mp all
    obtain ⟨opener, us, rfl, opened, openerWord, inside⟩ := spelled_kind_iff.mp spelled
    obtain ⟨us, vs, rfl, index, close⟩ := spelled_append_iff.mp inside
    obtain ⟨closer, vs, rfl, closed, closerWord, back⟩ := spelled_kind_iff.mp close
    refine ⟨?_, separated_delimiter rfl _⟩
    rw [indexLayout, List.cons_append, List.append_assoc]
    exact .delimiter opened openerWord rfl (first _ _ _ index (separated_delimiter rfl _)
      (.delimiter closed closerWord rfl (ih others back).1))

theorem argLayout_laidOut {es : List Expr} (all : ∀ e ∈ es, e.IsLaidOut)
    (spelled : Spelled (nextArgYield es) us) (separated : Separated rest) (laid : LaidOut rest ts) :
    LaidOut (argLayout es rest) (us ++ ts) ∧ Separated (argLayout es rest) := by
  induction es generalizing us with
  | nil =>
    obtain rfl := spelled_nil_iff.mp spelled
    exact ⟨laid, separated⟩
  | cons e es ih =>
    obtain ⟨first, others⟩ := List.forall_mem_cons.mp all
    obtain ⟨comma, us, rfl, same, word, inside⟩ := spelled_kind_iff.mp spelled
    obtain ⟨us, vs, rfl, arg, back⟩ := spelled_append_iff.mp inside
    obtain ⟨laidOthers, separatedOthers⟩ := ih others back
    refine ⟨?_, separated_delimiter rfl _⟩
    rw [argLayout, List.cons_append, List.append_assoc]
    exact .delimiter same word rfl (.space (first _ _ _ arg separatedOthers laidOthers))

/-- The pieces of a call are the words of its tokens, of whatever kind its callee is. -/
theorem call_isLaidOut {es : List Expr} (all : ∀ e ∈ es, e.IsLaidOut) : (call t es).IsLaidOut := by
  intro us rest ts spelled separated laid
  obtain ⟨us, rfl, callee, parens⟩ := spelled_token_iff.mp spelled
  obtain ⟨opener, us, rfl, opened, openerWord, inside⟩ := spelled_kind_iff.mp parens
  obtain ⟨us, closer, rfl, args, closed, closerWord⟩ := spelled_append_kind_iff.mp inside
  have closing : LaidOut (.ofKind .rightParen :: rest) (closer :: ts) :=
    .delimiter closed closerWord rfl laid
  cases es with
  | nil =>
    obtain rfl := spelled_nil_iff.mp args
    exact .token callee (separated_delimiter rfl _) (.delimiter opened openerWord rfl closing)
  | cons e es =>
    obtain ⟨first, others⟩ := List.forall_mem_cons.mp all
    obtain ⟨us, vs, rfl, arg, back⟩ := spelled_append_iff.mp args
    obtain ⟨laidOthers, separatedOthers⟩ :=
      argLayout_laidOut others back (separated_delimiter rfl rest) closing
    rw [layout, List.cons_append, List.cons_append, List.append_assoc, List.append_assoc]
    exact .token callee (separated_delimiter rfl _)
      (.delimiter opened openerWord rfl (first _ _ _ arg separatedOthers laidOthers))

/-- No operand starts with an equals sign, so a prefix operator is clear of it. -/
theorem clear_of_operand {op : UnOp} {e : Expr} {pieces : List Piece} (ordered : (unary op t e).Ordered)
    (formed : e.Formed) (spelled : Spelled e.yield us) (laid : LaidOut pieces (us ++ ts)) :
    Clear t.kind (pieceChars pieces) := by
  -- Nothing but the operand keeps the operator apart from what follows.
  obtain ⟨first, back, rfl, opens⟩ := e.starts formed spelled.1
  have different : first.kind ≠ .assign ∧ first.kind ≠ .equal := by
    constructor <;> intro same <;> rw [same] at opens <;> cases opens
  have alone := laid.head?_ne (by simpa using different)
  obtain ⟨⟨same, -⟩ | ⟨same, -⟩, -⟩ := ordered
  · rw [same]
    exact Lexer.clear_of_closed (by decide) _
  · have known : Kind.ofComparison? '!' = some (.bang, .notEqual) := rfl
    rw [same]
    exact Lexer.clear_of_alone known alone

/-- The pieces of an expression of the grammar are the words of its tokens. -/
theorem laidOut {e : Expr} (formed : e.Formed) : e.IsLaidOut := by
  induction e using Expr.induction with
  | literal t v =>
    intro us rest ts spelled separated laid
    obtain ⟨rfl, word⟩ := spelled_singleton_iff.mp spelled
    exact .token word separated laid
  | ident t =>
    intro us rest ts spelled separated laid
    obtain ⟨rfl, word⟩ := spelled_singleton_iff.mp spelled
    exact .token word separated laid
  | index t es ih =>
    intro us rest ts spelled separated laid
    obtain ⟨-, -, formed⟩ := formed_index.mp formed
    obtain ⟨us, rfl, word, indices⟩ := spelled_token_iff.mp spelled
    obtain ⟨laidIndices, separatedIndices⟩ := indexLayout_laidOut
      (fun e member => ih e member (formed e member)) indices separated laid
    exact .token word separatedIndices laidIndices
  | group e ih =>
    intro us rest ts spelled separated laid
    obtain ⟨opener, us, rfl, opened, openerWord, inside⟩ := spelled_kind_iff.mp spelled
    obtain ⟨us, closer, rfl, content, closed, closerWord⟩ := spelled_append_kind_iff.mp inside
    rw [layout, List.cons_append, List.append_assoc]
    exact .delimiter opened openerWord rfl (ih (formed_group.mp formed) _ _ _ content
      (separated_delimiter rfl _) (.delimiter closed closerWord rfl laid))
  | call t es ih =>
    have formed := (formed_call.mp formed).2
    exact call_isLaidOut fun e member => ih e member (formed e member)
  | unary op t e ih =>
    intro us rest ts spelled separated laid
    obtain ⟨ordered, formed⟩ := formed_unary.mp formed
    obtain ⟨us, rfl, word, operand⟩ := spelled_token_iff.mp spelled
    have laidOperand := ih formed us rest ts operand separated laid
    exact .word word (clear_of_operand ordered formed operand laidOperand) laidOperand
  | binary left op t right ihl ihr =>
    intro us rest ts spelled separated laid
    obtain ⟨-, formedLeft, formedRight⟩ := formed_binary.mp formed
    obtain ⟨us, vs, rfl, spelledLeft, back⟩ := spelled_append_iff.mp spelled
    obtain ⟨vs, rfl, word, spelledRight⟩ := spelled_token_iff.mp back
    rw [layout, List.append_assoc]
    exact ihl formedLeft _ _ _ spelledLeft (separated_space _) (.space (.token word
      (separated_space _) (.space (ihr formedRight _ _ _ spelledRight separated laid))))

end Expr

/-! ### Declarations -/

theorem dimLayout_laidOut {dims : List (Option Expr)} (formed : ∀ size ∈ dims, ∀ e ∈ size, e.Formed)
    (spelled : Spelled (dims.flatMap VarDecl.dimYield) us) (separated : Separated rest)
    (laid : LaidOut rest ts) :
    LaidOut (dimLayout dims rest) (us ++ ts) ∧ Separated (dimLayout dims rest) := by
  induction dims generalizing us with
  | nil =>
    obtain rfl := spelled_nil_iff.mp spelled
    exact ⟨laid, separated⟩
  | cons size dims ih =>
    obtain ⟨first, others⟩ := List.forall_mem_cons.mp formed
    rw [List.flatMap_cons] at spelled
    obtain ⟨us, ws, rfl, dim, back⟩ := spelled_append_iff.mp spelled
    obtain ⟨opener, us, rfl, opened, openerWord, inside⟩ := spelled_kind_iff.mp dim
    obtain ⟨us, closer, rfl, content, closed, closerWord⟩ := spelled_append_kind_iff.mp inside
    have closing : LaidOut (.ofKind .rightBracket :: dimLayout dims rest) (closer :: (ws ++ ts)) :=
      .delimiter closed closerWord rfl (ih others back).1
    cases size with
    | none =>
      obtain rfl := spelled_nil_iff.mp content
      exact ⟨.delimiter opened openerWord rfl closing, separated_delimiter rfl _⟩
    | some e =>
      refine ⟨?_, separated_delimiter rfl _⟩
      rw [dimLayout, List.cons_append, List.cons_append, List.append_assoc, List.append_assoc]
      exact .delimiter opened openerWord rfl (Expr.laidOut (first e rfl) _ _ _ content
        (separated_delimiter rfl _) closing)

theorem VarDecl.laidOut {d : VarDecl} (formed : d.Formed) (spelled : Spelled d.yield us)
    (laid : LaidOut rest ts) : LaidOut (d.layout rest) (us ++ ts) := by
  obtain ⟨-, -, -, formedAll⟩ := formed_iff.mp formed
  obtain ⟨formedDims, formedInit⟩ := forall_mem_exprs.mp formedAll
  obtain ⟨us, rfl, keyword, afterWord⟩ := spelled_token_iff.mp spelled
  obtain ⟨us, rfl, type, afterType⟩ := spelled_token_iff.mp afterWord
  obtain ⟨us, rfl, name, afterName⟩ := spelled_token_iff.mp afterType
  obtain ⟨us, vs, rfl, dims, afterDims⟩ := spelled_append_iff.mp afterName
  obtain ⟨vs, closer, rfl, value, closed, closerWord⟩ := spelled_append_kind_iff.mp afterDims
  have closing : LaidOut (.ofKind .semicolon :: rest) (closer :: ts) :=
    .delimiter closed closerWord rfl laid
  unfold layout
  cases init : d.init with
  | none =>
    rw [init] at value
    obtain rfl := spelled_nil_iff.mp value
    obtain ⟨laidDims, separated⟩ :=
      dimLayout_laidOut formedDims dims (separated_delimiter rfl rest) closing
    simp only [List.cons_append, List.append_assoc, List.nil_append]
    exact .token keyword (separated_space _) (.space (.token type (separated_space _)
      (.space (.token name separated laidDims))))
  | some e =>
    rw [init] at value
    obtain ⟨equals, vs, rfl, same, equalsWord, spelledValue⟩ := spelled_kind_iff.mp value
    have assigned : LaidOut (.space :: .ofKind .assign :: .space ::
        e.layout (.ofKind .semicolon :: rest)) (equals :: (vs ++ (closer :: ts))) :=
      .space (.kind same equalsWord rfl (separated_space _ _) (.space (Expr.laidOut
        (formedInit e init) _ _ _ spelledValue (separated_delimiter rfl rest) closing)))
    obtain ⟨laidDims, separated⟩ := dimLayout_laidOut formedDims dims (separated_space _) assigned
    simp only [List.cons_append, List.append_assoc, List.nil_append]
    exact .token keyword (separated_space _) (.space (.token type (separated_space _)
      (.space (.token name separated laidDims))))

/-! ### Statements -/

/-- The pieces of a statement are the words of its tokens, in front of any pieces. -/
def Stmt.IsLaidOut (s : Stmt) : Prop :=
  ∀ depth us rest ts, Spelled s.yield us → LaidOut rest ts → LaidOut (s.layout depth rest) (us ++ ts)

theorem Stmt.linesLayout_laidOut {ss : List Stmt} (all : ∀ s ∈ ss, s.IsLaidOut) (depth : Nat)
    (spelled : Spelled (ss.flatMap Stmt.yield) us) (laid : LaidOut rest ts) :
    LaidOut (linesLayout depth ss rest) (us ++ ts) := by
  induction ss generalizing us with
  | nil =>
    obtain rfl := spelled_nil_iff.mp spelled
    exact laid
  | cons s ss ih =>
    obtain ⟨first, others⟩ := List.forall_mem_cons.mp all
    rw [List.flatMap_cons] at spelled
    obtain ⟨us, vs, rfl, spelledFirst, back⟩ := spelled_append_iff.mp spelled
    rw [linesLayout, List.append_assoc]
    exact .indent depth (first depth _ _ _ spelledFirst (.newline (ih others back)))

/-- The pieces from the opening to the closing brace. -/
theorem braces_laidOut {ss : List Stmt} (all : ∀ s ∈ ss, s.IsLaidOut) (depth : Nat)
    (spelled : Spelled (.kind .leftBrace :: (ss.flatMap Stmt.yield ++ [.kind .rightBrace])) us)
    (laid : LaidOut rest ts) :
    LaidOut (.ofKind .leftBrace :: .newline :: Stmt.linesLayout (depth + 1) ss
      (.indent depth :: .ofKind .rightBrace :: rest)) (us ++ ts) := by
  obtain ⟨opener, us, rfl, opened, openerWord, inside⟩ := spelled_kind_iff.mp spelled
  obtain ⟨us, closer, rfl, statements, closed, closerWord⟩ := spelled_append_kind_iff.mp inside
  rw [List.cons_append, List.append_assoc]
  exact .delimiter opened openerWord rfl (.newline (Stmt.linesLayout_laidOut all _ statements
    (.indent depth (.delimiter closed closerWord rfl laid))))

theorem Block.laidOut {b : Block} (braced : b.Braced) (all : ∀ s ∈ b.statements, s.IsLaidOut)
    (depth : Nat) (spelled : Spelled b.yield us) (laid : LaidOut rest ts) :
    LaidOut (b.layout depth rest) (us ++ ts) := by
  rw [yield_eq] at spelled
  obtain ⟨us, rfl, word, inside⟩ := spelled_token_iff.mp spelled
  cases b with
  | mk opener statements =>
    rw [layout]
    exact braces_laidOut all depth (spelled_kind_iff.mpr ⟨opener, us, rfl, braced, word, inside⟩) laid

theorem condition_laidOut {c : Expr} (formed : c.Formed) (spelled : Spelled (conditionYield t c) us)
    (laid : LaidOut rest ts) : LaidOut (conditionLayout t c rest) (us ++ ts) := by
  obtain ⟨us, rfl, word, parens⟩ := spelled_token_iff.mp spelled
  obtain ⟨opener, us, rfl, opened, openerWord, inside⟩ := spelled_kind_iff.mp parens
  obtain ⟨us, closer, rfl, test, closed, closerWord⟩ := spelled_append_kind_iff.mp inside
  rw [conditionLayout, List.cons_append, List.cons_append, List.append_assoc]
  exact .token word (separated_space _) (.space (.delimiter opened openerWord rfl
    (Expr.laidOut formed _ _ _ test (separated_delimiter rfl _)
      (.delimiter closed closerWord rfl (.space laid)))))

/-- A statement that is an expression: a call, whose arguments are of the grammar. -/
theorem Expr.FormedCommand.laidOut {e : Expr} (formed : e.FormedCommand) : e.IsLaidOut := by
  cases e with
  | call t args =>
    rcases formedCommand_call.mp formed with ⟨-, formedArgs⟩ | ⟨-, name, rfl, named⟩ |
      ⟨-, arg, rfl, formedArg⟩
    · exact call_isLaidOut fun e member => Expr.laidOut (formedArgs e member)
    · exact call_isLaidOut (List.forall_mem_singleton.mpr (Expr.laidOut (formed_ident.mpr named)))
    · exact call_isLaidOut (List.forall_mem_singleton.mpr (Expr.laidOut formedArg))
  | _ => exact formed.1.elim

/-- The end of a statement, after an expression. -/
theorem laidOut_semicolon {e : Expr} (isLaidOut : e.IsLaidOut)
    (spelled : Spelled (e.yield ++ [.kind .semicolon]) us) (laid : LaidOut rest ts) :
    LaidOut (e.layout (.ofKind .semicolon :: rest)) (us ++ ts) := by
  obtain ⟨us, closer, rfl, value, closed, closerWord⟩ := spelled_append_kind_iff.mp spelled
  rw [List.append_assoc]
  exact isLaidOut _ _ _ value (separated_delimiter rfl _) (.delimiter closed closerWord rfl laid)

/-- The pieces of a statement of the grammar are the words of its tokens. -/
theorem Stmt.laidOut {s : Stmt} (formed : s.Formed) : s.IsLaidOut := by
  induction s using Stmt.induction with
  | varDecl d =>
    intro depth us rest ts spelled laid
    exact VarDecl.laidOut (formed_varDecl.mp formed) spelled laid
  | assign target value =>
    intro depth us rest ts spelled laid
    obtain ⟨-, formedTarget, formedValue⟩ := formed_assign.mp formed
    obtain ⟨us, vs, rfl, spelledTarget, back⟩ := spelled_append_iff.mp spelled
    obtain ⟨equals, vs, rfl, same, word, spelledValue⟩ := spelled_kind_iff.mp back
    rw [layout, List.append_assoc]
    exact Expr.laidOut formedTarget _ _ _ spelledTarget (separated_space _) (.space (.kind same word
      rfl (separated_space _ _) (.space (laidOut_semicolon (Expr.laidOut formedValue) spelledValue
        laid))))
  | branch t c b other ihb iho =>
    intro depth us rest ts spelled laid
    obtain ⟨-, formedTest, ⟨braced, formedBlock⟩, formedOther⟩ := formed_branch.mp formed
    have inBlock : ∀ s ∈ b.statements, s.IsLaidOut := fun s member => ihb s member (formedBlock s member)
    rw [yield_branch] at spelled
    obtain ⟨us, vs, rfl, test, back⟩ := spelled_append_iff.mp spelled
    obtain ⟨vs, ws, rfl, thenBlock, elseBlock⟩ := spelled_append_iff.mp back
    simp only [List.append_assoc]
    cases other with
    | none =>
      obtain rfl := spelled_nil_iff.mp elseBlock
      exact condition_laidOut formedTest test (Block.laidOut braced inBlock depth thenBlock laid)
    | some other =>
      obtain ⟨bracedOther, formedOther⟩ := formedOther other rfl
      have inOther : ∀ s ∈ other.statements, s.IsLaidOut :=
        fun s member => iho other rfl s member (formedOther s member)
      obtain ⟨word, ws, rfl, same, isWord, spelledOther⟩ := spelled_kind_iff.mp elseBlock
      exact condition_laidOut formedTest test (Block.laidOut braced inBlock depth thenBlock (.space
        (.kind same isWord rfl (separated_space _ _) (.space
          (Block.laidOut bracedOther inOther depth spelledOther laid)))))
  | loop t c s ih =>
    intro depth us rest ts spelled laid
    obtain ⟨-, formedTest, formedBody⟩ := formed_loop.mp formed
    obtain ⟨us, vs, rfl, test, body⟩ := spelled_append_iff.mp spelled
    rw [layout, List.append_assoc]
    exact condition_laidOut formedTest test (ih formedBody depth _ _ _ body laid)
  | result t e =>
    intro depth us rest ts spelled laid
    obtain ⟨-, formedValue⟩ := formed_result.mp formed
    obtain ⟨us, rfl, word, value⟩ := spelled_token_iff.mp spelled
    exact .token word (separated_space _)
      (.space (laidOut_semicolon (Expr.laidOut formedValue) value laid))
  | block b ih =>
    intro depth us rest ts spelled laid
    obtain ⟨braced, formedBlock⟩ := formed_block.mp formed
    exact Block.laidOut braced (fun s member => ih s member (formedBlock s member)) depth spelled laid
  | expression e =>
    intro depth us rest ts spelled laid
    exact laidOut_semicolon (formed_expression.mp formed).laidOut spelled laid
  | empty t =>
    intro depth us rest ts spelled laid
    obtain ⟨rfl, word⟩ := spelled_singleton_iff.mp spelled
    exact .delimiter (formed_empty.mp formed) word rfl laid

/-! ### Programs -/

theorem Param.laidOut {p : Param} (spelled : Spelled p.yield us) (separated : Separated rest)
    (laid : LaidOut rest ts) : LaidOut (p.layout rest) (us ++ ts) := by
  obtain ⟨us, rfl, type, back⟩ := spelled_token_iff.mp spelled
  obtain ⟨rfl, name⟩ := spelled_singleton_iff.mp back
  exact .token type (separated_space _) (.space (.token name separated laid))

theorem Param.othersLayout_laidOut {ps : List Param} (spelled : Spelled (ps.flatMap Param.nextYield) us)
    (separated : Separated rest) (laid : LaidOut rest ts) :
    LaidOut (othersLayout ps rest) (us ++ ts) ∧ Separated (othersLayout ps rest) := by
  induction ps generalizing us with
  | nil =>
    obtain rfl := spelled_nil_iff.mp spelled
    exact ⟨laid, separated⟩
  | cons p ps ih =>
    rw [List.flatMap_cons] at spelled
    obtain ⟨us, vs, rfl, first, back⟩ := spelled_append_iff.mp spelled
    obtain ⟨comma, us, rfl, same, word, spelledParam⟩ := spelled_kind_iff.mp first
    obtain ⟨laidOthers, separatedOthers⟩ := ih back
    refine ⟨?_, separated_delimiter rfl _⟩
    rw [othersLayout, List.cons_append, List.cons_append, List.append_assoc]
    exact .delimiter same word rfl (.space (Param.laidOut spelledParam separatedOthers laidOthers))

theorem Param.listLayout_laidOut {ps : List Param} (spelled : Spelled (Param.yields ps) us)
    (separated : Separated rest) (laid : LaidOut rest ts) :
    LaidOut (listLayout ps rest) (us ++ ts) := by
  cases ps with
  | nil =>
    obtain rfl := spelled_nil_iff.mp spelled
    exact laid
  | cons p ps =>
    obtain ⟨us, vs, rfl, first, back⟩ := spelled_append_iff.mp spelled
    obtain ⟨laidOthers, separatedOthers⟩ := othersLayout_laidOut back separated laid
    rw [listLayout, List.append_assoc]
    exact Param.laidOut first separatedOthers laidOthers

theorem Function.laidOut {f : Function} (formed : f.Formed) (spelled : Spelled f.yield us)
    (laid : LaidOut rest ts) : LaidOut (f.layout rest) (us ++ ts) := by
  obtain ⟨us, rfl, type, afterType⟩ := spelled_token_iff.mp spelled
  obtain ⟨us, rfl, name, afterName⟩ := spelled_token_iff.mp afterType
  obtain ⟨opener, us, rfl, opened, openerWord, afterOpener⟩ := spelled_kind_iff.mp afterName
  obtain ⟨us, vs, rfl, params, afterParams⟩ := spelled_append_iff.mp afterOpener
  obtain ⟨closer, vs, rfl, closed, closerWord, body⟩ := spelled_kind_iff.mp afterParams
  have laidBody := braces_laidOut (fun s member => Stmt.laidOut (formed.2 s member)) 0 body
    (.newline (.newline laid))
  rw [layout]
  simp only [List.cons_append, List.append_assoc]
  exact .token type (separated_space _) (.space (.token name (separated_delimiter rfl _)
    (.delimiter opened openerWord rfl (Param.listLayout_laidOut params (separated_delimiter rfl _)
      (.delimiter closed closerWord rfl (.space laidBody))))))

theorem Block.entry_laidOut {b : Block} (formed : ∀ s ∈ b.statements, s.Formed)
    (spelled : Spelled b.entryYield us) (laid : LaidOut rest ts) :
    LaidOut (b.entryLayout rest) (us ++ ts) := by
  obtain ⟨us, rfl, opener, inside⟩ := spelled_token_iff.mp spelled
  obtain ⟨us, vs, rfl, statements, close⟩ := spelled_append_iff.mp inside
  obtain ⟨closer, vs, rfl, closed, closerWord, finish⟩ := spelled_kind_iff.mp close
  obtain ⟨ender, vs, rfl, ended, enderWord, nothing⟩ := spelled_kind_iff.mp finish
  obtain rfl := spelled_nil_iff.mp nothing
  rw [entryLayout, List.cons_append, List.append_assoc]
  exact .token opener (separated_newline _) (.newline (Stmt.linesLayout_laidOut
    (fun s member => Stmt.laidOut (formed s member)) 1 statements
    (.kind closed closerWord rfl (separated_delimiter rfl _ _)
      (.delimiter ended enderWord rfl (.newline laid)))))

/-- The pieces of an item are the words of its tokens, in front of any pieces. -/
def Item.IsLaidOut (item : Item) : Prop :=
  ∀ us rest ts, Spelled item.yield us → LaidOut rest ts → LaidOut (item.layout rest) (us ++ ts)

theorem items_laidOut {items : List Item} (all : ∀ item ∈ items, item.IsLaidOut)
    (spelled : Spelled (items.flatMap Item.yield) us) : LaidOut (items.foldr Item.layout []) us := by
  induction items generalizing us with
  | nil =>
    obtain rfl := spelled_nil_iff.mp spelled
    exact .nil
  | cons item items ih =>
    obtain ⟨first, others⟩ := List.forall_mem_cons.mp all
    rw [List.flatMap_cons] at spelled
    obtain ⟨us, vs, rfl, spelledFirst, back⟩ := spelled_append_iff.mp spelled
    exact first _ _ _ spelledFirst (ih others back)

/-- The pieces of a program of the grammar are the words of its tokens. -/
theorem Program.laidOut {p : Program} (formed : p.Formed) (spelled : Spelled p.yield us) :
    LaidOut p.layout us := by
  obtain ⟨functions, decls, entry, items, formedFunctions, formedDecls, opens, formedEntry⟩ :=
    formed_iff.mp formed
  refine items_laidOut ?_ spelled
  rw [items]
  simp only [List.forall_mem_append, List.forall_mem_map, List.forall_mem_singleton]
  refine ⟨⟨?_, ?_⟩, ?_⟩
  · intro f member us rest ts spelled laid
    exact Function.laidOut (formedFunctions f member) spelled laid
  · intro d member us rest ts spelled laid
    exact VarDecl.laidOut (formedDecls d member) spelled (.newline laid)
  · intro us rest ts spelled laid
    rw [Item.yield, if_pos opens] at spelled
    rw [Item.layout, if_pos opens]
    exact Block.entry_laidOut formedEntry spelled laid

end GameLang
