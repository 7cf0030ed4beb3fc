import GameLang.Proofs.Printing.Layout
import GameLang.Proofs.Recast.Outline
import GameLang.Proofs.Recast.Reader
import GameLang.Proofs.Soundness.Program
import GameLang.Source

/-!
# Printed trees are read back

The source text of a tree that was read from a text has the same tokens as that text, in other
places, so it is read as the same tree.
-/

namespace GameLang

/-! ### The words of a text -/

/-- What is taken up to the end of the tokens of a text are its words. -/
theorem Taken.spelled {marks : List Mark} {us rest : List Token} {q : Position}
    (taken : Taken (us ++ [Token.ending q]) marks rest) (ended : (Reader.current rest).kind = .eof)
    (words : ∀ t ∈ us, t.IsWord) : Spelled marks us := by
  have inside : ∀ t ∈ us, decide (t.kind ≠ .eof) = true :=
    fun t member => decide_eq_true (words t member).kind_ne_eof
  have written := (taken.takeWhile ended).1
  rw [List.takeWhile_append_of_pos inside] at written
  refine ⟨?_, words⟩
  simpa [Token.ending] using written

/-! ### Reading the same tokens in other places -/

theorem Follows.exists_of_unplaced {α : Type} {f : α → α} {reader : Reader α}
    (follows : Follows .unplaced f reader reader) {ts us rest : List Token} {v : α}
    (read : reader ts = .ok v rest) (same : us.map Token.unplaced = ts.map Token.unplaced) :
    ∃ w others, reader us = .ok w others ∧ f w = f v := by
  have agree := follows ts
  have agreeOther := follows us
  rw [show us.map Recast.unplaced.token = ts.map Recast.unplaced.token from same] at agreeOther
  rw [read] at agree
  cases placed : reader (ts.map Recast.unplaced.token) with
  | fail cause others => rw [placed] at agree; exact agree.elim
  | ok w others =>
    rw [placed] at agree agreeOther
    cases again : reader us with
    | fail cause others => rw [again] at agreeOther; exact agreeOther.elim
    | ok x others =>
      rw [again] at agreeOther
      exact ⟨x, others, rfl, agreeOther.1.symm.trans agree.1⟩

theorem Follows.exists_of_words {α : Type} {f : α → α} {reader : Reader α}
    (follows : Follows .unplaced f reader reader) {us : List Token} {p : Position} {rest : List Token}
    {v : α} (read : reader (us ++ [Token.ending p]) = .ok v rest) {pieces : List Piece}
    (laid : LaidOut pieces us) :
    ∃ vs w others, tokens (pieceText pieces) = .ok vs ∧
      vs.map Token.unplaced = (us ++ [Token.ending p]).map Token.unplaced ∧
      reader vs = .ok w others ∧ f w = f v := by
  obtain ⟨vs, q, lexed, same⟩ := laid.tokens_pieceText
  have all : (vs ++ [Token.ending q]).map Token.unplaced =
      (us ++ [Token.ending p]).map Token.unplaced := by
    rw [List.map_append, List.map_append, same]
    rfl
  obtain ⟨w, others, again, recast⟩ := follows.exists_of_unplaced read all
  exact ⟨_, w, others, lexed, all, again, recast⟩

/-! ### Programs and expressions -/

theorem Reader.fst_run_ok_iff {α : Type} {reader : Reader α} {ts : List Token} {v : α} :
    (reader.run ts).1 = .ok v ↔ ∃ rest, reader ts = .ok v rest := by
  constructor
  · intro read
    exact ⟨(reader.run ts).2, run_ok_iff.mp (Prod.ext read rfl)⟩
  · rintro ⟨rest, read⟩
    exact congrArg Prod.fst (run_ok_iff.mpr read)

/-- The tokens of a source are the words of its program, which is of the grammar, and an end. -/
theorem Source.spelled_of_read {text : String} {s : Source} (read : Source.read text = .ok s) :
    s.program.Formed ∧
      ∃ us q, s.tokens = us ++ [Token.ending q] ∧ Spelled s.program.yield us := by
  obtain ⟨lexed, parsed⟩ := read_eq_ok_iff.mp read
  obtain ⟨us, q, split, words⟩ := (tokens_eq_ok_iff.mp lexed).exists_words
  obtain ⟨rest, parsed⟩ := Reader.fst_run_ok_iff.mp parsed
  obtain ⟨formed, taken, ended⟩ := Reader.program_ok parsed
  rw [split] at taken
  exact ⟨formed, us, q, split, taken.spelled ended words⟩

/-- A program or an expression that was read from a text is printed as a text of the same tokens, in
other places, which is read as the same tree, with the same outline and printed the same. -/
theorem tokens_print {source : String} {ts : List Token} (lexed : tokens source = .ok ts) :
    (∀ p, Program.ofTokens ts = .ok p → ∃ us q, tokens p.print = .ok us ∧
      us.map Token.unplaced = ts.map Token.unplaced ∧ Program.ofTokens us = .ok q ∧
      q.unplaced = p.unplaced ∧ q.outline = p.outline ∧ q.print = p.print) ∧
    ∀ e, (Goal.expression.read ts).1 = .ok (.expression e) → ∃ us d, tokens e.print = .ok us ∧
      us.map Token.unplaced = ts.map Token.unplaced ∧
      (Goal.expression.read us).1 = .ok (.expression d) ∧
      d.unplaced = e.unplaced ∧ d.node.outline = e.node.outline ∧ d.print = e.print := by
  have keeps := Recast.keepsText_unplaced
  obtain ⟨us, q, rfl, words⟩ := (tokens_eq_ok_iff.mp lexed).exists_words
  constructor
  · intro p read
    obtain ⟨rest, read⟩ := Reader.fst_run_ok_iff.mp read
    obtain ⟨formed, taken, ended⟩ := Reader.program_ok read
    have laid := Program.laidOut formed (taken.spelled ended words)
    obtain ⟨vs, d, others, printed, same, again, recast⟩ :=
      (Reader.program_follows nestingLimit).exists_of_words read laid
    refine ⟨vs, d, printed, same, Reader.fst_run_ok_iff.mpr ⟨others, again⟩, recast, ?_, ?_⟩
    · rw [← Program.outline_recast keeps, recast, Program.outline_recast keeps]
    · rw [← Program.print_recast keeps, recast, Program.print_recast keeps]
  · intro e read
    obtain ⟨rest, read⟩ := Reader.fst_run_ok_iff.mp read
    obtain ⟨-, formed, taken, ended⟩ := Goal.within_ok read
    have laid := Expr.laidOut formed us [] [] (taken.spelled ended words) separated_nil .nil
    rw [List.append_nil] at laid
    obtain ⟨vs, tree, others, printed, same, again, recast⟩ :=
      (Goal.within_follows .expression nestingLimit).exists_of_words read laid
    cases tree with
    | program p => cases recast
    | statement s => cases recast
    | expression d =>
      have recast : d.recast .unplaced = e.recast .unplaced := Tree.expression.inj recast
      refine ⟨vs, d, printed, same, Reader.fst_run_ok_iff.mpr ⟨others, again⟩, recast, ?_, ?_⟩
      · rw [← Node.outline_recast keeps, ← Expr.node_recast, recast, Expr.node_recast,
          Node.outline_recast keeps]
      · rw [← Expr.print_recast keeps, recast, Expr.print_recast keeps]

theorem tokens_print_chains :
    let source := "broj f(broj a)\x7bvrati - -a;\x7dzapocni_igru ako(!x==!!y)\x7bt[0]=f(-1)!=!z;\x7d" ++
      "inace\x7bradi(k>0)k=k-1;\x7dzavrsi_igru;"
    let printed := "broj f(broj a) \x7b\n    vrati --a;\n\x7d\n\nzapocni_igru\n    ako (!x == !!y) \x7b\n" ++
      "        t[0] = f(-1) != !z;\n    \x7d inace \x7b\n        radi (k > 0) k = k - 1;\n    \x7d\nzavrsi_igru;\n"
    let mark (kind : Kind) (lexeme : String) (first last : Nat) : Token :=
      ⟨kind, lexeme, none, ⟨1, first, last⟩⟩
    let number (value : Int) (lexeme : String) (column : Nat) : Token :=
      ⟨.intLiteral, lexeme, some (.int value), ⟨1, column, column⟩⟩
    let not := mark .bang "!" 1 1
    let name := mark .ident "a" 2 2
    let equal := mark .equal "==" 3 4
    let minus := mark .minus "-" 5 5
    let callee := mark .ident "f" 6 6
    let outer := mark .minus "-" 8 8
    let inner := mark .minus "-" 10 10
    let one := number 1 "1" 11
    let array := mark .ident "b" 13 13
    let zero := number 0 "0" 15
    let ts := [not, name, equal, minus, callee, mark .leftParen "(" 7 7, outer, inner, one,
      mark .comma "," 12 12, array, mark .leftBracket "[" 14 14, zero, mark .rightBracket "]" 16 16,
      mark .rightParen ")" 17 17, Token.ending ⟨1, 18⟩]
    let e : Expr := .binary (.unary .not not (.ident name)) .eq equal
      (.unary .neg minus (.call callee
        [.unary .neg outer (.unary .neg inner (.literal one (.int 1))),
          .index array [.literal zero (.int 0)]]))
    (∃ s us q, Source.read source = .ok s ∧ s.program.print = printed ∧ tokens printed = .ok us ∧
      us.map Token.unplaced = s.tokens.map Token.unplaced ∧ Program.ofTokens us = .ok q ∧
      q.unplaced = s.program.unplaced ∧ q.outline = s.program.outline ∧ q.print = printed) ∧
    tokens "!a==-f(- -1,b[0])" = .ok ts ∧ (Goal.expression.read ts).1 = .ok (.expression e) ∧
      e.print = "!a == -f(--1, b[0])" ∧
      ∃ us d, tokens "!a == -f(--1, b[0])" = .ok us ∧ us.map Token.unplaced = ts.map Token.unplaced ∧
        (Goal.expression.read us).1 = .ok (.expression d) ∧ d.unplaced = e.unplaced ∧
        d.node.outline = e.node.outline ∧ d.print = "!a == -f(--1, b[0])" := by
  intro source printed mark number not name equal minus callee outer inner one array zero ts e
  constructor
  · have shown : (Source.read source).map (·.program.print) = .ok printed := by decide +kernel
    obtain ⟨s, read, print⟩ := Source.exists_of_map_read shown
    obtain ⟨lexed, parsed⟩ := Source.read_eq_ok_iff.mp read
    obtain ⟨us, q, again, same, parsedToo, recast, outline, printedToo⟩ :=
      (tokens_print lexed).1 s.program parsed
    rw [print] at again printedToo
    exact ⟨s, us, q, read, print, again, same, parsedToo, recast, outline, printedToo⟩
  · have lexed : tokens "!a==-f(- -1,b[0])" = .ok ts := by decide +kernel
    have parsed : (Goal.expression.read ts).1 = .ok (.expression e) := rfl
    have print : e.print = "!a == -f(--1, b[0])" := by decide +kernel
    obtain ⟨us, d, again, same, parsedToo, recast, outline, printedToo⟩ := (tokens_print lexed).2 e parsed
    rw [print] at again printedToo
    exact ⟨lexed, parsed, print, us, d, again, same, parsedToo, recast, outline, printedToo⟩

end GameLang
