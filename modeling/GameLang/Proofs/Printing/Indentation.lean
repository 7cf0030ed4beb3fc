import GameLang.Proofs.Lexing.Spelling
import GameLang.Proofs.Printing.Lined
import GameLang.Proofs.Rows

/-!
# Indentation of printed programs

The text of lined pieces, read again, is a `Sheet`: rows that start with four spaces for each block that
the tokens of the rows above leave open, and then with a token (`Lined.exists_sheet`). So are all
printed programs (`Source.print_indented`).
-/

namespace GameLang

open Lexer

/-! ### Blocks left open -/

/-- How many more of some tokens open a block than close one. -/
def leftOpen (ts : List Token) : Int :=
  ts.countP (·.kind.opensBlock) - ts.countP (·.kind.closesBlock)

@[simp] theorem leftOpen_nil : leftOpen [] = 0 := rfl

@[simp] theorem leftOpen_append (ts us : List Token) :
    leftOpen (ts ++ us) = leftOpen ts + leftOpen us := by
  simp only [leftOpen, List.countP_append]
  omega

theorem leftOpen_cons (t : Token) (ts : List Token) :
    leftOpen (t :: ts) = t.kind.opensBlock.toNat - t.kind.closesBlock.toNat + leftOpen ts := by
  cases opens : t.kind.opensBlock <;> cases closes : t.kind.closesBlock <;>
    simp [leftOpen, opens, closes] <;> omega

/-! ### Laid out pieces -/

namespace LaidOut

variable {piece : Piece} {pieces : List Piece} {ts : List Token}

theorem back (laid : LaidOut (piece :: pieces) ts) : ∃ us, LaidOut pieces us := by
  generalize whole : piece :: pieces = all at laid
  cases laid with
  | nil => cases whole
  | blank _ back | word _ _ back =>
    obtain ⟨-, rfl⟩ := List.cons.inj whole
    exact ⟨_, back⟩

theorem clear {k : Kind} {s : String} {value : Option Literal} (isWord : IsWord k s.toList value)
    (laid : LaidOut (.word s :: pieces) ts) : Clear k (pieceChars pieces) := by
  generalize whole : Piece.word s :: pieces = all at laid
  cases laid with
  | nil => cases whole
  | blank blank =>
    obtain ⟨rfl, -⟩ := List.cons.inj whole
    obtain ⟨c, w, spelled⟩ := List.exists_cons_of_ne_nil isWord.ne_nil
    have first := blank c (by simp [Piece.text, spelled])
    rw [spelled] at isWord
    rw [isWord.isBlank_first] at first
    cases first
  | @word t _ _ also clear =>
    obtain ⟨same, rfl⟩ := List.cons.inj whole
    obtain rfl : s = t.lexeme := Piece.word.inj same
    obtain ⟨kind, -⟩ := GameLang.IsWord.unique isWord also
    exact kind ▸ clear

end LaidOut

/-! ### Rows of tokens -/

/-- The end of a row with its tokens: how many blocks are open in front of them, and how many behind. -/
structure LineTail (line n after : Nat) (row : List Char) (ts : List Token) : Prop where
  inLine : '\n' ∉ row
  last : row.getLast? ≠ some ' '
  placed : ∀ t ∈ ts, t.span.line = line
  count : (after : Int) = n + leftOpen ts

namespace LineTail

variable {line n m after : Nat} {row : List Char} {t : Token} {ts : List Token}

theorem nil (line n : Nat) : LineTail line n n [] [] := ⟨by simp, by simp, by simp, by simp⟩

theorem blanks (width : Nat) (some : row ≠ []) (tail : LineTail line n after row ts) :
    LineTail line n after (List.replicate width ' ' ++ row) ts := by
  refine ⟨?_, ?_, tail.placed, tail.count⟩
  · simp [tail.inLine]
  · rw [List.getLast?_append_of_ne_nil _ some]
    exact tail.last

theorem word (isWord : t.IsWord) (placed : t.span.line = line)
    (count : m + t.kind.closesBlock.toNat = n + t.kind.opensBlock.toNat)
    (tail : LineTail line m after row ts) : LineTail line n after (t.lexeme.toList ++ row) (t :: ts) := by
  refine ⟨?_, ?_, List.forall_mem_cons.mpr ⟨placed, tail.placed⟩, ?_⟩
  · simp [isWord.lineFeed_not_mem, tail.inLine]
  · intro last
    rw [List.getLast?_append] at last
    cases behind : row.getLast? with
    | none =>
      rw [behind, Option.none_or] at last
      exact absurd (isWord.isBlank_last last) (by decide)
    | some c =>
      rw [behind, Option.some_or] at last
      exact tail.last (behind.trans last)
  · have behind := tail.count
    rw [leftOpen_cons]
    omega

end LineTail

/-- A whole row: spaces for the open blocks, one less if its first token closes one, and this token. -/
structure Row (line n after : Nat) (row : List Char) (ts : List Token) : Prop extends
    LineTail line n after row ts where
  starts : ∃ t others depth text, ts = t :: others ∧
    row = List.replicate (4 * depth) ' ' ++ (t.lexeme.toList ++ text) ∧
    (depth : Int) = n - t.kind.closesBlock.toNat

def lastRow : List Char := "zavrsi_igru;".toList

/-- A text from a line on, with some blocks open: rows of tokens down to the last one, and empty rows
in front of texts that can follow one. -/
inductive Sheet (atBreak : List Char → Prop) : Nat → Nat → List Char → List Token → Prop where
  | finish {line n : Nat} {ts : List Token} (row : Row line n 0 lastRow ts) :
      Sheet atBreak line n (lastRow ++ ['\n']) ts
  | blank {line : Nat} {text : List Char} {ts : List Token} (breaks : atBreak text)
      (below : Sheet atBreak (line + 1) 0 text ts) : Sheet atBreak line 0 ('\n' :: text) ts
  | row {line n after : Nat} {row text : List Char} {ts us : List Token} (filled : Row line n after row ts)
      (below : Sheet atBreak (line + 1) after text us) :
      Sheet atBreak line n (row ++ '\n' :: text) (ts ++ us)

/-! ### What stands at a spot -/

variable {atBreak : List Char → Prop} {line n : Nat} {text : List Char} {t : Token} {us : List Token}

/-- The rest of a line and the rows below. -/
def Behind (atBreak : List Char → Prop) (line n : Nat) (text : List Char) (us : List Token) : Prop :=
  ∃ after row below ts vs, text = row ++ '\n' :: below ∧ us = ts ++ vs ∧
    LineTail line n after row ts ∧ Sheet atBreak (line + 1) after below vs

/-- A token that closes nothing, the rest of its line and the rows below. -/
def Within (atBreak : List Char → Prop) (line n : Nat) (text : List Char) (us : List Token) : Prop :=
  ∃ t others tail, text = t.lexeme.toList ++ tail ∧ us = t :: others ∧ t.IsWord ∧
    t.span.line = line ∧ t.kind.closesBlock = false ∧
    Behind atBreak line (n + t.kind.opensBlock.toNat) tail others

def Stands (atBreak : List Char → Prop) : Spot → Nat → Nat → List Char → List Token → Prop
  | .first => Sheet atBreak
  | .within => Within atBreak
  | .behind => Behind atBreak

theorem Behind.row {m depth : Nat} (isWord : t.IsWord) (placed : t.span.line = line)
    (count : m + t.kind.closesBlock.toNat = n + t.kind.opensBlock.toNat)
    (indented : (depth : Int) = n - t.kind.closesBlock.toNat)
    (behind : Behind atBreak line m text us) :
    Sheet atBreak line n (List.replicate (4 * depth) ' ' ++ (t.lexeme.toList ++ text)) (t :: us) := by
  obtain ⟨after, row, below, ts, vs, rfl, rfl, tail, sheet⟩ := behind
  have whole := (tail.word isWord placed count).blanks (4 * depth) (by simp [isWord.ne_nil])
  have filled : Row line n after (List.replicate (4 * depth) ' ' ++ (t.lexeme.toList ++ row)) (t :: ts) :=
    ⟨whole, t, ts, depth, row, rfl, rfl, indented⟩
  simpa using Sheet.row filled sheet

theorem Within.sheet (within : Within atBreak line n text us) :
    Sheet atBreak line n (List.replicate (4 * n) ' ' ++ text) us := by
  obtain ⟨t, others, tail, rfl, rfl, isWord, placed, stays, behind⟩ := within
  exact behind.row isWord placed (by simp [stays]) (by simp [stays])

theorem Within.behind (width : Nat) (within : Within atBreak line n text us) :
    Behind atBreak line n (List.replicate width ' ' ++ text) us := by
  obtain ⟨t, others, tail, rfl, rfl, isWord, placed, stays, after, row, below, ts, vs, rfl, rfl, rest,
    sheet⟩ := within
  have whole := (rest.word isWord placed (n := n) (by simp [stays])).blanks width
    (by simp [isWord.ne_nil])
  exact ⟨after, _, below, t :: ts, vs, by simp, rfl, whole, sheet⟩

/-! ### Sheets from pieces -/

namespace Tiled

variable {p q : Position}

theorem spaces {width : Nat} {ts : List Token} (tiled : Tiled ⟨p.line, p.column + width⟩ text ts) :
    Tiled p (List.replicate width ' ' ++ text) ts := by
  refine Tiled.blanks (fun c member => ?_) ?_
  · rw [List.eq_of_mem_replicate member]
    rfl
  · rw [Position.after_of_not_mem (by simp), List.length_replicate]
    exact tiled

theorem exists_word {k : Kind} {w : List Char} {value : Option Literal} (isWord : IsWord k w value)
    (clear : Clear k text) (tiled : Tiled ⟨p.line, p.column + w.length⟩ text (us ++ [Token.ending q])) :
    ∃ t, Tiled p (w ++ text) (t :: us ++ [Token.ending q]) ∧ t.kind = k ∧ w = t.lexeme.toList ∧
      t.IsWord ∧ t.span.line = p.line := by
  rw [← Position.after_of_not_mem isWord.lineFeed_not_mem] at tiled
  refine ⟨_, .word isWord clear tiled, rfl, String.toList_ofList.symm, ?_, rfl⟩
  unfold Token.IsWord
  rwa [String.toList_ofList]

end Tiled

/-- A text has tokens from a place on, with which it is what stands at a spot. -/
def ReadsAs (atBreak : List Char → Prop) (spot : Spot) (n : Nat) (text : List Char) (p : Position) :
    Prop :=
  ∃ us q, Tiled p text (us ++ [Token.ending q]) ∧ Stands atBreak spot p.line n text us

theorem readsAs_finish {p : Position} {ts : List Token}
    (laid : LaidOut [.ofKind .endWord, .ofKind .semicolon, .newline] ts) :
    ReadsAs atBreak .first 1 (lastRow ++ ['\n']) p := by
  have closer : IsWord .endWord "zavrsi_igru".toList none := Kind.isWord_spelling (k := .endWord) rfl
  have mark : IsWord .semicolon ";".toList none := Kind.isWord_spelling (k := .semicolon) rfl
  have clear := laid.clear closer
  obtain ⟨vs, laid⟩ := laid.back
  obtain ⟨u, tiled, semicolon, markText, markWord, markLine⟩ :=
    Tiled.exists_word mark (laid.clear mark)
      (.blank rfl (.ending _) : Tiled _ ['\n'] ([] ++ [Token.ending _]))
  obtain ⟨t, tiled, finish, text, isWord, line⟩ := Tiled.exists_word (p := p) closer clear tiled
  have row : lastRow = t.lexeme.toList ++ (u.lexeme.toList ++ []) := by
    rw [← text, ← markText]
    rfl
  have tail : LineTail p.line 1 0 lastRow [t, u] := by
    rw [row]
    exact .word isWord line (by rw [finish]; rfl)
      (.word markWord markLine (by rw [semicolon]; rfl) (.nil _ 0))
  refine ⟨[t, u], _, tiled, .finish ⟨tail, t, [u], 0, _, rfl, row, ?_⟩⟩
  rw [finish]
  rfl

/-- The text of lined pieces that are the words of some tokens is a sheet, as it is read again. -/
theorem Lined.exists_sheet {atBreak : List Piece → Prop} {spot : Spot} {pieces : List Piece}
    {ts : List Token} (lined : Lined atBreak spot n pieces) (laid : LaidOut pieces ts) (p : Position) :
    ReadsAs (fun text => ∃ ps, atBreak ps ∧ text = pieceChars ps) spot n (pieceChars pieces) p := by
  -- What stands behind the first pieces is read from the place to which they lead.
  induction lined generalizing ts p with
  | finish => exact readsAs_finish laid
  | @blank pieces breaks back ih =>
    obtain ⟨vs, laid⟩ := laid.back
    obtain ⟨us, q, tiled, sheet⟩ := ih laid ⟨p.line + 1, 1⟩
    exact ⟨us, q, .blank rfl tiled, .blank ⟨pieces, breaks, rfl⟩ sheet⟩
  | flush back ih =>
    obtain ⟨us, q, tiled, within⟩ := ih laid p
    exact ⟨us, q, tiled, Within.sheet within⟩
  | @indent n pieces back ih =>
    obtain ⟨vs, laid⟩ := laid.back
    obtain ⟨us, q, tiled, within⟩ := ih laid ⟨p.line, p.column + 4 * n⟩
    rw [pieceChars_cons, Piece.text, Text.toList_copies]
    exact ⟨us, q, tiled.spaces, Within.sheet within⟩
  | @close n pieces back ih =>
    have brace : IsWord .rightBrace "\x7d".toList none := Kind.isWord_spelling (k := .rightBrace) rfl
    obtain ⟨vs, laid⟩ := laid.back
    have clear := laid.clear brace
    obtain ⟨vs, laid⟩ := laid.back
    obtain ⟨us, q, tiled, behind⟩ := ih laid ⟨p.line, p.column + 4 * n + 1⟩
    have behind : Behind _ p.line n (pieceChars pieces) us := behind
    obtain ⟨t, tiled, kind, spelled, isWord, line⟩ :=
      Tiled.exists_word (p := ⟨p.line, p.column + 4 * n⟩) brace clear tiled
    have piece : (Piece.ofKind .rightBrace).text.toList = t.lexeme.toList := spelled
    have indented : (n : Int) = (n + 1 : Nat) - t.kind.closesBlock.toNat := by
      rw [kind]
      simp [Kind.closesBlock]
    rw [spelled] at tiled
    rw [pieceChars_cons, Piece.text, Text.toList_copies, pieceChars_cons, piece]
    exact ⟨t :: us, q, tiled.spaces, behind.row isWord line (by rw [kind]; rfl) indented⟩
  | @word spot n k s value pieces inside isWord stays back ih =>
    have clear := laid.clear isWord
    obtain ⟨vs, laid⟩ := laid.back
    obtain ⟨us, q, tiled, behind⟩ := ih laid ⟨p.line, p.column + s.toList.length⟩
    obtain ⟨t, tiled, rfl, spelled, tokenWord, line⟩ := Tiled.exists_word isWord clear tiled
    have within : Within _ p.line n (s.toList ++ pieceChars pieces) (t :: us) :=
      ⟨t, us, pieceChars pieces, by rw [spelled], rfl, tokenWord, line, stays, behind⟩
    refine ⟨t :: us, q, tiled, ?_⟩
    cases spot with
    | first => exact inside.elim
    | within => exact within
    | behind => exact within.behind 0
  | space back ih =>
    obtain ⟨vs, laid⟩ := laid.back
    obtain ⟨us, q, tiled, within⟩ := ih laid ⟨p.line, p.column + 1⟩
    exact ⟨us, q, .blank rfl tiled, Within.behind 1 within⟩
  | newline back ih =>
    obtain ⟨vs, laid⟩ := laid.back
    obtain ⟨us, q, tiled, sheet⟩ := ih laid ⟨p.line + 1, 1⟩
    exact ⟨us, q, .blank rfl tiled, _, [], _, [], us, rfl, rfl, .nil _ _, sheet⟩

/-! ### Rows of a sheet -/

/-- The first token of a line starts its row, behind four spaces for each block that is open: those from
the beginning and those that the tokens above leave open, less one if the token closes one. -/
def Indents (n : Nat) (us : List Token) (line : Nat) (row : List Char) : Prop :=
  ∃ t depth others, us.find? (·.span.line = line) = some t ∧
    row = List.replicate (4 * depth) ' ' ++ (t.lexeme.toList ++ others) ∧
    (depth : Int) = n + leftOpen (us.filter (·.span.line < line)) - t.kind.closesBlock.toNat

theorem Row.indents {after : Nat} {row : List Char} {ts : List Token} (filled : Row line n after row ts)
    (below : ∀ u ∈ us, line < u.span.line) : Indents n (ts ++ us) line row := by
  obtain ⟨tail, t, others, depth, text, rfl, rfl, indented⟩ := filled
  have none : ((t :: others) ++ us).filter (·.span.line < line) = [] := by
    refine List.filter_eq_nil_iff.mpr fun u member => ?_
    rcases List.mem_append.mp member with here | later
    · simp [tail.placed u here]
    · have lower := below u later
      simp only [decide_eq_true_eq]
      omega
  refine ⟨t, depth, text, ?_, rfl, ?_⟩
  · simp [tail.placed t List.mem_cons_self]
  · rw [none, leftOpen_nil, Int.add_zero]
    exact indented

theorem Indents.above {after lower : Nat} {top row : List Char} {ts : List Token}
    (tail : LineTail line n after top ts) (below : line < lower) (indents : Indents after us lower row) :
    Indents n (ts ++ us) lower row := by
  obtain ⟨t, depth, others, found, split, indented⟩ := indents
  have absent : ts.find? (·.span.line = lower) = none := by
    refine List.find?_eq_none.mpr fun u member => ?_
    simp only [tail.placed u member, decide_eq_true_eq]
    omega
  have all : ts.filter (·.span.line < lower) = ts := by
    refine List.filter_eq_self.mpr fun u member => ?_
    simpa [tail.placed u member] using below
  refine ⟨t, depth, others, ?_, split, ?_⟩
  · rw [List.find?_append, absent, Option.none_or, found]
  · rw [List.filter_append, all, leftOpen_append, indented, tail.count]
    omega

namespace Sheet

theorem line_le (sheet : Sheet atBreak line n text us) : ∀ t ∈ us, line ≤ t.span.line := by
  induction sheet with
  | finish row => exact fun t member => Nat.le_of_eq (row.placed t member).symm
  | blank _ _ ih => exact fun t member => Nat.le_of_succ_le (ih t member)
  | row filled _ ih =>
    exact List.forall_mem_append.mpr ⟨fun t member => Nat.le_of_eq (filled.placed t member).symm,
      fun t member => Nat.le_of_succ_le (ih t member)⟩

/-- The rows of a sheet are all indented by what is open above them, or empty. -/
theorem exists_rows (sheet : Sheet atBreak line n text us) :
    ∃ rows, text = Text.ofRows rows ∧ (∀ row ∈ rows, '\n' ∉ row ∧ row.getLast? ≠ some ' ') ∧
      rows.getLast? = some lastRow ∧ ∀ i row, rows[i]? = some row →
        row = [] ∧ atBreak (Text.ofRows (rows.drop (i + 1))) ∨ Indents n us (line + i) row := by
  induction sheet with
  | finish row =>
    refine ⟨[lastRow], by simp, by simp [row.inLine, row.last], rfl, fun i top found => ?_⟩
    cases i with
    | zero =>
      obtain rfl : lastRow = top := Option.some.inj found
      have indents := row.indents (List.forall_mem_nil _)
      rw [List.append_nil] at indents
      exact .inr indents
    | succ i => cases found
  | @blank line text ts breaks below ih =>
    obtain ⟨rows, rfl, good, last, each⟩ := ih
    refine ⟨[] :: rows, by simp, by simpa using good, ?_, fun i top found => ?_⟩
    · rw [List.getLast?_cons, last]
      rfl
    cases i with
    | zero => exact .inl ⟨(Option.some.inj found).symm, breaks⟩
    | succ i =>
      have lower : line + 1 + i = line + (i + 1) := by omega
      exact lower ▸ each i top found
  | @row line n after row text ts us filled below ih =>
    obtain ⟨rows, rfl, good, last, each⟩ := ih
    refine ⟨row :: rows, by simp, ?_, ?_, fun i top found => ?_⟩
    · exact List.forall_mem_cons.mpr ⟨⟨filled.inLine, filled.last⟩, good⟩
    · rw [List.getLast?_cons, last]
      rfl
    cases i with
    | zero =>
      obtain rfl : row = top := Option.some.inj found
      exact .inr (filled.indents below.line_le)
    | succ i =>
      have lower : line + 1 + i = line + (i + 1) := by omega
      rcases each i top found with empty | indents
      · exact .inl empty
      · exact .inr (lower ▸ indents.above filled.toLineTail (by omega))

end Sheet

/-! ### Printed programs -/

/-- A printed program, read again, is rows of tokens. A row is empty behind a function only, and what
follows is the text of the items behind it. Every other row starts with a token, behind four spaces for
each block that the tokens in the rows above leave open, less one if the token closes a block. No row
ends in a space, no token leaves its row, and the last row ends the program. -/
theorem Source.print_indented {text : String} {s : Source} (read : Source.read text = .ok s) :
    ∃ us q rows, GameLang.tokens s.program.print = .ok (us ++ [Token.ending q]) ∧
      s.program.print.toList = Text.ofRows rows ∧
      (∀ row ∈ rows, '\n' ∉ row ∧ row.getLast? ≠ some ' ') ∧
      rows.getLast? = some "zavrsi_igru;".toList ∧
      (∀ t ∈ us, ∃ front back, rows[t.span.line - 1]? = some (front ++ (t.lexeme.toList ++ back)) ∧
        t.span.first = front.length + 1) ∧
      ∀ i row, rows[i]? = some row →
        (row = [] ∧ ∃ front f back, s.program.items = front ++ .function f :: back ∧
          Text.ofRows (rows.drop (i + 1)) = (Program.print ⟨back⟩).toList) ∨
        ∃ t depth others, us.find? (·.span.line = i + 1) = some t ∧
          row = List.replicate (4 * depth) ' ' ++ (t.lexeme.toList ++ others) ∧
          (depth : Int) = leftOpen (us.filter (·.span.line < i + 1)) -
            if t.kind.closesBlock then 1 else 0 := by
  obtain ⟨formed, ts, -, -, spelled⟩ := spelled_of_read read
  have lined := Program.lined formed (worded read)
  obtain ⟨us, q, tiled, sheet⟩ := lined.exists_sheet (Program.laidOut formed spelled) .start
  have sheet : Sheet _ 1 0 (pieceChars s.program.layout) us := sheet
  obtain ⟨rows, split, good, last, each⟩ := sheet.exists_rows
  have printed : s.program.print.toList = pieceChars s.program.layout := toList_pieceText _
  refine ⟨us, q, rows, ?_, printed.trans split, good, last, ?_, fun i row found => ?_⟩
  · rw [tokens_eq_ok_iff, printed]
    exact tiled
  · obtain ⟨words, r, same, areWords⟩ := tiled.exists_words
    obtain ⟨rfl, -⟩ := List.append_inj' same rfl
    rw [split] at tiled
    exact fun t member => tiled.exists_row (fun row inside => (good row inside).1) t
      (List.mem_append_left _ member) (areWords t member)
  · rcases each i row found with ⟨empty, pieces, ⟨front, f, back, items, rfl⟩, below⟩ |
      ⟨t, depth, others, first, split, indented⟩
    · exact .inl ⟨empty, front, f, back, items, below.trans (toList_pieceText _).symm⟩
    · refine .inr ⟨t, depth, others, Nat.add_comm 1 i ▸ first, split, ?_⟩
      rw [Nat.add_comm i 1]
      cases closes : t.kind.closesBlock <;> simpa [closes] using indented

theorem Source.print_indented_nested :
    let source := "broj f()\x7bradi(tacno)\x7bnapisi(\"\x7b\");\x7d\x7dzapocni_igru ako(tacno)\x7b;\x7d" ++
      "inace\x7b\x7dzavrsi_igru;"
    let printed := "broj f() \x7b\n    radi (tacno) \x7b\n        napisi(\"\x7b\");\n    \x7d\n\x7d\n\n" ++
      "zapocni_igru\n    ako (tacno) \x7b\n        ;\n    \x7d inace \x7b\n    \x7d\nzavrsi_igru;\n"
    ∃ s us q rows, Source.read source = .ok s ∧ s.program.print = printed ∧
      GameLang.tokens printed = .ok (us ++ [Token.ending q]) ∧ printed.toList = Text.ofRows rows ∧
      (∀ row ∈ rows, '\n' ∉ row ∧ row.getLast? ≠ some ' ') ∧
      ∀ i row, rows[i]? = some row → row ≠ [] →
        ∃ t depth others, us.find? (·.span.line = i + 1) = some t ∧
          row = List.replicate (4 * depth) ' ' ++ (t.lexeme.toList ++ others) ∧
          (depth : Int) = leftOpen (us.filter (·.span.line < i + 1)) -
            if t.kind.closesBlock then 1 else 0 := by
  intro source printed
  have shown : (Source.read source).map (·.program.print) = .ok printed := by decide +kernel
  obtain ⟨s, read, print⟩ := Source.exists_of_map_read shown
  obtain ⟨us, q, rows, lexed, split, good, -, -, each⟩ := Source.print_indented read
  rw [print] at lexed split
  refine ⟨s, us, q, rows, read, print, lexed, split, good, fun i row found some => ?_⟩
  rcases each i row found with ⟨empty, -⟩ | indented
  · exact absurd empty some
  · exact indented

end GameLang
