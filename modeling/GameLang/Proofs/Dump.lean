import GameLang.Command.Report
import GameLang.Proofs.Json.Phrase
import GameLang.Proofs.Lexing.Spelling
import GameLang.Proofs.Outline.Stmt
import GameLang.Proofs.Rows
import GameLang.Token.Dump

/-!
# Dumps are read back

A dump has a row for each token: columns that end where their spaces do, then the text of the token in
quotes. The text needs no escapes, since no quote continues the word in front of it (`Token.eq_of_row_eq`).
So a dump decides the tokens, and it ends at the first empty row of what the command writes
(`dump_readable`).
-/

namespace GameLang

open Lexer

/-! ### Line feeds in shown values -/

namespace Decimal

theorem lineFeed_not_mem_toDigits (n : Nat) : '\n' ∉ Nat.toDigits 16 n := by
  have digit (k : Nat) : Nat.digitChar k ≠ '\n' := Nat.digitChar_ne _ rfl
  induction n using Nat.strongRecOn with
  | ind n ih =>
    by_cases small : n < 16
    · simp [Nat.toDigits_of_lt_base small, (digit n).symm]
    · have less : n / 16 < n := Nat.div_lt_self (by omega) (by decide)
      rw [Nat.toDigits_of_base_le (by decide) (by omega)]
      simp [ih _ less, (digit (n % 16)).symm]

end Decimal

theorem Json.IsNumber.lineFeed_not_mem {w : List Char} (numeral : IsNumber w) : '\n' ∉ w := by
  cases numeral.proper with
  | plain nonempty inside => exact fun member => absurd (inside _ member) (by decide)

theorem Text.lineFeed_not_mem_escaped (quote c : Char) : '\n' ∉ escaped quote c := by
  unfold escaped
  by_cases feed : c = '\n'
  · simp [feed]
  · have digits := Decimal.lineFeed_not_mem_toDigits c.toNat
    repeat' split
    all_goals simp [codePointEscape, digits, Ne.symm feed]

theorem Literal.lineFeed_not_mem_shown (value : Literal) : '\n' ∉ value.shown.toList := by
  cases value with
  | int n => exact (Json.isNumber_shownInt n).lineFeed_not_mem
  | real x =>
    have finite : '\n' ∉ (realStyle.finite x).toList :=
      (Json.isNumber_finite (by decide) x).lineFeed_not_mem
    simp only [shown, shownReal]
    repeat' split
    all_goals first | exact finite | decide
  | bool b => cases b <;> decide
  | char c =>
    have inside := Text.lineFeed_not_mem_escaped '\'' c
    simp [shown, Text.quotedChar, inside]
  | text s =>
    have inside := Text.lineFeed_not_mem_escaped '"'
    simp [shown, Text.quotedText, inside]

/-! ### Columns -/

/-- A column ends where its spaces do. -/
theorem Text.column_append_inj {s t : String} {width : Nat} {back back' : List Char}
    (solid : ' ' ∉ s.toList) (solid' : ' ' ∉ t.toList) (stop : back.head? ≠ some ' ')
    (stop' : back'.head? ≠ some ' ')
    (same : (padRight s width).toList ++ ' ' :: back = (padRight t width).toList ++ ' ' :: back') :
    s = t ∧ back = back' := by
  have filled (s : String) (back : List Char) : (padRight s width).toList ++ ' ' :: back =
      s.toList ++ (List.replicate (width - s.length + 1) ' ' ++ back) := by
    simp [padRight, List.replicate_succ']
  have ended {back : List Char} (stop : back.head? ≠ some ' ') :
      back.head?.any (fun c => decide (c = ' ')) = false := by
    cases back with
    | nil => rfl
    | cons c back => simpa using stop
  rw [filled, filled] at same
  obtain ⟨first, same⟩ := run_append_inj (run_ne_iff.mpr solid) (run_ne_iff.mpr solid')
    (by simp [List.replicate_succ]) (by simp [List.replicate_succ]) same
  obtain ⟨-, behind⟩ :=
    run_append_inj (run_replicate _ ' ') (run_replicate _ ' ') (ended stop) (ended stop') same
  exact ⟨String.toList_inj.mp first, behind⟩

theorem Decimal.digitsOf_append_inj {m n : Nat} {back back' : List Char}
    (stop : back.head?.any Char.isDigit = false) (stop' : back'.head?.any Char.isDigit = false)
    (same : digitsOf m ++ back = digitsOf n ++ back') : m = n ∧ back = back' := by
  obtain ⟨digits, behind⟩ := run_append_inj (Json.isDigits_digitsOf m).2 (Json.isDigits_digitsOf n).2
    stop stop' same
  exact ⟨by rw [← ofDigits_digitsOf m, digits, ofDigits_digitsOf], behind⟩

namespace Span

theorem toList_shown (s : Span) : s.shown.toList = Decimal.digitsOf s.line ++ ':' ::
    (Decimal.digitsOf s.first ++ '-' :: Decimal.digitsOf s.last) := by
  simp [shown, Decimal.shownNat]

theorem shown_chars (s : Span) : ∀ c ∈ s.shown.toList, c ≠ ' ' ∧ c ≠ '\n' := by
  have digits (n : Nat) : ∀ c ∈ Decimal.digitsOf n, c ≠ ' ' ∧ c ≠ '\n' := by
    intro c member
    have digit := (Json.isDigits_digitsOf n).2 c member
    constructor
    · rintro rfl
      cases digit
    · rintro rfl
      cases digit
  rw [toList_shown]
  simp only [List.forall_mem_append, List.forall_mem_cons]
  exact ⟨digits _, by decide, digits _, by decide, digits _⟩

theorem shown_injective {s t : Span} (same : s.shown = t.shown) : s = t := by
  have same := congrArg String.toList same
  rw [toList_shown, toList_shown] at same
  obtain ⟨line, same⟩ := Decimal.digitsOf_append_inj rfl rfl same
  obtain ⟨first, same⟩ := Decimal.digitsOf_append_inj rfl rfl (List.cons.inj same).2
  have ends : Decimal.digitsOf s.last ++ [] = Decimal.digitsOf t.last ++ [] := by
    simpa using (List.cons.inj same).2
  obtain ⟨last, -⟩ := Decimal.digitsOf_append_inj rfl rfl ends
  cases s
  cases t
  rw [Span.mk.injEq]
  exact ⟨line, first, last⟩

end Span

namespace Kind

theorem name_injective {k l : Kind} (same : k.name = l.name) : k = l := by
  have found := ofName?_name k
  rw [same, ofName?_name] at found
  exact (Option.some.inj found).symm

theorem name_chars (k : Kind) :
    k.name.toList ≠ [] ∧ ∀ c ∈ k.name.toList, c ≠ ' ' ∧ c ≠ '\n' := by
  cases k <;> simp [name]

end Kind

/-! ### Rows -/

/-- A quote does not become part of a word in front of it. -/
theorem clear_of_apostrophe (k : Kind) (text : List Char) : Clear k ('\'' :: text) :=
  ⟨fun _ => rfl, fun _ => ⟨rfl, rfl⟩, fun _ => nofun, fun _ => nofun⟩

namespace Token

/-- A token of a text: a word, or the end. -/
def FromText (t : Token) : Prop := t.IsWord ∨ ∃ p, t = ending p

/-- What a row says behind the text of a token: the value, if there is one. -/
def shownValue (t : Token) : List Char :=
  match t.literal with
  | some value => ' ' :: '=' :: ' ' :: value.shown.toList
  | none => []

/-- The row of a token in a dump: its place and its kind in columns, its text in quotes, its value. -/
def row (t : Token) : List Char :=
  (Text.padRight t.span.shown 10).toList ++ ' ' :: ((Text.padRight t.kind.name 14).toList ++
    ' ' :: '\'' :: (t.lexeme.toList ++ '\'' :: t.shownValue))

theorem toList_dumpLine (t : Token) : t.dumpLine.toList = t.row ++ ['\n'] := by
  unfold dumpLine row shownValue
  cases t.literal with
  | none => simp
  | some value => simp

theorem row_ne_nil (t : Token) : t.row ≠ [] := by simp [row]

variable {t u : Token}

theorem FromText.lineFeed_not_mem (read : t.FromText) : '\n' ∉ t.lexeme.toList := by
  rcases read with isWord | ⟨p, rfl⟩
  · exact GameLang.IsWord.lineFeed_not_mem isWord
  · simp [ending, endLexeme]

theorem FromText.lineFeed_not_mem_row (read : t.FromText) : '\n' ∉ t.row := by
  have place : '\n' ∉ t.span.shown.toList := fun inside => (t.span.shown_chars _ inside).2 rfl
  have kind : '\n' ∉ t.kind.name.toList := fun inside => (t.kind.name_chars.2 _ inside).2 rfl
  have value : '\n' ∉ t.shownValue := by
    unfold shownValue
    cases t.literal with
    | none => simp
    | some value => simp [value.lineFeed_not_mem_shown]
  simp [row, Text.padRight, place, kind, value, read.lineFeed_not_mem]

theorem eq_of_row_eq (read : t.FromText) (other : u.FromText) (same : t.row = u.row) : t = u := by
  have place (t : Token) : ' ' ∉ t.span.shown.toList := fun inside => (t.span.shown_chars _ inside).1 rfl
  have solid (t : Token) : ' ' ∉ t.kind.name.toList := fun inside => (t.kind.name_chars.2 _ inside).1 rfl
  have named (t : Token) (back : List Char) :
      ((Text.padRight t.kind.name 14).toList ++ back).head? ≠ some ' ' := by
    obtain ⟨c, name, spelled⟩ := List.exists_cons_of_ne_nil t.kind.name_chars.1
    have first := (t.kind.name_chars.2 c (by simp [spelled])).1
    simp [Text.padRight, spelled, first]
  obtain ⟨span, same⟩ := Text.column_append_inj (place t) (place u) (named t _) (named u _) same
  obtain ⟨kind, same⟩ := Text.column_append_inj (solid t) (solid u) (by simp) (by simp) same
  have span : t.span = u.span := Span.shown_injective span
  have kind : t.kind = u.kind := Kind.name_injective kind
  rcases read with isWord | ⟨p, rfl⟩
  · rcases other with also | ⟨q, rfl⟩
    · obtain ⟨-, lexeme, literal, -⟩ := GameLang.IsWord.append_inj isWord (clear_of_apostrophe _ _) also
        (clear_of_apostrophe _ _) (List.cons.inj same).2
      cases t
      cases u
      rw [Token.mk.injEq]
      exact ⟨kind, String.toList_inj.mp lexeme, literal, span⟩
    · exact absurd kind (GameLang.IsWord.kind_ne_eof isWord)
  · rcases other with also | ⟨q, rfl⟩
    · exact absurd kind.symm (GameLang.IsWord.kind_ne_eof also)
    · have placed (p : Position) : ending p = ⟨.eof, endLexeme, none, (ending p).span⟩ := rfl
      rw [placed p, span, ← placed q]

end Token

theorem Tiled.fromText {p : Position} {text : List Char} {ts : List Token} (tiled : Tiled p text ts) :
    ∀ t ∈ ts, t.FromText := by
  obtain ⟨us, q, rfl, words⟩ := tiled.exists_words
  exact List.forall_mem_append.mpr ⟨fun t member => .inl (words t member),
    List.forall_mem_singleton.mpr (.inr ⟨q, rfl⟩)⟩

/-! ### Dumps -/

theorem toList_dump (ts : List Token) : (dump ts).toList = Text.ofRows (ts.map Token.row) := by
  simp [dump, Text.ofRows, List.flatMap_map, Token.toList_dumpLine]

theorem eq_of_dump_eq {ts us : List Token} (read : ∀ t ∈ ts, t.FromText)
    (other : ∀ u ∈ us, u.FromText) (same : dump ts = dump us) : ts = us := by
  have inRow {ts : List Token} (read : ∀ t ∈ ts, t.FromText) : ∀ row ∈ ts.map Token.row, '\n' ∉ row :=
    List.forall_mem_map.mpr fun t member => (read t member).lineFeed_not_mem_row
  have rows := congrArg String.toList same
  rw [toList_dump, toList_dump] at rows
  exact eq_of_map_eq (fun t member u among => Token.eq_of_row_eq (read t member) (other u among))
    (Text.ofRows_inj (inRow read) (inRow other) rows)

open Command in
/-- The dump of a text has a row for each token, none of them empty, and no other tokens of a text have
this dump. In front of a program that is written out, in whatever form, it ends at the first empty row
of all that is written, and what follows is what is written without a dump. -/
theorem dump_readable {source : String} {ts : List Token} (lexed : tokens source = .ok ts) :
    ((dump ts).toList = Text.ofRows (ts.map Token.row) ∧
      ∀ t ∈ ts, t.dumpLine.toList = t.row ++ ['\n'] ∧ t.row ≠ [] ∧ '\n' ∉ t.row) ∧
    (∀ other us, tokens other = .ok us → dump us = dump ts → us = ts) ∧
    ∀ p, Program.ofTokens ts = .ok p → ∀ o : Options, o.noTokens = false →
      let written := (Report.ofText o source).output
      let bare := (Report.ofText { o with noTokens := true } source).output
      written = dump ts ++ "\n" ++ bare ∧
        Text.EmptyRow written.toList (dump ts).toList bare.toList ∧
        ∀ front back, Text.EmptyRow written.toList front back →
          (dump ts).toList.length ≤ front.length := by
  have read := (tokens_eq_ok_iff.mp lexed).fromText
  refine ⟨⟨toList_dump ts, fun t member => ⟨t.toList_dumpLine, t.row_ne_nil,
    (read t member).lineFeed_not_mem_row⟩⟩, ?_, ?_⟩
  · intro other us lexedOther same
    exact eq_of_dump_eq (tokens_eq_ok_iff.mp lexedOther).fromText read same
  · intro p parsed o dumped written bare
    have whole : Source.read source = .ok ⟨ts, p⟩ := Source.read_eq_ok_iff.mpr ⟨lexed, parsed⟩
    have shown (o : Options) : (Report.ofText o source).output = o.render ⟨ts, p⟩ := by
      unfold Report.ofText
      rw [whole]
    have split : written = dump ts ++ "\n" ++ bare := by
      simp [written, bare, shown, Options.render, dumped]
    have rows : written.toList = Text.ofRows (ts.map Token.row) ++ '\n' :: bare.toList := by
      simp [split, toList_dump]
    rw [rows, toList_dump]
    refine ⟨split, Text.emptyRow_ofRows _ _, fun front back found => Text.emptyRow_first ?_ found⟩
    exact List.forall_mem_map.mpr fun t member => ⟨t.row_ne_nil, (read t member).lineFeed_not_mem_row⟩

open Command in
theorem dump_readable_quoted :
    let source := "zapocni_igru vrati \"' = \r\";zavrsi_igru;"
    let quoted : Token := ⟨.stringLiteral, "\"' = \r\"", some (.text "' = \r"), ⟨1, 20, 26⟩⟩
    ∃ ts, tokens source = .ok ts ∧ quoted ∈ ts ∧ '\n' ∉ quoted.row ∧
      (∀ other us, tokens other = .ok us → dump us = dump ts → us = ts) ∧
      Text.EmptyRow (Report.ofText ⟨"a.igra", .tree, false, true⟩ source).output.toList
        (dump ts).toList (Report.ofText ⟨"a.igra", .tree, true, true⟩ source).output.toList := by
  intro source quoted
  let word : Token := ⟨.returnWord, "vrati", none, ⟨1, 14, 18⟩⟩
  let opener : Token := ⟨.beginWord, "zapocni_igru", none, ⟨1, 1, 12⟩⟩
  let ts := [opener, word, quoted, ⟨.semicolon, ";", none, ⟨1, 27, 27⟩⟩,
    ⟨.endWord, "zavrsi_igru", none, ⟨1, 28, 38⟩⟩, ⟨.semicolon, ";", none, ⟨1, 39, 39⟩⟩,
    Token.ending ⟨1, 40⟩]
  have lexed : tokens source = .ok ts := by decide +kernel
  have parsed : Program.ofTokens ts =
      .ok ⟨[.stmt (.block ⟨opener, [.result word (.literal quoted (.text "' = \r"))]⟩)]⟩ := rfl
  have inside : quoted ∈ ts := by simp [ts]
  obtain ⟨rows, decides, output⟩ := dump_readable lexed
  exact ⟨ts, lexed, inside, (rows.2 quoted inside).2.2, decides,
    (output _ parsed ⟨"a.igra", .tree, false, true⟩ rfl).2.1⟩

end GameLang
