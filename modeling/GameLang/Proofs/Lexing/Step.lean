import GameLang.Proofs.Lexing.Word

/-!
# Steps of the lexer

Each part of the lexer takes a word that is clear of what follows, and nothing else
(`Lexer.step_eq_token` and `Lexer.exists_of_step`). Together they say what a step that finds a token
does (`Lexer.step_token_iff`).
-/

namespace GameLang

theorem mem_reservedWords {s : String} {r : Reserved} (found : reserved? s = some r) :
    (s, r) ∈ reservedWords := by
  obtain ⟨front, back, split, -⟩ := List.lookup_eq_some_iff.mp found
  rw [split]
  simp

theorem Reserved.isName_kind {s : String} {r : Reserved} (found : reserved? s = some r) :
    r.kind.isName = true := by
  have all : ∀ entry ∈ reservedWords, entry.2.kind.isName = true := by decide +kernel
  exact all _ (mem_reservedWords found)

namespace Lexer

variable {w v rest : List Char} {c c' : Cursor} {t : Token}

/-! ### Strings and characters -/

/-- The quotes are whole characters, so the slice between them is there. -/
theorem unquoted_quoted (body : List Char) :
    unquoted (String.ofList ('"' :: (body ++ ['"']))) = some (String.ofList body) := by
  have length : Text.byteLength ('"' :: (body ++ ['"'])) = 1 + Text.byteLength body + 1 := by
    rw [← List.singleton_append, Text.byteLength_append, Text.byteLength_append, ← Nat.add_assoc]
    rfl
  unfold unquoted
  rw [String.toList_ofList, length, Nat.add_sub_cancel]
  exact Text.byteSlice_append ['"'] body ['"']

theorem stringLiteral_closed (passed : List Char) {body : List Char}
    (inside : ∀ ch ∈ body, isStringPart ch = true) :
    stringLiteral (c.marked.pass passed (body ++ '"' :: v)) =
      token .stringLiteral ((unquoted (String.ofList (passed ++ (body ++ ['"'])))).map .text)
        (c.marked.pass (passed ++ (body ++ ['"'])) v) := by
  have stop : ('"' :: v).head?.any isStringPart = false := rfl
  unfold stringLiteral
  simp only [Cursor.advanceWhile_run inside stop, Cursor.advance_pass, List.append_assoc,
    Cursor.lexeme_marked_pass]
  exact if_pos rfl

theorem stringLiteral_eq {body : List Char} (inside : ∀ ch ∈ body, isStringPart ch = true) :
    stringLiteral (c.marked.pass ['"'] (body ++ '"' :: v)) =
      token .stringLiteral (some (.text (String.ofList body)))
        (c.marked.pass ('"' :: (body ++ ['"'])) v) := by
  rw [stringLiteral_closed ['"'] inside, List.singleton_append, unquoted_quoted]
  rfl

theorem exists_of_stringLiteral (read : stringLiteral (c.pass w rest) = (.token t, c')) :
    ∃ body v, rest = body ++ '"' :: v ∧ ∀ ch ∈ body, isStringPart ch = true := by
  obtain ⟨body, v, rfl, inside, stop⟩ := exists_run isStringPart rest
  unfold stringLiteral at read
  simp only [Cursor.advanceWhile_run inside stop, Cursor.peek_pass] at read
  by_cases quote : v.head? = some '"'
  · obtain ⟨v, rfl⟩ := List.head?_eq_some_iff.mp quote
    exact ⟨body, v, rfl, inside⟩
  · rw [if_neg quote] at read
    cases read

theorem charLiteral_eq {value : Char} (line : value ≠ '\n') (quote : value ≠ '\'') :
    charLiteral (c.pass w (value :: '\'' :: v)) =
      token .charLiteral (some (.char value)) (c.pass (w ++ [value, '\'']) v) := by
  unfold charLiteral
  simp only [Cursor.peek_pass, Cursor.advance_pass, List.head?_cons, if_neg line, if_neg quote,
    if_true, List.append_assoc, List.singleton_append]

theorem exists_of_charLiteral (read : charLiteral (c.pass w rest) = (.token t, c')) :
    ∃ value v, rest = value :: '\'' :: v ∧ value ≠ '\n' ∧ value ≠ '\'' := by
  cases rest with
  | nil => cases read
  | cons value rest =>
    unfold charLiteral at read
    simp only [Cursor.peek_pass, Cursor.advance_pass, List.head?_cons] at read
    by_cases line : value = '\n'
    · rw [if_pos line] at read
      cases read
    rw [if_neg line] at read
    by_cases quote : value = '\''
    · rw [if_pos quote] at read
      cases read
    rw [if_neg quote] at read
    cases rest with
    | nil => cases read
    | cons close v =>
      simp only [List.head?_cons] at read
      by_cases closed : close = '\''
      · subst closed
        exact ⟨value, v, rfl, line, quote⟩
      · rw [if_neg closed] at read
        split at read <;> cases read

/-! ### Numbers -/

theorem realLiteral_eq (clear : Clear .realLiteral v) :
    realLiteral (c.marked.pass w v) =
      token .realLiteral (some (.real (realValue w))) (c.marked.pass w v) := by
  unfold realLiteral
  rw [Cursor.passed_marked_pass, Cursor.peek_pass, (clear.number (.inr rfl)).2]
  rfl

theorem intLiteral_eq (clear : Clear .intLiteral v) (small : Decimal.ofDigits w < intLimit) :
    intLiteral (c.marked.pass w v) =
      token .intLiteral (some (.int (Decimal.ofDigits w))) (c.marked.pass w v) := by
  unfold intLiteral
  rw [Cursor.passed_marked_pass, Cursor.peek_pass, (clear.number (.inl rfl)).2]
  exact if_pos small

/-- A point with a digit after it is ahead. -/
theorem point_ahead_iff :
    (decide ((c.pass w v).peek = some '.') && (c.pass w v).peekSecond.any Char.isDigit) = true ↔
      v.head? = some '.' ∧ v.tail.head?.any Char.isDigit = true := by
  rw [Bool.and_eq_true, decide_eq_true_eq]
  rfl

theorem numberLiteral_int {run : List Char} (digits : ∀ ch ∈ run, ch.isDigit = true)
    (clear : Clear .intLiteral v) (small : Decimal.ofDigits (w ++ run) < intLimit) :
    numberLiteral (c.marked.pass w (run ++ v)) =
      token .intLiteral (some (.int (Decimal.ofDigits (w ++ run)))) (c.marked.pass (w ++ run) v) := by
  unfold numberLiteral
  rw [Cursor.advanceWhile_run digits (clear.number (.inl rfl)).1]
  dsimp only
  rw [if_neg, intLiteral_eq clear small]
  rw [point_ahead_iff]
  rintro ⟨point, digit⟩
  exact absurd digit (Bool.eq_false_iff.mp (clear.point rfl point))

theorem numberLiteral_real {run fraction : List Char} (digits : ∀ ch ∈ run, ch.isDigit = true)
    (decimals : ∀ ch ∈ fraction, ch.isDigit = true) (some : fraction ≠ [])
    (clear : Clear .realLiteral v) :
    numberLiteral (c.marked.pass w (run ++ '.' :: (fraction ++ v))) =
      token .realLiteral (Option.some (.real (realValue (w ++ (run ++ '.' :: fraction)))))
        (c.marked.pass (w ++ (run ++ '.' :: fraction)) v) := by
  have stop : ('.' :: (fraction ++ v)).head?.any Char.isDigit = false := rfl
  unfold numberLiteral
  rw [Cursor.advanceWhile_run digits stop]
  dsimp only
  rw [if_pos, Cursor.advance_pass,
    Cursor.advanceWhile_run decimals (clear.number (.inr rfl)).1, realLiteral_eq clear]
  · simp
  · cases fraction with
    | nil => exact (some rfl).elim
    | cons d fraction => exact point_ahead_iff.mpr ⟨rfl, decimals d List.mem_cons_self⟩

theorem exists_of_realLiteral (read : realLiteral (c.pass w v) = (.token t, c')) :
    v.head?.any Text.isAlphabetic = false := by
  unfold realLiteral at read
  rw [Cursor.peek_pass] at read
  cases letter : v.head?.any Text.isAlphabetic with
  | false => rfl
  | true =>
    rw [if_pos letter] at read
    cases read

theorem exists_of_intLiteral (read : intLiteral (c.marked.pass w v) = (.token t, c')) :
    v.head?.any Text.isAlphabetic = false ∧ Decimal.ofDigits w < intLimit := by
  unfold intLiteral at read
  rw [Cursor.passed_marked_pass, Cursor.peek_pass] at read
  cases letter : v.head?.any Text.isAlphabetic with
  | true =>
    rw [if_pos letter] at read
    cases read
  | false =>
    by_cases small : Decimal.ofDigits w < intLimit
    · exact ⟨rfl, small⟩
    · rw [letter] at read
      simp only [Bool.false_eq_true, if_false, if_neg small] at read
      cases read

theorem exists_of_numberLiteral (read : numberLiteral (c.marked.pass w rest) = (.token t, c')) :
    (∃ run v, rest = run ++ v ∧ (∀ ch ∈ run, ch.isDigit = true) ∧
      Decimal.ofDigits (w ++ run) < intLimit ∧ Clear .intLiteral v) ∨
    ∃ run fraction v, rest = run ++ '.' :: (fraction ++ v) ∧ (∀ ch ∈ run, ch.isDigit = true) ∧
      (∀ ch ∈ fraction, ch.isDigit = true) ∧ fraction ≠ [] ∧ Clear .realLiteral v := by
  obtain ⟨run, v, rfl, digits, runStop⟩ := exists_run Char.isDigit rest
  unfold numberLiteral at read
  rw [Cursor.advanceWhile_run digits runStop] at read
  dsimp only at read
  by_cases point : v.head? = some '.' ∧ v.tail.head?.any Char.isDigit = true
  · obtain ⟨v, rfl⟩ := List.head?_eq_some_iff.mp point.1
    obtain ⟨fraction, v, rfl, decimals, stop⟩ := exists_run Char.isDigit v
    rw [if_pos (point_ahead_iff.mpr point), Cursor.advance_pass,
      Cursor.advanceWhile_run decimals stop] at read
    have letter := exists_of_realLiteral read
    refine .inr ⟨run, fraction, v, rfl, digits, decimals, ?_, ?_⟩
    · rintro rfl
      exact absurd point.2 (Bool.eq_false_iff.mp stop)
    · exact ⟨fun name => absurd name (by decide), fun _ => ⟨stop, letter⟩,
        fun int => absurd int (by decide), fun comparison => absurd comparison (by decide)⟩
  · rw [if_neg (mt point_ahead_iff.mp point)] at read
    obtain ⟨letter, small⟩ := exists_of_intLiteral read
    refine .inl ⟨run, v, rfl, digits, small, ?_⟩
    exact ⟨fun name => absurd name (by decide), fun _ => ⟨runStop, letter⟩,
      fun _ next => Bool.eq_false_iff.mpr fun digit => point ⟨next, digit⟩,
      fun comparison => absurd comparison (by decide)⟩

/-! ### Names and reserved words -/

theorem word_eq_reserved {run : List Char} {r : Reserved}
    (parts : ∀ ch ∈ run, isWordPart ch = true) (stop : v.head?.any isWordPart = false)
    (found : reserved? (String.ofList (w ++ run)) = some r) :
    word (c.marked.pass w (run ++ v)) =
      token r.kind (r.value.map .bool) (c.marked.pass (w ++ run) v) := by
  unfold word
  rw [Cursor.advanceWhile_run parts stop]
  dsimp only
  rw [Cursor.lexeme_marked_pass, found]

theorem word_eq_ident {run : List Char} (parts : ∀ ch ∈ run, isWordPart ch = true)
    (stop : v.head?.any isWordPart = false) (free : reserved? (String.ofList (w ++ run)) = none) :
    word (c.marked.pass w (run ++ v)) = token .ident none (c.marked.pass (w ++ run) v) := by
  unfold word
  rw [Cursor.advanceWhile_run parts stop]
  dsimp only
  rw [Cursor.lexeme_marked_pass, free]

/-! ### Comparison characters -/

theorem accept_of_head (w v : List Char) (ch : Char) (c : Cursor) :
    (c.pass w (ch :: v)).accept ch = (true, c.pass (w ++ [ch]) v) := by
  have next : (c.pass w (ch :: v)).peek = some ch := rfl
  unfold Cursor.accept
  rw [if_pos next, Cursor.advance_pass]

theorem accept_of_head_ne {ch : Char} (different : v.head? ≠ some ch) (w : List Char) (c : Cursor) :
    (c.pass w v).accept ch = (false, c.pass w v) :=
  if_neg different

theorem mem_of_ofComparison? {ch : Char} {k extended : Kind}
    (known : Kind.ofComparison? ch = some (k, extended)) : k ∈ [.less, .greater, .assign, .bang] := by
  unfold Kind.ofComparison? at known
  split at known <;> cases known <;> decide

/-! ### Steps -/

/-- A step takes a word that is clear of what follows. -/
theorem step_eq_token {k : Kind} {first : Char} {value : Option Literal}
    (isWord : IsWord k (first :: w) value) (clear : Clear k v) :
    step first (c.marked.pass [first] (w ++ v)) = token k value (c.marked.pass (first :: w) v) := by
  cases isWord with
  | punctuation ch known text plain =>
    obtain ⟨rfl, rfl⟩ := List.cons.inj text
    rw [step_punctuation known, plain]
    rfl
  | comparison ch extended known text plain =>
    obtain ⟨rfl, rfl⟩ := List.cons.inj text
    have alone := clear.comparison (mem_of_ofComparison? known)
    rw [step_comparison known, List.nil_append, accept_of_head_ne alone, plain]
    rfl
  | extended ch alone known text plain =>
    obtain ⟨rfl, rfl⟩ := List.cons.inj text
    rw [step_comparison known, List.singleton_append, accept_of_head, plain]
    rfl
  | text body inside kind text known =>
    obtain ⟨rfl, rfl⟩ := List.cons.inj text
    rw [step_quote, List.append_assoc, kind, known]
    exact stringLiteral_eq inside
  | char ch line quote kind text known =>
    obtain ⟨rfl, rfl⟩ := List.cons.inj text
    rw [step_apostrophe, kind, known]
    exact charLiteral_eq line quote
  | int digits some small kind known =>
    subst kind
    rw [step_digit (digits first List.mem_cons_self), known]
    exact numberLiteral_int (fun ch member => digits ch (List.mem_cons_of_mem first member)) clear
      small
  | real whole fraction digits some decimals fractional kind text known =>
    subst kind
    cases whole with
    | nil => exact (some rfl).elim
    | cons d whole =>
      rw [List.cons_append] at text
      obtain ⟨rfl, rfl⟩ := List.cons.inj text
      rw [step_digit (digits first List.mem_cons_self), known, List.append_assoc]
      exact numberLiteral_real (fun ch member => digits ch (List.mem_cons_of_mem first member))
        decimals fractional clear
  | reserved r shape found kind known =>
    obtain ⟨_, _, text, start, parts⟩ := shape
    obtain ⟨rfl, rfl⟩ := List.cons.inj text
    rw [step_name start, kind, known]
    exact word_eq_reserved parts (clear.name (kind ▸ Reserved.isName_kind found)) found
  | name shape free kind plain =>
    obtain ⟨_, _, text, start, parts⟩ := shape
    obtain ⟨rfl, rfl⟩ := List.cons.inj text
    rw [step_name start, kind, plain]
    exact word_eq_ident parts (clear.name (kind ▸ rfl)) free

/-- Nothing can become part of a word of the kinds that are neither names, nor numbers, nor a
comparison character alone. -/
theorem clear_of_closed {k : Kind} (closed : k.isName = false ∧ k ≠ .intLiteral ∧ k ≠ .realLiteral ∧
    k ∉ [Kind.less, .greater, .assign, .bang]) (v : List Char) : Clear k v :=
  ⟨fun name => absurd name (Bool.eq_false_iff.mp closed.1),
    fun number => absurd number (not_or.mpr ⟨closed.2.1, closed.2.2.1⟩),
    fun int => absurd int closed.2.1, fun comparison => absurd comparison closed.2.2.2⟩

theorem clear_of_ofPunctuation? {ch : Char} {k : Kind} (known : Kind.ofPunctuation? ch = some k)
    (v : List Char) : Clear k v := by
  refine clear_of_closed ?_ v
  unfold Kind.ofPunctuation? at known
  split at known <;> cases known <;> decide

theorem clear_of_extended {ch : Char} {alone k : Kind}
    (known : Kind.ofComparison? ch = some (alone, k)) (v : List Char) : Clear k v := by
  refine clear_of_closed ?_ v
  unfold Kind.ofComparison? at known
  split at known <;> cases known <;> decide

theorem clear_of_alone {ch : Char} {k extended : Kind}
    (known : Kind.ofComparison? ch = some (k, extended)) (different : v.head? ≠ some '=') :
    Clear k v := by
  have other : k.isName = false ∧ k ≠ .intLiteral ∧ k ≠ .realLiteral := by
    unfold Kind.ofComparison? at known
    split at known <;> cases known <;> decide
  exact ⟨fun name => absurd name (Bool.eq_false_iff.mp other.1),
    fun number => absurd number (not_or.mpr other.2), fun int => absurd int other.2.1,
    fun _ => different⟩

theorem clear_of_isName {k : Kind} (name : k.isName = true) (stop : v.head?.any isWordPart = false) :
    Clear k v := by
  have other : k ≠ .intLiteral ∧ k ≠ .realLiteral ∧ k ∉ [Kind.less, .greater, .assign, .bang] := by
    cases k <;> first | decide | cases name
  exact ⟨fun _ => stop, fun number => absurd number (not_or.mpr ⟨other.1, other.2.1⟩),
    fun int => absurd int other.1, fun comparison => absurd comparison other.2.2⟩

/-- What a step takes for a token is a word that is clear of what follows. -/
theorem exists_of_step {first : Char}
    (read : step first (c.marked.pass [first] rest) = (.token t, c')) :
    ∃ k w v value, rest = w ++ v ∧ IsWord k (first :: w) value ∧ Clear k v := by
  -- The cases are those of the first character, in the order in which a step tells them apart.
  unfold step at read
  split at read
  · cases read
  split at read
  · rename_i k known
    exact ⟨k, [], rest, none, rfl, .punctuation first known rfl rfl, clear_of_ofPunctuation? known _⟩
  split at read
  · rename_i alone extended known
    by_cases equals : rest.head? = some '='
    · obtain ⟨v, rfl⟩ := List.head?_eq_some_iff.mp equals
      exact ⟨extended, ['='], v, none, rfl, .extended first alone known rfl rfl,
        clear_of_extended known v⟩
    · exact ⟨alone, [], rest, none, rfl, .comparison first extended known rfl rfl,
        clear_of_alone known equals⟩
  split at read
  · rename_i quote
    obtain ⟨body, v, rfl, inside⟩ := exists_of_stringLiteral read
    exact ⟨.stringLiteral, body ++ ['"'], v, _, by simp,
      .text body inside rfl (by rw [quote]) rfl, clear_of_closed (by decide) v⟩
  split at read
  · rename_i apostrophe
    obtain ⟨ch, v, rfl, line, quote⟩ := exists_of_charLiteral read
    exact ⟨.charLiteral, [ch, '\''], v, _, rfl, .char ch line quote rfl (by rw [apostrophe]) rfl,
      clear_of_closed (by decide) v⟩
  split at read
  · rename_i digit
    rcases exists_of_numberLiteral read with ⟨run, v, rfl, digits, small, clear⟩ |
      ⟨run, fraction, v, rfl, digits, decimals, some, clear⟩
    · exact ⟨.intLiteral, run, v, _, rfl, .int (List.forall_mem_cons.mpr ⟨digit, digits⟩)
        (List.cons_ne_nil _ _) small rfl rfl, clear⟩
    · exact ⟨.realLiteral, run ++ '.' :: fraction, v, _, by simp,
        .real (first :: run) fraction (List.forall_mem_cons.mpr ⟨digit, digits⟩)
          (List.cons_ne_nil _ _) decimals some rfl rfl rfl, clear⟩
  split at read
  · rename_i start
    obtain ⟨run, v, rfl, parts, stop⟩ := exists_run isWordPart rest
    cases found : reserved? (String.ofList (first :: run)) with
    | some r =>
      exact ⟨r.kind, run, v, _, rfl, .reserved r ⟨first, run, rfl, start, parts⟩ found rfl rfl,
        clear_of_isName (Reserved.isName_kind found) stop⟩
    | none =>
      exact ⟨.ident, run, v, _, rfl, .name ⟨first, run, rfl, start, parts⟩ found rfl rfl,
        clear_of_isName rfl stop⟩
  · cases read

/-- A step finds a token exactly where there is a word of its kind and value that is clear of what
follows. -/
theorem step_token_iff {first : Char} :
    step first (c.marked.pass [first] rest) = (.token t, c') ↔
      ∃ w v, rest = w ++ v ∧ IsWord t.kind (first :: w) t.literal ∧ Clear t.kind v ∧
        t.lexeme = String.ofList (first :: w) ∧ t.span = c'.span ∧
        c' = c.marked.pass (first :: w) v := by
  constructor
  · intro read
    obtain ⟨k, w, v, value, rfl, isWord, clear⟩ := exists_of_step read
    rw [step_eq_token isWord clear, token, Cursor.lexeme_marked_pass] at read
    cases read
    exact ⟨w, v, rfl, isWord, clear, rfl, rfl, rfl⟩
  · rintro ⟨w, v, rfl, isWord, clear, lexeme, span, rfl⟩
    rw [step_eq_token isWord clear, token, Cursor.lexeme_marked_pass, ← lexeme, ← span]

end Lexer

end GameLang
