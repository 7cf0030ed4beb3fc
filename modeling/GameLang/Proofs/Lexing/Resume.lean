import GameLang.Proofs.Lexing.Tiles
import GameLang.Proofs.Lexing.Verdict

/-!
# Reading on behind an error

A cursor that stopped at an error can be read on from. Each call then gives what the text ahead gives
alone, with its places shifted (`Lexer.tokenize_eq_shifted`), and passes a stretch of tokens, blanks and
the text of the error. The stretches of all calls are the whole text (`tokenizeTimes_stretches`).
-/

namespace GameLang

open Lexer

/-! ### Shifted places -/

/-- A place of a text, if the text starts at another place: the lines count from there, and so do the
columns of the first line. -/
def Position.shift (p base : Position) : Position :=
  if p.line = 1 then ⟨base.line, base.column + p.column - 1⟩ else ⟨base.line + p.line - 1, p.column⟩

def Span.shift (s : Span) (base : Position) : Span :=
  if s.line = 1 then ⟨base.line, base.column + s.first - 1, base.column + s.last - 1⟩
  else ⟨base.line + s.line - 1, s.first, s.last⟩

def Token.shift (t : Token) (base : Position) : Token := { t with span := t.span.shift base }

def LexicalError.shift (e : LexicalError) (base : Position) : LexicalError :=
  { e with place := e.place.shift base }

def Position.Counted (p : Position) : Prop := 0 < p.line ∧ 0 < p.column

namespace Position

variable {p base : Position}

theorem counted_start : start.Counted := ⟨Nat.one_pos, Nat.one_pos⟩

theorem Counted.next (counted : p.Counted) (c : Char) : (p.next c).Counted := by
  unfold Position.next
  split
  · exact ⟨Nat.succ_pos _, Nat.one_pos⟩
  · exact ⟨counted.1, Nat.succ_pos _⟩

theorem Counted.after (counted : p.Counted) (text : List Char) : (p.after text).Counted := by
  induction text generalizing p with
  | nil => exact counted
  | cons c text ih => exact ih (counted.next c)

theorem shift_next (counted : p.Counted) (c : Char) (base : Position) :
    (p.next c).shift base = (p.shift base).next c := by
  obtain ⟨line, column⟩ := counted
  by_cases lineFeed : c = '\n'
  · by_cases first : p.line = 1
    · simp [Position.next, shift, lineFeed, first]
    · have later : p.line + 1 ≠ 1 := by omega
      have lines : base.line + (p.line + 1) - 1 = base.line + p.line - 1 + 1 := by omega
      simp only [Position.next, shift, if_pos lineFeed, if_neg first, if_neg later, lines]
  · by_cases first : p.line = 1
    · have columns : base.column + (p.column + 1) - 1 = base.column + p.column - 1 + 1 := by omega
      simp only [Position.next, shift, if_neg lineFeed, if_pos first, columns]
    · simp only [Position.next, shift, if_neg lineFeed, if_neg first]

theorem shift_after (counted : p.Counted) (text : List Char) (base : Position) :
    (p.after text).shift base = (p.shift base).after text := by
  induction text generalizing p with
  | nil => rfl
  | cons c text ih => rw [after_cons, ih (counted.next c), shift_next counted, after_cons]

end Position

theorem Span.over_shift {p : Position} {w : List Char} (inLine : '\n' ∉ w) (some : w ≠ [])
    (counted : p.Counted) (base : Position) :
    (Span.over p w).shift base = Span.over (p.shift base) w := by
  obtain ⟨-, column⟩ := counted
  rw [over_of_not_mem inLine some, over_of_not_mem inLine some]
  by_cases first : p.line = 1
  · have last : base.column + (p.column + w.length - 1) - 1 =
        base.column + p.column - 1 + w.length - 1 := by omega
    simp only [Span.shift, Position.shift, if_pos first, last]
  · simp only [Span.shift, Position.shift, if_neg first]

theorem Token.ending_shift (p base : Position) :
    (Token.ending p).shift base = Token.ending (p.shift base) := by
  by_cases first : p.line = 1
  · simp [Token.ending, Token.shift, Span.shift, Position.shift, first]
  · simp [Token.ending, Token.shift, Span.shift, Position.shift, first]

/-- A text is cut into the same words wherever it starts. -/
theorem Tiled.shift {p : Position} {text : List Char} {ts : List Token} (tiled : Tiled p text ts)
    (counted : p.Counted) (base : Position) :
    Tiled (p.shift base) text (ts.map fun t => t.shift base) := by
  induction tiled with
  | ending p =>
    rw [List.map_singleton, Token.ending_shift]
    exact .ending _
  | @blank p c text ts blank tiled ih =>
    have tiled := ih (counted.next c)
    rw [Position.shift_next counted] at tiled
    exact .blank blank tiled
  | @word p k w v value ts isWord clear tiled ih =>
    have tiled := ih (counted.after w)
    rw [Position.shift_after counted] at tiled
    have span := Span.over_shift isWord.lineFeed_not_mem isWord.ne_nil counted base
    rw [List.map_cons, Token.shift, span]
    exact .word isWord clear tiled

namespace Lexer

/-- The result of reading a text that starts at another place. -/
def shifted (base : Position) : Except LexicalError (List Token) → Except LexicalError (List Token)
  | .ok ts => .ok (ts.map fun t => t.shift base)
  | .error e => .error (e.shift base)

/-- A call gives what the text ahead gives alone, with its places shifted to that of the cursor. -/
theorem tokenize_eq_shifted (c : Cursor) :
    (tokenize c).1 = shifted c.here (tokens (String.ofList c.rest)) := by
  have fresh : (Cursor.ofString (String.ofList c.rest)).rest = c.rest := String.toList_ofList
  unfold tokens tokenize
  rcases tokenizeFrom_decided c.rest with whole | ⟨front, w, v, cause, -, -, stopped⟩
  · obtain ⟨ts, tiled, ends⟩ := whole (.ofString (String.ofList c.rest)) [] fresh
    have moved : Tiled c.here c.rest (ts.map fun t => t.shift c.here) :=
      tiled.shift Position.counted_start c.here
    rw [ends, tokenizeFrom_of_tiled moved rfl rfl]
    rfl
  · have place : (Position.start.after front).shift c.here = c.here.after front :=
      Position.shift_after Position.counted_start front c.here
    rw [(stopped c [] rfl).2, (stopped _ [] fresh).2]
    show _ = Except.error (LexicalError.mk cause ((Position.start.after front).shift c.here) _)
    rw [place]

end Lexer

/-! ### What one call passes -/

/-- Words with blanks in front of them, then more blanks, then the text of an error or nothing. -/
structure Stretch where
  tiles : List Tile
  blanks : List Char
  snippet : String

namespace Stretch

def front (s : Stretch) : List Char := s.tiles.flatMap Tile.text ++ s.blanks

def text (s : Stretch) : List Char := s.front ++ s.snippet.toList

/-- A call that starts at a place passes a stretch and gives a result. The words are those that the
part that can be read has alone. -/
structure Reads (s : Stretch) (p : Position) (result : Except LexicalError (List Token)) : Prop where
  proper : ∀ tile ∈ s.tiles, tile.Proper
  blank : ∀ c ∈ s.blanks, isBlank c = true
  placed : Tile.Placed p s.tiles
  words : shifted p (tokens (String.ofList s.front)) =
    .ok (s.tiles.map Tile.token ++ [Token.ending (p.after s.front)])
  ok : ∀ ts, result = .ok ts →
    s.snippet = "" ∧ ts = s.tiles.map Tile.token ++ [Token.ending (p.after s.front)]
  error : ∀ e, result = .error e →
    s.snippet ≠ "" ∧ e.snippet = s.snippet ∧ e.place = p.after s.front

end Stretch

theorem Tiled.shifted_tokens {p : Position} {text : List Char} {ts : List Token}
    (tiled : Tiled p text ts) : shifted p (tokens (String.ofList text)) = .ok ts := by
  have alone := tokenize_eq_shifted ⟨text, p, [], p⟩
  rw [← alone]
  exact tokenizeFrom_of_tiled tiled rfl rfl []

namespace Lexer

/-- A call passes a stretch, and all of the text ahead if it succeeds. -/
theorem exists_stretch (c : Cursor) :
    ∃ s : Stretch, s.Reads c.here (tokenize c).1 ∧ c.rest = s.text ++ (tokenize c).2.rest ∧
      (tokenize c).2.here = c.here.after s.text ∧
      ((tokenize c).1.isOk = true → (tokenize c).2.rest = []) := by
  unfold tokenize
  rcases tokenizeFrom_decided c.rest with whole | ⟨front, w, v, cause, split, some, stopped⟩
  · obtain ⟨ts, tiled, ends⟩ := whole c [] rfl
    obtain ⟨tiles, blanks, text, all, proper, blank, placed⟩ := tiled.exists_tiles
    have same : (Stretch.mk tiles blanks "").front = c.rest := text.symm
    rw [ends]
    refine ⟨⟨tiles, blanks, ""⟩, ⟨proper, blank, placed, ?_, ?_, ?_⟩, ?_, ?_, ?_⟩
    · rw [same, tiled.shifted_tokens, all]
    · intro us given
      cases given
      rw [same]
      exact ⟨rfl, all⟩
    · intro e given
      cases given
    · simp [Stretch.text, same, Cursor.marked]
    · simp [Stretch.text, same, Cursor.marked, Cursor.pass]
    · intro _
      rfl
  · obtain ⟨⟨ts, tiled⟩, ends⟩ := stopped c [] rfl
    obtain ⟨tiles, blanks, text, all, proper, blank, placed⟩ := tiled.exists_tiles
    have same : (Stretch.mk tiles blanks (String.ofList w)).front = front := text.symm
    rw [ends]
    refine ⟨⟨tiles, blanks, String.ofList w⟩, ⟨proper, blank, placed, ?_, ?_, ?_⟩, ?_, ?_, ?_⟩
    · rw [same, tiled.shifted_tokens, all]
    · intro us given
      cases given
    · intro e given
      cases given
      rw [same]
      refine ⟨fun empty => some ?_, rfl, rfl⟩
      have empty : String.ofList w = "" := empty
      rw [← String.toList_ofList (l := w), empty]
      rfl
    · simp [Stretch.text, same, split]
    · simp [Stretch.text, same, Cursor.marked, Cursor.pass, Position.after_append]
    · intro ok
      cases ok

/-! ### Call after call -/

def after : Nat → Cursor → Cursor
  | 0, c => c
  | times + 1, c => after times (tokenize c).2

variable {n times : Nat}

theorem length_tokenizeTimes (times : Nat) (c : Cursor) : (tokenizeTimes times c).length = times := by
  induction times generalizing c with
  | zero => rfl
  | succ times ih => rw [tokenizeTimes, List.length_cons, ih]

theorem getElem?_tokenizeTimes (within : n < times) (c : Cursor) :
    (tokenizeTimes times c)[n]? = some (tokenize (after n c)).1 := by
  induction times generalizing n c with
  | zero => exact absurd within (Nat.not_lt_zero n)
  | succ times ih =>
    cases n with
    | zero => rfl
    | succ n => exact ih (Nat.lt_of_succ_lt_succ within) (tokenize c).2

/-- The calls pass one stretch after the other. -/
theorem exists_stretches (times : Nat) (c : Cursor) :
    ∃ stretches : List Stretch, stretches.length = times ∧
      c.rest = stretches.flatMap Stretch.text ++ (after times c).rest ∧
      ∀ done s others, stretches = done ++ s :: others →
        (after done.length c).rest =
          s.text ++ (others.flatMap Stretch.text ++ (after times c).rest) ∧
        (after done.length c).here = c.here.after (done.flatMap Stretch.text) ∧
        s.Reads (after done.length c).here (tokenize (after done.length c)).1 := by
  induction times generalizing c with
  | zero => exact ⟨[], rfl, rfl, by simp⟩
  | succ times ih =>
    obtain ⟨first, reads, rest, here, -⟩ := exists_stretch c
    obtain ⟨stretches, length, tiled, each⟩ := ih (tokenize c).2
    have split : c.rest = first.text ++ (stretches.flatMap Stretch.text ++ (after (times + 1) c).rest) := by
      rw [rest, tiled]
      rfl
    refine ⟨first :: stretches, by rw [List.length_cons, length], ?_, ?_⟩
    · rw [split, List.flatMap_cons, List.append_assoc]
    · intro done s others cut
      cases done with
      | nil =>
        obtain ⟨rfl, rfl⟩ := List.cons.inj cut
        exact ⟨split, rfl, reads⟩
      | cons _ done =>
        obtain ⟨rfl, rfl⟩ := List.cons.inj cut
        obtain ⟨ahead, place, reads⟩ := each done s others rfl
        refine ⟨ahead, ?_, reads⟩
        rw [List.flatMap_cons, Position.after_append, ← here]
        exact place

/-- A call that fails passes a character. -/
theorem rest_lt_of_not_isOk {c : Cursor} (failed : (tokenize c).1.isOk = false) :
    (tokenize c).2.rest.length < c.rest.length := by
  obtain ⟨s, reads, rest, -, -⟩ := exists_stretch c
  cases given : (tokenize c).1 with
  | ok ts =>
    rw [given] at failed
    cases failed
  | error e =>
    have some := (reads.error e given).1
    have positive : 0 < s.snippet.toList.length := by
      rw [List.length_pos_iff]
      simpa using some
    rw [rest, Stretch.text, List.length_append, List.length_append]
    omega

theorem countP_tokenizeTimes_le (times : Nat) (c : Cursor) :
    (tokenizeTimes times c).countP (fun result => !result.isOk) + (after times c).rest.length ≤
      c.rest.length := by
  induction times generalizing c with
  | zero => simp [tokenizeTimes, after]
  | succ times ih =>
    have later := ih (tokenize c).2
    rw [tokenizeTimes, List.countP_cons, after]
    cases ok : (tokenize c).1.isOk with
    | false =>
      have passed := rest_lt_of_not_isOk ok
      simp only [Bool.not_false, if_true]
      omega
    | true =>
      obtain ⟨s, -, rest, -, -⟩ := exists_stretch c
      rw [rest, List.length_append]
      simp only [Bool.not_true, Bool.false_eq_true, if_false]
      omega

/-- At the end of the text each call gives the end token. -/
theorem eq_of_ended {c : Cursor} (ended : c.rest = []) :
    (after times c).rest = [] ∧ ∀ result ∈ tokenizeTimes times c, result = .ok [Token.ending c.here] := by
  induction times generalizing c with
  | zero => exact ⟨ended, by simp [tokenizeTimes]⟩
  | succ times ih =>
    have once : tokenize c = (.ok [Token.ending c.here], c.marked) := tokenizeFrom_nil ended []
    obtain ⟨stays, later⟩ := ih (c := c.marked) ended
    rw [tokenizeTimes, after, once]
    exact ⟨stays, List.forall_mem_cons.mpr ⟨rfl, later⟩⟩

/-- The first call that succeeds reads the text to its end. -/
theorem ended_of_ok {c : Cursor} {front back : List (Except LexicalError (List Token))} {ts : List Token}
    (split : tokenizeTimes times c = front ++ .ok ts :: back) :
    (after times c).rest = [] ∧ ∀ result ∈ back, result = .ok [Token.ending (c.here.after c.rest)] := by
  induction times generalizing c front with
  | zero => simp [tokenizeTimes] at split
  | succ times ih =>
    obtain ⟨s, -, rest, here, ended⟩ := exists_stretch c
    rw [tokenizeTimes] at split
    cases front with
    | nil =>
      obtain ⟨first, rfl⟩ := List.cons.inj split
      have ended := ended (by rw [first]; rfl)
      have place : (tokenize c).2.here = c.here.after c.rest := by
        rw [here, rest, ended, List.append_nil]
      rw [← place]
      exact eq_of_ended ended
    | cons _ front =>
      obtain ⟨-, split⟩ := List.cons.inj split
      obtain ⟨stays, later⟩ := ih split
      refine ⟨stays, ?_⟩
      rw [rest, Position.after_append, ← here]
      exact later

end Lexer

/-- However often a text is read on, its beginning is one stretch for each call: words, blanks and the
text of the error, which is not empty. A call starts behind the stretches of the calls before it and
gives what the text ahead gives alone, with shifted places. No more calls fail than the text has
characters, and behind a call that does not fail the stretches are the whole text, and all calls give
the end token. -/
theorem tokenizeTimes_stretches (source : String) (times : Nat) :
    ∃ stretches : List Stretch,
      let results := tokenizeTimes times (.ofString source)
      let ahead := fun n => (after n (.ofString source)).rest
      stretches.length = times ∧ results.length = times ∧
      source.toList = stretches.flatMap Stretch.text ++ ahead times ∧
      (∀ done s others, stretches = done ++ s :: others →
        let place := Position.behind (done.flatMap Stretch.text)
        let result := shifted place (tokens (String.ofList (ahead done.length)))
        ahead done.length = s.text ++ (others.flatMap Stretch.text ++ ahead times) ∧
        results[done.length]? = some result ∧ s.Reads place result) ∧
      results.countP (fun result => !result.isOk) ≤ source.length ∧
      ∀ front ts back, results = front ++ .ok ts :: back → ahead times = [] ∧
        ∀ result ∈ back, result = .ok [Token.ending (.behind source.toList)] := by
  obtain ⟨stretches, length, tiled, each⟩ := exists_stretches times (.ofString source)
  refine ⟨stretches, length, length_tokenizeTimes times _, tiled, ?_, ?_, ?_⟩
  · intro done s others cut place result
    obtain ⟨rest, here, reads⟩ := each done s others cut
    have here : (after done.length (.ofString source)).here = place :=
      here.trans (Position.after_start _)
    have within : done.length < times := by
      rw [← length, cut, List.length_append, List.length_cons]
      omega
    rw [tokenize_eq_shifted, here] at reads
    refine ⟨rest, ?_, reads⟩
    rw [getElem?_tokenizeTimes within, tokenize_eq_shifted, here]
  · have bound := countP_tokenizeTimes_le times (.ofString source)
    have all : (Cursor.ofString source).rest.length = source.length := String.length_toList
    omega
  · intro front ts back split
    have ended := ended_of_ok split
    rw [← Position.after_start]
    exact ended

example : tokenizeTimes 3 (.ofString "\"a\n 7") =
    [.error ⟨.unterminatedString, ⟨1, 1⟩, "\"a"⟩,
      .ok [⟨.intLiteral, "7", some (.int 7), ⟨2, 2, 2⟩⟩, Token.ending ⟨2, 3⟩],
      .ok [Token.ending ⟨2, 3⟩]] := by
  decide +kernel

end GameLang
