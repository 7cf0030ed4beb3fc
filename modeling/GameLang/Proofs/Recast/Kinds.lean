import GameLang.Proofs.Lookahead.Prefix
import GameLang.Proofs.Recast.Reader

/-!
# Kinds decide how tokens are read

Two lists whose tokens look the same to a reader are both read as one tree of slots, filled with the
tokens of the one list or of the other (`Goal.read_of_look_eq`). A slot stands for the token at an
index, so the trees differ only in the tokens and values that stand at the same index of both lists.
-/

namespace GameLang

/-- What a reader asks of a token: its kind, and whether it has a value. -/
def Token.look (t : Token) : Kind × Bool := (t.kind, t.literal.isSome)

/-! ### Slots -/

/-- Stands for the token at an index, which has a look. Its value, if any, stands for the value of that
token. -/
def Token.slot (index : Nat) (look : Kind × Bool) : Token :=
  ⟨look.1, "", if look.2 then some (.int index) else none, ⟨index, 0, 0⟩⟩

/-- The slots for all tokens of a list. Only their looks count. -/
def Token.slots (ts : List Token) : List Token := (ts.map look).mapIdx slot

namespace Recast

variable (ts : List Token)

/-- The value of the token at the index for which a value stands. -/
def fillValue : Literal → Literal
  | .int (.ofNat index) => (ts[index]?.bind Token.literal).getD (.int index)
  | v => v

/-- The token at the index for which a slot stands. A token that is no slot of the list stays, with
its value filled. -/
def fillToken (t : Token) : Token :=
  match ts[t.span.line]? with
  | some u =>
    if t = Token.slot t.span.line u.look then u else { t with literal := t.literal.map (fillValue ts) }
  | none => { t with literal := t.literal.map (fillValue ts) }

variable {ts}

theorem fillToken_slot {index : Nat} {u : Token} (found : ts[index]? = some u) :
    fillToken ts (.slot index u.look) = u := by
  have found : ts[(Token.slot index u.look).span.line]? = some u := found
  rw [fillToken, found]
  exact if_pos rfl

theorem literal_slot {index : Nat} {u : Token} (found : ts[index]? = some u) :
    (Token.slot index u.look).literal.map (fillValue ts) = u.literal := by
  unfold Token.slot Token.look
  cases value : u.literal with
  | none => rfl
  | some v => simp [fillValue, found, value]

theorem kind_fillToken (t : Token) : (fillToken ts t).kind = t.kind := by
  unfold fillToken
  split
  · split
    · rename_i isSlot
      rw [isSlot]
      rfl
    · rfl
  · rfl

theorem literal_fillToken (t : Token) :
    (fillToken ts t).literal = t.literal.map (fillValue ts) := by
  unfold fillToken
  split
  · rename_i found
    split
    · rename_i isSlot
      rw [isSlot, literal_slot found]
    · rfl
  · rfl

theorem fillToken_ending : fillToken ts (Token.ending .start) = Token.ending .start := by
  unfold fillToken
  split
  · split
    · rename_i u _ isSlot
      have empty : Token.endLexeme = "" := congrArg Token.lexeme isSlot
      exact absurd empty (by decide)
    · rfl
  · rfl

variable (ts) in
/-- Puts the tokens of a list, and their values, into the slots for them. -/
def filling : Recast where
  token := fillToken ts
  value := fillValue ts
  kind_token := kind_fillToken
  literal_token := literal_fillToken
  token_ending := fillToken_ending

theorem slots_filled (ts : List Token) : (Token.slots ts).map (filling ts).token = ts := by
  apply List.ext_getElem?
  intro index
  cases found : ts[index]? with
  | none => simp [Token.slots, found]
  | some u =>
    have filled : (filling ts).token (.slot index u.look) = u := fillToken_slot found
    simpa [Token.slots, found] using filled

end Recast

/-! ### Readings of tokens with the same looks -/

namespace Goal

variable {goal : Goal} {ts rest : List Token}

theorem read_of_slots_ok {shape : Tree} (read : goal.read (Token.slots ts) = (.ok shape, rest)) :
    goal.read ts = (.ok (shape.recast (.filling ts)), rest.map (Recast.filling ts).token) := by
  have agree := goal.within_follows (r := .filling ts) nestingLimit (Token.slots ts)
  have accepted : goal.within nestingLimit (Token.slots ts) = .ok shape rest :=
    Reader.run_ok_iff.mp read
  rw [Recast.slots_filled, accepted] at agree
  cases filled : goal.within nestingLimit ts with
  | ok tree others =>
    rw [filled] at agree
    obtain ⟨rfl, rfl⟩ := agree
    exact Reader.run_ok_iff.mpr filled
  | fail cause others =>
    rw [filled] at agree
    exact agree.elim

theorem read_of_slots_error {e : SyntaxError}
    (failed : goal.read (Token.slots ts) = (.error e, rest)) :
    ∃ cause, goal.read ts = (.error ⟨cause, Reader.current (rest.map (Recast.filling ts).token)⟩,
      rest.map (Recast.filling ts).token) := by
  have agree := goal.within_follows (r := .filling ts) nestingLimit (Token.slots ts)
  obtain ⟨cause, failed, -⟩ := Reader.run_error_iff.mp failed
  have stopped : goal.within nestingLimit (Token.slots ts) = .fail cause rest := failed
  rw [Recast.slots_filled, stopped] at agree
  cases filled : goal.within nestingLimit ts with
  | ok tree others =>
    rw [filled] at agree
    exact agree.elim
  | fail other others =>
    rw [filled] at agree
    obtain rfl : others = _ := agree
    exact ⟨other, Reader.run_error_iff.mpr ⟨other, filled, rfl⟩⟩

theorem exists_drop (goal : Goal) (ts : List Token) :
    ∃ n ≤ ts.length, (goal.read ts).2 = ts.drop n := by
  have mirrors : Local Likeness.same (goal.within nestingLimit) := goal.within_local nestingLimit
  have suffix := (mirrors.passes ts).suffix
  have left : (goal.read ts).2 = (goal.within nestingLimit ts).rest := by
    unfold read Reader.run reader
    cases goal.within nestingLimit ts <;> rfl
  rw [← left] at suffix
  exact ⟨_, Nat.sub_le _ _, List.suffix_iff_eq_drop.mp suffix⟩

theorem drop_slots (ts : List Token) (n : Nat) :
    ((Token.slots ts).drop n).map (Recast.filling ts).token = ts.drop n := by
  rw [List.map_drop, Recast.slots_filled]

/-- Tokens with the same looks are read alike for every goal. Either both are read after the same
number of tokens, as the tree that their common slots are read as, filled with the ones or the others;
or reading stops behind the same number of tokens, at those that come next. -/
theorem read_of_look_eq (goal : Goal) {as bs : List Token}
    (same : as.map Token.look = bs.map Token.look) :
    ∃ n ≤ as.length,
      (∃ shape, goal.read (Token.slots as) = (.ok shape, (Token.slots as).drop n) ∧
        goal.read as = (.ok (shape.recast (.filling as)), as.drop n) ∧
        goal.read bs = (.ok (shape.recast (.filling bs)), bs.drop n)) ∨
      ∃ cause other,
        goal.read as = (.error ⟨cause, Reader.current (as.drop n)⟩, as.drop n) ∧
        goal.read bs = (.error ⟨other, Reader.current (bs.drop n)⟩, bs.drop n) := by
  -- Both lists fill the same slots, so the reading of the slots decides both of theirs.
  have slots : Token.slots as = Token.slots bs := congrArg (List.mapIdx Token.slot) same
  obtain ⟨n, within, left⟩ := goal.exists_drop (Token.slots as)
  have length : (Token.slots as).length = as.length := by simp [Token.slots]
  refine ⟨n, length ▸ within, ?_⟩
  cases result : (goal.read (Token.slots as)).1 with
  | ok shape =>
    have read : goal.read (Token.slots as) = (.ok shape, (Token.slots as).drop n) :=
      Prod.ext result left
    have first := read_of_slots_ok read
    have second := read_of_slots_ok (slots ▸ read)
    rw [drop_slots] at first second
    exact .inl ⟨shape, read, first, second⟩
  | error e =>
    have failed : goal.read (Token.slots as) = (.error e, (Token.slots as).drop n) :=
      Prod.ext result left
    obtain ⟨cause, first⟩ := read_of_slots_error failed
    obtain ⟨other, second⟩ := read_of_slots_error (slots ▸ failed)
    rw [drop_slots] at first second
    exact .inr ⟨cause, other, first, second⟩

theorem read_of_look_eq_sum :
    let one : Token := ⟨.intLiteral, "1", some (.int 1), ⟨1, 1, 1⟩⟩
    let other : Token := { one with lexeme := "?", literal := some (.text "") }
    let plus : Token := ⟨.plus, "+", none, ⟨1, 2, 2⟩⟩
    let name : Token := ⟨.ident, "x", none, ⟨1, 3, 3⟩⟩
    let otherName : Token := { name with lexeme := "y" }
    let as := [one, plus, name, Token.ending ⟨1, 4⟩]
    let bs := [other, plus, otherName, Token.ending ⟨7, 1⟩]
    let shape : Tree := .expression (.binary (.literal (.slot 0 one.look) (.int 0)) .add
      (.slot 1 plus.look) (.ident (.slot 2 name.look)))
    as.map Token.look = bs.map Token.look ∧
      shape.recast (.filling as) =
        .expression (.binary (.literal one (.int 1)) .add plus (.ident name)) ∧
      shape.recast (.filling bs) =
        .expression (.binary (.literal other (.text "")) .add plus (.ident otherName)) ∧
      expression.read as = (.ok (shape.recast (.filling as)), as.drop 3) ∧
      expression.read bs = (.ok (shape.recast (.filling bs)), bs.drop 3) := by
  intro one other plus name otherName as bs shape
  have same : as.map Token.look = bs.map Token.look := rfl
  have read : expression.read (Token.slots as) = (.ok shape, (Token.slots as).drop 3) := rfl
  obtain ⟨n, within, ⟨again, readAgain, first, second⟩ | ⟨cause, fault, failed, -⟩⟩ :=
    read_of_look_eq expression same
  · rw [read] at readAgain
    obtain ⟨result, left⟩ := Prod.mk.inj readAgain
    obtain rfl : shape = again := Except.ok.inj result
    have three : n = 3 := by
      have lengths := congrArg List.length left
      have four : (Token.slots as).length = 4 := rfl
      have within : n ≤ 4 := within
      rw [List.length_drop, List.length_drop, four] at lengths
      omega
    rw [three] at first second
    exact ⟨same, rfl, rfl, first, second⟩
  · have success : expression.read as = (.ok (shape.recast (.filling as)), as.drop 3) := rfl
    rw [success] at failed
    cases failed

end Goal

end GameLang
