import GameLang.Proofs.Soundness.Basic

/-!
# Readers look one token ahead

What a reader does is decided by the tokens up to the one where it stops, and mostly by their kinds.
`Beside` puts two lists of tokens side by side, up to and including the token where reading stops in
the first of them. `Mirrors` says that a reader stops there in the second one too, with a like outcome.
Each lemma adds one step; `Mirrors.many` does so for all rounds of a loop.
-/

namespace GameLang

/-- How two readings may differ: in their tokens, which have the same kinds, and in their causes. The
second may give up early for some causes, where its literals have no values. -/
structure Likeness where
  token : Token → Token → Prop
  cause : Cause → Cause → Prop
  quits : Cause → Prop
  token_refl : ∀ t, token t t
  kind_eq : ∀ {t u}, token t u → u.kind = t.kind
  cause_refl : ∀ c, cause c c
  cause_word : ∀ {t u} (k : Kind) (place : String → Place), token t u →
    cause (.missing k (place t.lexeme)) (.missing k (place u.lexeme))
  literal : ∀ {t u}, token t u → t.kind.isLiteral = true →
    u.literal.isSome = t.literal.isSome ∨ u.literal = none ∧ quits .missingValue

instance Likeness.refl_token (like : Likeness) : Std.Refl like.token := ⟨like.token_refl⟩

/-- Values that may differ in any way. -/
def Free {α : Type} (_ _ : α) : Prop := True

instance Free.refl {α : Type} : Std.Refl (Free (α := α)) := ⟨fun _ => trivial⟩

instance Likeness.refl_option {α : Type} (V : α → α → Prop) [Std.Refl V] : Std.Refl (Option.Rel V) where
  refl
    | none => .none
    | some v => .some (Std.Refl.refl v)

/-! ### Two lists side by side -/

/-- Two lists of tokens are alike up to and including the first ones of `rest` and `others`, in which
they end. -/
inductive Beside (like : Likeness) : (ts us rest others : List Token) → Prop where
  | stop {t u : Token} {back more : List Token} (same : like.token t u) :
    Beside like (t :: back) (u :: more) (t :: back) (u :: more)
  | step {t u : Token} {ts us rest others : List Token} (same : like.token t u)
    (beside : Beside like ts us rest others) : Beside like (t :: ts) (u :: us) rest others

namespace Beside

variable {like : Likeness} {ts us rest others : List Token}

theorem current (beside : Beside like ts us rest others) :
    like.token (Reader.current ts) (Reader.current us) := by
  cases beside with
  | stop same => exact same
  | step same => exact same

theorem suffix (beside : Beside like ts us rest others) : rest <:+ ts := by
  induction beside with
  | stop => exact List.suffix_rfl
  | step _ _ ih => exact ih.trans (List.suffix_cons _ _)

theorem length_eq (beside : Beside like ts us rest others) :
    ts.length + others.length = us.length + rest.length := by
  induction beside with
  | stop => exact Nat.add_comm _ _
  | step _ _ ih =>
    simp only [List.length_cons]
    omega

/-- A list of tokens does not end in a longer one. -/
theorem not_cons {t : Token} (beside : Beside like ts us (t :: ts) others) : False := by
  have le := beside.suffix.length_le
  rw [List.length_cons] at le
  omega

/-- Where nothing was passed in the first list, nothing was in the second. -/
theorem others_eq (beside : Beside like ts us ts others) : others = us := by
  cases beside with
  | stop => rfl
  | step _ beside => exact beside.not_cons.elim

/-- Between the start and the end there is a place in the second list for each one in the first. -/
theorem split {mid : List Token} (beside : Beside like ts us rest others) (first : mid <:+ ts)
    (second : rest <:+ mid) : ∃ mid', Beside like ts us mid mid' ∧ Beside like mid mid' rest others := by
  induction beside with
  | stop same =>
    obtain rfl := first.eq_of_length_le second.length_le
    exact ⟨_, .stop same, .stop same⟩
  | @step t u ts us rest others same beside ih =>
    rcases List.suffix_cons_iff.mp first with rfl | first
    · exact ⟨u :: us, .stop same, .step same beside⟩
    · obtain ⟨mid', front, back⟩ := ih first second
      exact ⟨mid', .step same front, back⟩

end Beside

/-! ### Outcomes and readers -/

/-- The tokens that a reading left. -/
def Outcome.rest {α : Type} : Outcome α → List Token
  | .ok _ rest => rest
  | .fail _ rest => rest

/-- The second outcome is like the first, and left the tokens `others`; or it gave up. -/
def Outcome.Like {α : Type} (like : Likeness) (V : α → α → Prop) (others : List Token) :
    Outcome α → Outcome α → Prop
  | .ok v _, .ok w left => V v w ∧ left = others
  | .fail c _, .fail d left => like.cause c d ∧ left = others ∨ like.quits d
  | .ok _ _, .fail d _ => like.quits d
  | .fail _ _, .ok _ _ => False

theorem Outcome.like_of_quits {α : Type} {like : Likeness} {V : α → α → Prop} {d : Cause}
    (quits : like.quits d) (others left : List Token) (o : Outcome α) :
    o.Like like V others (.fail d left) := by
  cases o with
  | ok => exact quits
  | fail => exact .inr quits

/-- The tokens of `ts` in front of `rest` are no ends. -/
def Passes (ts rest : List Token) : Prop := ∃ front, ts = front ++ rest ∧ ∀ t ∈ front, t.kind ≠ .eof

namespace Passes

variable {ts mid rest : List Token}

theorem refl (ts : List Token) : Passes ts ts := ⟨[], rfl, by simp⟩

theorem trans (first : Passes ts mid) (second : Passes mid rest) : Passes ts rest := by
  obtain ⟨front, rfl, inside⟩ := first
  obtain ⟨back, rfl, insideBack⟩ := second
  exact ⟨front ++ back, (List.append_assoc _ _ _).symm, List.forall_mem_append.mpr ⟨inside, insideBack⟩⟩

theorem suffix (passes : Passes ts rest) : rest <:+ ts := by
  obtain ⟨front, rfl, -⟩ := passes
  exact List.suffix_append front rest

/-- What is left of tokens with an end starts with one of them. -/
theorem exists_cons {t : Token} (passes : Passes ts rest) (member : t ∈ ts) (ended : t.kind = .eof) :
    ∃ front u back, ts = front ++ u :: back ∧ rest = u :: back := by
  obtain ⟨front, rfl, inside⟩ := passes
  cases rest with
  | nil => exact absurd ended (inside t (by simpa using member))
  | cons u back => exact ⟨front, u, back, rfl, rfl⟩

variable {α β : Type}

theorem bind {r : Reader α} {next : α → Reader β} (first : ∀ ts, Passes ts (r ts).rest)
    (second : ∀ v ts, Passes ts (next v ts).rest) (ts : List Token) :
    Passes ts ((r >>= next) ts).rest := by
  have front := first ts
  cases read : r ts with
  | ok v mid =>
    rw [read] at front
    rw [Reader.bind_of_ok read]
    exact front.trans (second v mid)
  | fail c mid =>
    rw [read] at front
    rw [Reader.bind_of_fail read]
    exact front

theorem advance (ts : List Token) : Passes ts ((Reader.advance : Reader Token) ts).rest := by
  cases ts with
  | nil => exact .refl []
  | cons t ts =>
    by_cases ended : t.kind = .eof
    · rw [Reader.advance_of_end ended]
      exact .refl _
    · rw [Reader.advance_of_inside ended]
      exact ⟨[t], rfl, by simpa using ended⟩

theorem repeatFrom {r : Reader (Option α)} (round : ∀ ts, Passes ts (r ts).rest)
    (bound : List Token) (read : List α) (ts : List Token) :
    Passes ts (Reader.repeatFrom r bound read ts).rest := by
  induction bound generalizing read ts with
  | nil => exact .refl ts
  | cons _ bound ih =>
    have front := round ts
    unfold Reader.repeatFrom
    cases found : r ts with
    | ok v mid =>
      rw [found] at front
      cases v with
      | some v => exact front.trans (ih (v :: read) mid)
      | none => exact front
    | fail c mid =>
      rw [found] at front
      exact front

end Passes

/-- A round that gives a value takes a token. -/
def Reader.Shrinks {α : Type} (r : Reader (Option α)) : Prop :=
  ∀ ts v rest, r ts = .ok (some v) rest → rest.length < ts.length

/-- Values that are written with tokens take tokens. -/
theorem Reader.Rounds.shrinks {α : Type} {r : Reader (Option α)} {good : α → Prop}
    {yield : α → List Mark} (rounds : Rounds r good yield) (some : ∀ v, good v → yield v ≠ []) :
    Shrinks r := by
  intro ts v rest read
  rcases rounds _ _ _ read with ⟨w, same, isGood, us, rfl, written, -⟩ | ⟨absent, -⟩
  · have length := written.length_eq
    have positive := List.length_pos_iff.mpr (some w isGood)
    rw [List.length_append]
    omega
  · cases absent

/-- A reader passes no end, and with tokens alike up to the one where it stops, its counterpart stops
there with a like outcome. -/
structure Mirrors {α : Type} (like : Likeness) (V : α → α → Prop) (r r' : Reader α) : Prop where
  passes : ∀ ts, Passes ts (r ts).rest
  agree : ∀ {ts us rest others}, Beside like ts us rest others → (r ts).rest = rest →
    Outcome.Like like V others (r ts) (r' us)

namespace Mirrors

variable {α β : Type} {like : Likeness} {V : α → α → Prop} {W : β → β → Prop}

theorem pure {v w : α} (same : V v w) : Mirrors like V (Pure.pure v) (Pure.pure w) where
  passes := Passes.refl
  agree := by
    rintro ts us rest others beside rfl
    exact ⟨same, beside.others_eq.symm⟩

theorem fail {c d : Cause} (same : like.cause c d) :
    Mirrors like V (Reader.fail c) (Reader.fail d) where
  passes := Passes.refl
  agree := by
    rintro ts us rest others beside rfl
    exact .inl ⟨same, beside.others_eq.symm⟩

theorem bind [Std.Refl V] {r r' : Reader α} {next next' : α → Reader β} (first : Mirrors like V r r')
    (second : ∀ v w, V v w → Mirrors like W (next v) (next' w)) :
    Mirrors like W (r >>= next) (r' >>= next') := by
  refine ⟨Passes.bind first.passes fun v => (second v v (Std.Refl.refl v)).passes, ?_⟩
  rintro ts us rest others beside rfl
  have front := first.passes ts
  cases read : r ts with
  | ok v mid =>
    rw [read] at front
    have back := (second v v (Std.Refl.refl v)).passes mid
    rw [Reader.bind_of_ok read] at beside ⊢
    obtain ⟨mid', besideFront, besideBack⟩ := beside.split front.suffix back.suffix
    have agree := first.agree besideFront (congrArg Outcome.rest read)
    rw [read] at agree
    cases again : r' us with
    | ok w left =>
      rw [again] at agree
      obtain ⟨same, rfl⟩ := agree
      rw [Reader.bind_of_ok again]
      exact (second v w same).agree besideBack rfl
    | fail d left =>
      rw [again] at agree
      rw [Reader.bind_of_fail again]
      exact Outcome.like_of_quits agree others left (next v mid)
  | fail c mid =>
    rw [Reader.bind_of_fail read] at beside ⊢
    have agree := first.agree beside (congrArg Outcome.rest read)
    rw [read] at agree
    cases again : r' us with
    | ok w left =>
      rw [again] at agree
      exact agree.elim
    | fail d left =>
      rw [again] at agree
      rw [Reader.bind_of_fail again]
      exact agree

theorem map [Std.Refl V] {r r' : Reader α} {f f' : α → β} (mirrors : Mirrors like V r r')
    (same : ∀ v w, V v w → W (f v) (f' w)) :
    Mirrors like W (do return f (← r)) (do return f' (← r')) :=
  mirrors.bind fun v w alike => pure (same v w alike)

theorem peekKind : Mirrors like Eq Reader.peekKind Reader.peekKind where
  passes := Passes.refl
  agree := by
    rintro ts us rest others beside rfl
    exact ⟨(like.kind_eq beside.current).symm, beside.others_eq.symm⟩

theorem advance : Mirrors like like.token Reader.advance Reader.advance where
  passes := Passes.advance
  agree := by
    intro ts us rest others beside stopped
    cases beside with
    | @stop t u back more same =>
      by_cases ended : t.kind = .eof
      · have endedToo : u.kind = .eof := (like.kind_eq same).trans ended
        rw [Reader.advance_of_end ended, Reader.advance_of_end endedToo]
        exact ⟨same, rfl⟩
      · rw [Reader.advance_of_inside ended] at stopped
        exact absurd stopped.symm (List.cons_ne_self t back)
    | @step t u ts us rest others same beside =>
      by_cases ended : t.kind = .eof
      · rw [Reader.advance_of_end ended] at stopped
        obtain rfl : t :: ts = rest := stopped
        exact beside.not_cons.elim
      · have insideToo : u.kind ≠ .eof := by
          rw [like.kind_eq same]
          exact ended
        rw [Reader.advance_of_inside ended] at stopped
        obtain rfl : ts = rest := stopped
        rw [Reader.advance_of_inside ended, Reader.advance_of_inside insideToo]
        exact ⟨same, beside.others_eq.symm⟩

/-- Which way to go on is decided by the kinds, which are the same. -/
theorem ite {condition : Prop} [Decidable condition] {yes yes' no no' : Reader α}
    (mirrors : Mirrors like V yes yes') (otherwise : Mirrors like V no no') :
    Mirrors like V (if condition then yes else no) (if condition then yes' else no') := by
  split
  · exact mirrors
  · exact otherwise

theorem accept (k : Kind) :
    Mirrors like (Option.Rel like.token) (Reader.accept k) (Reader.accept k) := by
  unfold Reader.accept
  refine peekKind.bind fun kind _ same => ?_
  subst same
  exact ite (advance.map fun _ _ alike => .some alike) (pure .none)

theorem expect {k : Kind} {place other : Place}
    (same : like.cause (.missing k place) (.missing k other)) :
    Mirrors like like.token (Reader.expect k place) (Reader.expect k other) := by
  unfold Reader.expect
  refine (accept k).bind fun found found' alike => ?_
  cases alike with
  | some alike => exact pure alike
  | none => exact fail same

/-! ### Loops -/

variable {r r' : Reader (Option α)}

/-- Both loops stop before their bounds are used up, since each round takes a token. -/
theorem repeatFrom_agree (round : Mirrors like (Option.Rel V) r r') (shrinks : Reader.Shrinks r)
    {bound bound' : List Token} {read read' : List α} {ts us rest others : List Token}
    (enough : ts.length ≤ bound.length) (enoughToo : us.length ≤ bound'.length)
    (beside : Beside like ts us rest others)
    (stopped : (Reader.repeatFrom r bound read ts).rest = rest) :
    Outcome.Like like Free others (Reader.repeatFrom r bound read ts)
      (Reader.repeatFrom r' bound' read' us) := by
  induction bound generalizing bound' read read' ts us with
  | nil =>
    obtain rfl := List.length_eq_zero_iff.mp (Nat.le_zero.mp enough)
    cases beside
  | cons _ bound ih =>
    cases bound' with
    | nil =>
      obtain rfl := List.length_eq_zero_iff.mp (Nat.le_zero.mp enoughToo)
      cases beside
    | cons _ bound' =>
      have front := round.passes ts
      unfold Reader.repeatFrom at stopped ⊢
      cases found : r ts with
      | ok v mid =>
        rw [found] at front stopped
        cases v with
        | none =>
          have agree := round.agree beside (found ▸ stopped)
          rw [found] at agree
          cases again : r' us with
          | ok w left =>
            rw [again] at agree
            obtain ⟨same, rfl⟩ := agree
            cases same
            exact ⟨trivial, rfl⟩
          | fail d left =>
            rw [again] at agree
            exact agree
        | some v =>
          have front : Passes ts mid := front
          have back : Passes mid rest := stopped ▸ Passes.repeatFrom round.passes bound (v :: read) mid
          obtain ⟨mid', besideFront, besideBack⟩ := beside.split front.suffix back.suffix
          have agree := round.agree besideFront (congrArg Outcome.rest found)
          rw [found] at agree
          cases again : r' us with
          | ok w left =>
            rw [again] at agree
            obtain ⟨same, rfl⟩ := agree
            cases same with
            | some same =>
              have shorter := shrinks _ _ _ found
              have lengths := besideFront.length_eq
              simp only [List.length_cons] at enough enoughToo
              exact ih (by omega) (by omega) besideBack stopped
          | fail d left =>
            rw [again] at agree
            exact Outcome.like_of_quits agree others left _
      | fail c mid =>
        rw [found] at stopped
        have agree := round.agree beside (found ▸ stopped)
        rw [found] at agree
        cases again : r' us with
        | ok w left =>
          rw [again] at agree
          exact agree.elim
        | fail d left =>
          rw [again] at agree
          exact agree

theorem many (round : Mirrors like (Option.Rel V) r r') (shrinks : Reader.Shrinks r) :
    Mirrors like Free (Reader.many r) (Reader.many r') where
  passes ts := Passes.repeatFrom round.passes ts [] ts
  agree beside stopped :=
    repeatFrom_agree round shrinks (Nat.le_refl _) (Nat.le_refl _) beside stopped

end Mirrors

end GameLang
