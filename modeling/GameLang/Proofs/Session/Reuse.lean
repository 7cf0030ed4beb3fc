import GameLang.Proofs.Lookahead.Reader
import GameLang.Proofs.Session.Forms

/-!
# A session can go on after any call

Calls follow one another in a session, and each starts without open levels at the tokens that the
calls before left (`Session.call_after`). So the results are those of readings one after the other
(`Session.callAll_start`).
-/

namespace GameLang

namespace Session

variable {ts : List Token} {s : Session}

theorem left_start (ts : List Token) : (start ts).left = ts := by simp [left, start]

/-- Between calls no level is open, and no end was passed. -/
structure Ready (ts : List Token) (s : Session) : Prop where
  tokens : s.tokens = ts.toArray
  depth : s.depth = 0
  inside : s.Inside
  passes : Passes ts s.left

theorem ready_start (ts : List Token) : (start ts).Ready ts where
  tokens := rfl
  depth := rfl
  inside := Nat.zero_le _
  passes := by
    rw [left_start]
    exact .refl ts

namespace Ready

theorem left_eq (ready : s.Ready ts) : s.left = ts.drop s.position := by
  rw [left, ready.tokens]

theorem current_eq (ready : s.Ready ts) :
    s.current = ts[s.position]?.getD (Token.ending .start) := by
  simp [current, ready.tokens]

/-- A call reads the tokens left. -/
theorem call_eq (ready : s.Ready ts) (goal : Goal) :
    s.call goal = s.outcome (goal.reader s.left) :=
  (performs_call goal).same s ready.depth ready.inside

/-- The tokens that a call leaves are those that its reader leaves. -/
theorem left_call (ready : s.Ready ts) (goal : Goal) :
    Passes s.left (s.call goal).2.left ∧ (s.call goal).2 = s.leaving (goal.reader s.left).rest := by
  have passes := (performs_call goal).passes s.left
  have moved : (s.call goal).2 = s.leaving (goal.reader s.left).rest := by
    rw [ready.call_eq]
    cases goal.reader s.left <;> rfl
  refine ⟨?_, moved⟩
  rw [moved, left_leaving passes.suffix]
  exact passes

theorem call (ready : s.Ready ts) (goal : Goal) : (s.call goal).2.Ready ts := by
  obtain ⟨passes, moved⟩ := ready.left_call goal
  have all := ready.passes.trans passes
  rw [moved] at all ⊢
  exact ⟨ready.tokens, ready.depth, s.inside_leaving _, all⟩

theorem after (ready : s.Ready ts) (goals : List Goal) : (s.after goals).Ready ts := by
  induction goals generalizing s with
  | nil => exact ready
  | cons goal goals ih => exact ih (ready.call goal)

theorem position_le (ready : s.Ready ts) (goal : Goal) :
    s.position ≤ (s.call goal).2.position := by
  obtain ⟨passes, -⟩ := ready.left_call goal
  have shorter := passes.suffix.length_le
  have inside : (s.call goal).2.position ≤ (s.call goal).2.tokens.size := (ready.call goal).inside
  rw [length_left, length_left, (ready.call goal).tokens, ready.tokens] at shorter
  have within : s.position ≤ s.tokens.size := ready.inside
  rw [ready.tokens] at within
  rw [(ready.call goal).tokens] at inside
  omega

/-- No token that was taken is an end. -/
theorem kind_ne_eof (ready : s.Ready ts) : ∀ t ∈ ts.take s.position, t.kind ≠ .eof := by
  obtain ⟨front, split, inside⟩ := ready.passes
  rw [ready.left_eq] at split
  have appended : ts.take s.position ++ ts.drop s.position = front ++ ts.drop s.position := by
    rw [List.take_append_drop]
    exact split
  rw [List.append_cancel_right appended]
  exact inside

theorem token_of_error (ready : s.Ready ts) {goal : Goal} {e : SyntaxError}
    (failed : (s.call goal).1 = .error e) : e.token = (s.call goal).2.current := by
  have passes := (performs_call goal).passes s.left
  rw [ready.call_eq] at failed ⊢
  cases read : goal.reader s.left with
  | ok tree rest =>
    rw [read] at failed
    cases failed
  | fail cause rest =>
    rw [read] at failed passes
    cases failed
    have suffix : rest <:+ s.left := passes.suffix
    change Reader.current rest = (s.leaving rest).current
    rw [← current_left, left_leaving suffix]

theorem left_snd_call (ready : s.Ready ts) (goal : Goal) :
    (s.call goal).2.left = (goal.read s.left).2 := by
  have passes := (performs_call goal).passes s.left
  rw [(ready.left_call goal).2, left_leaving passes.suffix]
  unfold Goal.read Reader.run
  cases goal.reader s.left <;> rfl

/-- What a call gives depends on the tokens left only. -/
theorem fst_call (ready : s.Ready ts) (goal : Goal) :
    (s.call goal).1 = (goal.read s.left).1 := by
  rw [ready.call_eq]
  unfold Goal.read Reader.run
  cases goal.reader s.left <;> rfl

end Ready

/-- Whatever calls came before in a session: a call leaves no level open, takes tokens up to the first
end at most, fails at the token where the session then stands, and gives what is read from the tokens
left, as it does in a new session with them. -/
theorem call_after (ts : List Token) (goals : List Goal) (goal : Goal) :
    let s := (start ts).after goals
    let result := (s.call goal).1
    let next := (s.call goal).2
    next.depth = 0 ∧ s.position ≤ next.position ∧ next.position ≤ ts.length ∧
      (∀ t ∈ ts.take next.position, t.kind ≠ .eof) ∧
      (∀ e, result = .error e → e.token = ts[next.position]?.getD (Token.ending .start)) ∧
      result = (goal.read (ts.drop s.position)).1 ∧
      result = ((start (ts.drop s.position)).call goal).1 := by
  intro s result next
  have ready : s.Ready ts := (ready_start ts).after goals
  have readyNext : next.Ready ts := ready.call goal
  have inside := readyNext.inside
  rw [Inside, readyNext.tokens, List.size_toArray] at inside
  have now : result = (goal.read (ts.drop s.position)).1 := ready.left_eq ▸ ready.fst_call goal
  have fresh := (ready_start (ts.drop s.position)).fst_call goal
  rw [left_start] at fresh
  refine ⟨readyNext.depth, ready.position_le goal, inside, readyNext.kind_ne_eof, ?_, now,
    now.trans fresh.symm⟩
  intro e failed
  rw [← readyNext.current_eq]
  exact ready.token_of_error failed

theorem Ready.callAll (ready : s.Ready ts) (goals : List Goal) :
    (s.callAll goals).map (fun (result, next) => (result, next.left)) =
      Goal.readAll goals s.left := by
  induction goals generalizing s with
  | nil => rfl
  | cons goal goals ih =>
    have rest := ih (ready.call goal)
    have read : ((s.call goal).1, (s.call goal).2.left) = goal.read s.left :=
      Prod.ext (ready.fst_call goal) (ready.left_snd_call goal)
    rw [ready.left_snd_call goal] at rest
    exact List.cons_eq_cons.mpr ⟨read, rest⟩

/-- Calls in a session are readings one after the other. -/
theorem callAll_start (goals : List Goal) (ts : List Token) :
    ((start ts).callAll goals).map (fun (result, next) => (result, next.left)) =
      Goal.readAll goals ts := by
  have results := (ready_start ts).callAll goals
  rwa [left_start] at results

end Session

end GameLang
