import GameLang.Proofs.Lookahead.Basic
import GameLang.Session.Basic

/-!
# Sessions do what readers do

In a session with some levels open a step does what the step of a reader does with the tokens left. It
leaves as many levels open as before, and an error has the token at which the session stands
(`Session.Performs`). The relation is kept by going on, by loops and by levels.
-/

namespace GameLang

namespace Session

variable {α β : Type} {s : Session} {mid rest : List Token}

/-- The tokens that were not taken. -/
def left (s : Session) : List Token := s.tokens.toList.drop s.position

/-- The session in which some last tokens are left. -/
def leaving (s : Session) (rest : List Token) : Session :=
  { s with position := s.tokens.size - rest.length }

/-- The position is one in the tokens or behind the last one. -/
def Inside (s : Session) : Prop := s.position ≤ s.tokens.size

/-- What an outcome of reading the tokens left means for a session. -/
def outcome (s : Session) : Outcome α → Except SyntaxError α × Session
  | .ok value rest => (.ok value, s.leaving rest)
  | .fail cause rest => (.error ⟨cause, Reader.current rest⟩, s.leaving rest)

theorem current_left (s : Session) : Reader.current s.left = s.current := by
  unfold current left
  rw [← Array.getElem?_toList, ← List.head?_drop]
  cases s.tokens.toList.drop s.position with
  | nil => rfl
  | cons t back => rfl

theorem length_left (s : Session) : s.left.length = s.tokens.size - s.position := by
  simp [left]

theorem leaving_left (inside : s.Inside) : s.leaving s.left = s := by
  have back : s.tokens.size - (s.tokens.size - s.position) = s.position := Nat.sub_sub_self inside
  rw [leaving, length_left, back]

theorem inside_leaving (s : Session) (rest : List Token) : (s.leaving rest).Inside := Nat.sub_le _ _

/-- The tokens left are the last ones. -/
theorem left_leaving (suffix : rest <:+ s.left) : (s.leaving rest).left = rest := by
  have last : rest <:+ s.tokens.toList := suffix.trans (List.drop_suffix _ _)
  have length : s.tokens.toList.length = s.tokens.size := Array.length_toList
  rw [left, leaving, ← length]
  exact (List.suffix_iff_eq_drop.mp last).symm

/-- With some levels open an action does what a reader does with the tokens left. -/
structure Performs (depth : Nat) (action : Action α) (r : Reader α) : Prop where
  passes : ∀ ts, Passes ts (r ts).rest
  same : ∀ s : Session, s.depth = depth → s.Inside → action s = s.outcome (r s.left)

namespace Performs

variable {depth : Nat} {action : Action α} {r : Reader α}

theorem pure (value : α) : Performs depth (Pure.pure value) (Pure.pure value) where
  passes := .refl
  same s _ inside := by
    change (Except.ok value, s) = (Except.ok value, s.leaving s.left)
    rw [leaving_left inside]

theorem fail (cause : Cause) : Performs depth (Reader.fail cause : Action α) (Reader.fail cause) where
  passes := .refl
  same s _ inside := by
    change (_, s) = (_, s.leaving s.left)
    rw [leaving_left inside, current_left]

theorem peek : Performs depth Reader.peek Reader.peek where
  passes := .refl
  same s _ inside := by
    change (_, s) = (_, s.leaving s.left)
    rw [leaving_left inside, current_left]

theorem advance : Performs depth Reader.advance Reader.advance where
  passes := Passes.advance
  same s _ inside := by
    have next := s.current_left
    change Session.advance s = _
    unfold Session.advance
    cases found : s.left with
    | nil =>
      rw [found] at next
      have ended : s.current.kind = .eof := by rw [← next]; rfl
      rw [if_pos ended]
      change _ = (Except.ok (Reader.current []), s.leaving [])
      rw [next, ← found, leaving_left inside]
    | cons t back =>
      obtain rfl : t = s.current := by rw [← next, found]; rfl
      by_cases ended : s.current.kind = .eof
      · rw [if_pos ended, Reader.advance_of_end ended]
        change _ = (Except.ok s.current, s.leaving (s.current :: back))
        rw [← found, leaving_left inside]
      · rw [if_neg ended, Reader.advance_of_inside ended]
        have length := s.length_left
        rw [found, List.length_cons] at length
        have inside : s.position ≤ s.tokens.size := inside
        have moved : s.position + 1 = s.tokens.size - back.length := by omega
        rw [moved]
        rfl

/-- What was read leaves the tokens that its reader leaves. -/
theorem left_of_ok (performs : Performs depth action r) {value : α}
    (read : r s.left = .ok value mid) : (s.leaving mid).left = mid := by
  have passes := performs.passes s.left
  rw [read] at passes
  exact left_leaving passes.suffix

theorem bind {next : α → Action β} {next' : α → Reader β} (first : Performs depth action r)
    (second : ∀ value, Performs depth (next value) (next' value)) :
    Performs depth (action >>= next) (r >>= next') where
  passes := Passes.bind first.passes fun value => (second value).passes
  same s opened inside := by
    have same := first.same s opened inside
    change Session.bind action next s = _
    unfold Session.bind
    cases read : r s.left with
    | ok value mid =>
      rw [read] at same
      have again := (second value).same (s.leaving mid) opened (s.inside_leaving mid)
      rw [first.left_of_ok read] at again
      rw [same, Reader.bind_of_ok read]
      change next value (s.leaving mid) = _
      rw [again]
      cases next' value mid <;> rfl
    | fail cause mid =>
      rw [read] at same
      rw [same, Reader.bind_of_fail read]
      rfl

theorem repeatFrom {round : Action (Option α)} {r : Reader (Option α)}
    (performs : Performs depth round r) (bound : List Token) (read : List α) (s : Session)
    (opened : s.depth = depth) (inside : s.Inside) :
    Session.repeatFrom round bound.length read s =
      s.outcome (Reader.repeatFrom r bound read s.left) := by
  induction bound generalizing read s with
  | nil =>
    change (_, s) = (_, s.leaving s.left)
    rw [leaving_left inside]
  | cons _ bound ih =>
    have same := performs.same s opened inside
    unfold Reader.repeatFrom
    rw [List.length_cons, Session.repeatFrom]
    cases found : r s.left with
    | ok value mid =>
      rw [found] at same
      rw [same]
      cases value with
      | some value =>
        have again := ih (value :: read) (s.leaving mid) opened (s.inside_leaving mid)
        rw [performs.left_of_ok found] at again
        change Session.repeatFrom round bound.length (value :: read) (s.leaving mid) = _
        rw [again]
        dsimp only
        cases Reader.repeatFrom r bound (value :: read) mid <;> rfl
      | none => rfl
    | fail cause mid =>
      rw [found] at same
      rw [same]
      rfl

theorem many {round : Action (Option α)} {r : Reader (Option α)} (performs : Performs depth round r) :
    Performs depth (Reader.many round) (Reader.many r) where
  passes ts := Passes.repeatFrom performs.passes ts [] ts
  same s opened inside := by
    have rounds := performs.repeatFrom s.left [] s opened inside
    rw [length_left] at rounds
    exact rounds

/-- Without a level left nothing is opened. -/
theorem nested_full (full : nestingLimit ≤ depth) :
    Performs depth (Session.nested action) Reader.tooDeep where
  passes := .refl
  same s opened inside := by
    have stopped : Session.nested action s = (Reader.tooDeep : Action α) s := if_pos (opened ▸ full)
    have failed : Performs depth (Reader.tooDeep : Action α) Reader.tooDeep := .fail .nestingTooDeep
    rw [stopped]
    exact failed.same s opened inside

/-- A level that was opened is closed again, whether what was done in it failed or not. -/
theorem nested_room (room : depth < nestingLimit) (performs : Performs (depth + 1) action r) :
    Performs depth (Session.nested action) r where
  passes := performs.passes
  same s opened inside := by
    let deep : Session := { s with depth := s.depth + 1 }
    have deeper : action deep = deep.outcome (r s.left) :=
      performs.same deep (congrArg (· + 1) opened) inside
    have free : ¬ nestingLimit ≤ s.depth := by omega
    unfold Session.nested
    rw [if_neg free, deeper]
    cases r s.left <;> rfl

end Performs

end Session

end GameLang
