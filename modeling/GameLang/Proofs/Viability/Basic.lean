import GameLang.Proofs.Soundness.Basic

/-!
# What can still be completed

`Begun marks us` says that tokens are the first of some that stand at the places of `marks`. Where a
reader fails, the tokens in front of the one at fault have begun a tree: `Short ts marks rest` says so
of the tokens of `ts` in front of `rest`. Each lemma takes one failed reader apart; `many_fail` does
so for all rounds of a loop.
-/

namespace GameLang

/-- A token of a kind, wherever it stands. -/
def Token.ofKind (k : Kind) : Token := ⟨k, k.spelling, none, (Token.ending .start).span⟩

theorem exists_written (marks : List Mark) : ∃ us, Written marks us := by
  induction marks with
  | nil => exact ⟨[], written_nil⟩
  | cons mark marks ih =>
    obtain ⟨us, written⟩ := ih
    cases mark with
    | token t => exact ⟨t :: us, .cons rfl written⟩
    | kind k => exact ⟨.ofKind k :: us, .cons rfl written⟩

/-- Tokens are the first of some that stand at the places of marks. -/
def Begun (marks : List Mark) (us : List Token) : Prop := ∃ more, Written marks (us ++ more)

/-- The tokens in front of `rest` have begun some marks. -/
def Short (ts : List Token) (marks : List Mark) (rest : List Token) : Prop :=
  ∃ us, ts = us ++ rest ∧ Begun marks us

variable {α β : Type} {ts mid rest : List Token} {front back : List Mark}

namespace Short

theorem nothing (ts : List Token) (marks : List Mark) : Short ts marks ts :=
  ⟨[], rfl, exists_written marks⟩

/-- More marks can follow. -/
theorem append (short : Short ts front rest) (back : List Mark) : Short ts (front ++ back) rest := by
  obtain ⟨us, split, more, written⟩ := short
  obtain ⟨others, writtenOthers⟩ := exists_written back
  refine ⟨us, split, more ++ others, ?_⟩
  rw [← List.append_assoc]
  exact written.append writtenOthers

/-- Only the kind of a token at the first place is kept. -/
theorem drop {t : Token} {k : Kind} (short : Short ts (.token t :: back) rest) (same : t.kind = k) :
    Short ts (.kind k :: back) rest := by
  obtain ⟨us, split, more, written⟩ := short
  obtain ⟨others, all, writtenOthers⟩ := written_token_iff.mp written
  exact ⟨us, split, more, written_kind_iff.mpr ⟨t, others, all, same, writtenOthers⟩⟩

end Short

namespace Taken

theorem short (first : Taken ts front mid) (second : Short mid back rest) :
    Short ts (front ++ back) rest := by
  obtain ⟨us, rfl, written, -⟩ := first
  obtain ⟨vs, rfl, more, begun⟩ := second
  refine ⟨us ++ vs, (List.append_assoc us vs rest).symm, more, ?_⟩
  rw [List.append_assoc]
  exact written.append begun

/-- What was taken can be followed by anything. -/
theorem stop (taken : Taken ts front rest) (back : List Mark) : Short ts (front ++ back) rest :=
  taken.short (.nothing rest back)

theorem whole (taken : Taken ts front rest) : Short ts front rest := by
  simpa using taken.stop []

end Taken

namespace Reader

variable {cause : Cause}

/-! ### Taking failed readers apart -/

theorem bind_fail {r : Reader α} {next : α → Reader β} (h : (r >>= next) ts = .fail cause rest) :
    r ts = .fail cause rest ∨ ∃ v mid, r ts = .ok v mid ∧ next v mid = .fail cause rest := by
  cases read : r ts with
  | ok v mid =>
    rw [bind_of_ok read] at h
    exact .inr ⟨v, mid, rfl, h⟩
  | fail other left =>
    rw [bind_of_fail read] at h
    cases h
    exact .inl rfl

theorem map_fail {r : Reader α} {f : α → β}
    (h : (do return f (← r) : Reader β) ts = .fail cause rest) : r ts = .fail cause rest := by
  rcases bind_fail h with stopped | ⟨v, mid, _, stopped⟩
  · exact stopped
  · cases stopped

theorem peekKind_bind_fail {next : Kind → Reader β}
    (h : (peekKind >>= next) ts = .fail cause rest) :
    next (current ts).kind ts = .fail cause rest := h

theorem advance_ne_fail : (advance : Reader Token) ts ≠ .fail cause rest := by
  intro h
  cases ts with
  | nil => cases h
  | cons t us =>
    by_cases ended : t.kind = .eof
    · rw [advance_of_end ended] at h
      cases h
    · rw [advance_of_inside ended] at h
      cases h

theorem advance_bind_fail {next : Token → Reader β} (more : (current ts).kind ≠ .eof)
    (h : (advance >>= next) ts = .fail cause rest) :
    ∃ mid, Taken ts [.token (current ts)] mid ∧ next (current ts) mid = .fail cause rest := by
  rcases bind_fail h with stopped | ⟨t, mid, advanced, h⟩
  · exact (advance_ne_fail stopped).elim
  · obtain ⟨rfl, taken⟩ := advance_ok advanced more
    exact ⟨mid, taken, h⟩

theorem accept_ne_fail {k : Kind} : (accept k : Reader _) ts ≠ .fail cause rest := by
  intro h
  unfold accept at h
  rcases bind_fail h with stopped | ⟨kind, mid, _, h⟩
  · cases stopped
  · split at h
    · exact advance_ne_fail (map_fail h)
    · cases h

/-- Failing after a token that may or may not be there. -/
theorem accept_bind_fail {k : Kind} {next : Option Token → Reader β} (real : k ≠ .eof)
    (h : (accept k >>= next) ts = .fail cause rest) :
    (∃ t mid, Taken ts [.kind k] mid ∧ next (some t) mid = .fail cause rest) ∨
      next none ts = .fail cause rest := by
  rcases bind_fail h with stopped | ⟨found, mid, accepted, went⟩
  · exact (accept_ne_fail stopped).elim
  · cases found with
    | some t =>
      obtain ⟨same, taken⟩ := accept_some accepted real
      exact .inl ⟨t, mid, taken.drop same, went⟩
    | none =>
      obtain ⟨-, rfl⟩ := accept_none accepted
      exact .inr went

theorem expect_fail {k : Kind} {place : Place}
    (h : (expect k place : Reader _) ts = .fail cause rest) : rest = ts := by
  unfold expect at h
  rcases bind_fail h with stopped | ⟨found, mid, accepted, went⟩
  · exact (accept_ne_fail stopped).elim
  · cases found with
    | some t => cases went
    | none =>
      obtain ⟨-, rfl⟩ := accept_none accepted
      cases went
      rfl

/-- Failing at a token of a given kind, or after it. -/
theorem expect_bind_fail {k : Kind} {place : Place} {next : Token → Reader β} (real : k ≠ .eof)
    (h : (expect k place >>= next) ts = .fail cause rest) :
    rest = ts ∨
      ∃ t mid, t.kind = k ∧ Taken ts [.token t] mid ∧ next t mid = .fail cause rest := by
  rcases bind_fail h with stopped | ⟨t, mid, expected, h⟩
  · exact .inl (expect_fail stopped)
  · obtain ⟨same, taken⟩ := expect_ok expected real
    exact .inr ⟨t, mid, same, taken, h⟩

/-! ### Loops -/

/-- Where a reader fails, it has begun a good value. -/
def Completes (r : Reader β) (good : α → Prop) (yield : α → List Mark) : Prop :=
  ∀ ts cause rest, r ts = .fail cause rest → ∃ v, good v ∧ Short ts (yield v) rest

variable {r : Reader (Option α)} {good : α → Prop} {yield : α → List Mark}

theorem repeatFrom_fail (rounds : Rounds r good yield) (completes : Completes r good yield)
    {bound : List Token} {read : List α} (h : repeatFrom r bound read ts = .fail cause rest) :
    ∃ vs, vs ≠ [] ∧ (∀ v ∈ vs, good v) ∧ Short ts (vs.flatMap yield) rest := by
  induction bound generalizing ts read with
  | nil => cases h
  | cons _ bound ih =>
    unfold repeatFrom at h
    split at h
    · rename_i v mid round
      rcases rounds _ _ _ round with ⟨_, same, isGood, taken⟩ | ⟨absent, -⟩
      · obtain rfl := Option.some.inj same
        obtain ⟨vs, -, allGood, short⟩ := ih h
        exact ⟨v :: vs, List.cons_ne_nil _ _, List.forall_mem_cons.mpr ⟨isGood, allGood⟩,
          taken.short short⟩
      · cases absent
    · cases h
    · rename_i stopped
      cases h
      obtain ⟨v, isGood, short⟩ := completes _ _ _ stopped
      exact ⟨[v], List.cons_ne_nil _ _, List.forall_mem_singleton.mpr isGood, short.append []⟩

/-- Where a loop fails, it has begun some good values, the last one in the round that failed. -/
theorem many_fail (rounds : Rounds r good yield) (completes : Completes r good yield)
    (h : many r ts = .fail cause rest) :
    ∃ vs, vs ≠ [] ∧ (∀ v ∈ vs, good v) ∧ Short ts (vs.flatMap yield) rest :=
  repeatFrom_fail rounds completes h

end Reader

end GameLang
