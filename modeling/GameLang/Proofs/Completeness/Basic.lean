import GameLang.Proofs.Grammar.Expr
import GameLang.Reader.Expr

/-!
# What readers accept

`Accepts enough r us rest v` says what a reader does with the tokens `us` of a tree `v` and more
tokens after them: with levels enough it takes `us` for `v`, and otherwise it stops at one of them
because a level is missing. Each lemma adds one step in front of a reader; `many_accepts` does so
for all rounds of a loop.
-/

namespace GameLang

theorem Written.current_token {t : Token} {marks : List Mark} {us : List Token}
    (written : Written (.token t :: marks) us) (rest : List Token) :
    Reader.current (us ++ rest) = t := by
  obtain ⟨back, rfl, -⟩ := written_token_iff.mp written
  rfl

theorem Written.current_kind {k : Kind} {marks : List Mark} {us : List Token}
    (written : Written (.kind k :: marks) us) (rest : List Token) :
    (Reader.current (us ++ rest)).kind = k := by
  obtain ⟨t, back, rfl, same, -⟩ := written_kind_iff.mp written
  exact same

/-- A reader takes `us` for `v`, or stops among them for want of a level. -/
structure Accepts {α : Type} (enough : Prop) (r : Reader α) (us rest : List Token) (v : α) :
    Prop where
  read : enough → r (us ++ rest) = .ok v rest
  stop : ¬ enough → ∃ front t back, us = front ++ t :: back ∧
    r (us ++ rest) = .fail .nestingTooDeep (t :: back ++ rest)

namespace Accepts

variable {α β : Type} {enough more : Prop} {us vs rest : List Token} {v : α} {w : β}

theorem iff {r : Reader α} (accepts : Accepts enough r us rest v) (same : enough ↔ more) :
    Accepts more r us rest v :=
  propext same ▸ accepts

theorem of_read {r : Reader α} (read : r (us ++ rest) = .ok v rest) : Accepts True r us rest v :=
  ⟨fun _ => read, fun never => (never trivial).elim⟩

/-- Two readers that agree in one place accept the same there. -/
theorem of_eq {r other : Reader α} (same : other (us ++ rest) = r (us ++ rest))
    (accepts : Accepts enough r us rest v) : Accepts enough other us rest v :=
  ⟨fun isEnough => same.trans (accepts.read isEnough), fun lacking => by
    rw [same]
    exact accepts.stop lacking⟩

theorem pure (v : α) (rest : List Token) : Accepts True (Pure.pure v) [] rest v := of_read rfl

/-- One phrase after another. -/
theorem bind {r : Reader α} {next : α → Reader β} (first : Accepts enough r us (vs ++ rest) v)
    (second : Accepts more (next v) vs rest w) :
    Accepts (enough ∧ more) (r >>= next) (us ++ vs) rest w := by
  constructor
  · rintro ⟨isEnough, isMore⟩
    rw [List.append_assoc, Reader.bind_of_ok (first.read isEnough)]
    exact second.read isMore
  · intro lacking
    by_cases isEnough : enough
    · obtain ⟨front, t, back, rfl, stopped⟩ := second.stop fun isMore => lacking ⟨isEnough, isMore⟩
      refine ⟨us ++ front, t, back, by simp, ?_⟩
      rw [List.append_assoc, Reader.bind_of_ok (first.read isEnough)]
      exact stopped
    · obtain ⟨front, t, back, rfl, stopped⟩ := first.stop isEnough
      refine ⟨front, t, back ++ vs, by simp, ?_⟩
      rw [List.append_assoc, Reader.bind_of_fail stopped]
      simp

/-- A phrase in front of tokens that need no level. -/
theorem before {r : Reader α} {next : α → Reader β} (first : Accepts enough r us (vs ++ rest) v)
    (second : Accepts True (next v) vs rest w) : Accepts enough (r >>= next) (us ++ vs) rest w :=
  (first.bind second).iff (iff_of_eq (and_true enough))

/-- What was read last is only put together. -/
theorem map {r : Reader α} {f : α → β} (accepts : Accepts enough r us rest v) :
    Accepts enough (do return f (← r)) us rest (f v) where
  read := fun isEnough => by rw [Reader.bind_of_ok (accepts.read isEnough)]; rfl
  stop := fun lacking => by
    obtain ⟨front, t, back, split, stopped⟩ := accepts.stop lacking
    exact ⟨front, t, back, split, Reader.bind_of_fail stopped _⟩

theorem peekKind {next : Kind → Reader β}
    (accepts : Accepts enough (next (Reader.current (us ++ rest)).kind) us rest w) :
    Accepts enough (Reader.peekKind >>= next) us rest w :=
  ⟨accepts.read, accepts.stop⟩

theorem peek {next : Token → Reader β}
    (accepts : Accepts enough (next (Reader.current (us ++ rest))) us rest w) :
    Accepts enough (Reader.peek >>= next) us rest w :=
  ⟨accepts.read, accepts.stop⟩

/-- A token that needs no level, in front of a phrase. -/
theorem token {t : Token} {r : Reader α} {next : α → Reader β}
    (first : ∀ rest, r (t :: rest) = .ok v rest) (accepts : Accepts enough (next v) us rest w) :
    Accepts enough (r >>= next) (t :: us) rest w := by
  have one : Accepts True r [t] (us ++ rest) v := of_read (first _)
  exact (one.bind accepts).iff (iff_of_eq (true_and enough))

variable {t : Token} {k : Kind}

theorem advance {next : Token → Reader β} (inside : t.kind ≠ .eof)
    (accepts : Accepts enough (next t) us rest w) :
    Accepts enough (Reader.advance >>= next) (t :: us) rest w :=
  token (Reader.advance_of_inside inside) accepts

theorem accept_eq (same : t.kind = k) (real : k ≠ .eof) (rest : List Token) :
    (Reader.accept k : Reader _) (t :: rest) = .ok (some t) rest := by
  have next : (Reader.current (t :: rest)).kind = k := same
  unfold Reader.accept
  rw [Reader.bind_of_ok (r := Reader.peekKind) rfl, if_pos next,
    Reader.bind_of_ok (Reader.advance_of_inside (same ▸ real) rest)]
  rfl

theorem accept_eq_none {ts : List Token} (different : (Reader.current ts).kind ≠ k) :
    (Reader.accept k : Reader _) ts = .ok none ts := by
  unfold Reader.accept
  rw [Reader.bind_of_ok (r := Reader.peekKind) rfl, if_neg different]
  rfl

theorem accept {next : Option Token → Reader β} (same : t.kind = k) (real : k ≠ .eof)
    (accepts : Accepts enough (next (some t)) us rest w) :
    Accepts enough (Reader.accept k >>= next) (t :: us) rest w :=
  token (accept_eq same real) accepts

theorem accept_none {next : Option Token → Reader β}
    (different : (Reader.current (us ++ rest)).kind ≠ k)
    (accepts : Accepts enough (next none) us rest w) :
    Accepts enough (Reader.accept k >>= next) us rest w := by
  constructor
  · intro isEnough
    rw [Reader.bind_of_ok (accept_eq_none different)]
    exact accepts.read isEnough
  · intro lacking
    obtain ⟨front, t, back, split, stopped⟩ := accepts.stop lacking
    exact ⟨front, t, back, split, by rw [Reader.bind_of_ok (accept_eq_none different), stopped]⟩

theorem expect {place : Place} {next : Token → Reader β} (same : t.kind = k) (real : k ≠ .eof)
    (accepts : Accepts enough (next t) us rest w) :
    Accepts enough (Reader.expect k place >>= next) (t :: us) rest w := by
  refine token (fun rest => ?_) accepts
  unfold Reader.expect
  rw [Reader.bind_of_ok (accept_eq same real rest)]
  rfl

end Accepts

/-! ### Loops -/

variable {α : Type}

/-- Each round of a loop takes one of the values, in front of whatever may follow it, and may itself
follow a round. -/
def Rounded (r : Reader (Option α)) (yield : α → List Mark) (enough : α → Prop)
    (follow : List Token → Prop) (vs : List α) : Prop :=
  ∀ v ∈ vs, ∀ us rest, Written (yield v) us → follow rest →
    us ≠ [] ∧ follow (us ++ rest) ∧ Accepts (enough v) r us rest (some v)

variable {r : Reader (Option α)} {yield : α → List Mark} {enough : α → Prop}
  {follow : List Token → Prop} {us rest : List Token} {vs : List α}

theorem Rounded.followed (rounded : Rounded r yield enough follow vs) (followed : follow rest)
    (written : Written (vs.flatMap yield) us) : follow (us ++ rest) := by
  induction vs generalizing us with
  | nil =>
    obtain rfl := written_nil_iff.mp written
    exact followed
  | cons v vs ih =>
    obtain ⟨us, others, rfl, first, written⟩ := written_append_iff.mp written
    obtain ⟨round, later⟩ := List.forall_mem_cons.mp rounded
    rw [List.append_assoc]
    exact (round us _ first (ih later written)).2.1

theorem repeatFrom_accepts (rounded : Rounded r yield enough follow vs) (followed : follow rest)
    (done : r rest = .ok none rest) (written : Written (vs.flatMap yield) us) (read : List α)
    (bound : List Token) (bounded : us.length ≤ bound.length) :
    Accepts (∀ v ∈ vs, enough v) (Reader.repeatFrom r bound read) us rest
      (read.reverse ++ vs) := by
  -- A round takes at least one token, so the bound never ends before the values do.
  induction vs generalizing us bound read with
  | nil =>
    obtain rfl := written_nil_iff.mp written
    refine ⟨fun _ => ?_, fun lacking => (lacking (by simp)).elim⟩
    cases bound with
    | nil => simp [Reader.repeatFrom]
    | cons _ bound => simp [Reader.repeatFrom, done]
  | cons v vs ih =>
    obtain ⟨us, others, rfl, first, written⟩ := written_append_iff.mp written
    obtain ⟨round, later⟩ := List.forall_mem_cons.mp rounded
    obtain ⟨some, -, accepted⟩ :=
      round us (others ++ rest) first (Rounded.followed later followed written)
    have taken := List.length_pos_iff.mpr some
    rw [List.length_append] at bounded
    cases bound with
    | nil => rw [List.length_nil] at bounded; omega
    | cons _ bound =>
      have rounds := ih later written (v :: read) bound (by rw [List.length_cons] at bounded; omega)
      constructor
      · intro all
        obtain ⟨isEnough, others⟩ := List.forall_mem_cons.mp all
        rw [List.append_assoc, Reader.repeatFrom, accepted.read isEnough]
        simpa using rounds.read others
      · intro lacking
        by_cases isEnough : enough v
        · obtain ⟨front, t, back, rfl, stopped⟩ := rounds.stop
            fun others => lacking (List.forall_mem_cons.mpr ⟨isEnough, others⟩)
          refine ⟨us ++ front, t, back, by simp, ?_⟩
          rw [List.append_assoc, Reader.repeatFrom, accepted.read isEnough]
          exact stopped
        · obtain ⟨front, t, back, rfl, stopped⟩ := accepted.stop isEnough
          refine ⟨front, t, back ++ others, by simp, ?_⟩
          rw [List.append_assoc, Reader.repeatFrom, stopped]
          simp

/-- A loop takes one value after the other and ends where its reader takes nothing. -/
theorem many_accepts (rounded : Rounded r yield enough follow vs) (followed : follow rest)
    (done : r rest = .ok none rest) (written : Written (vs.flatMap yield) us) :
    Accepts (∀ v ∈ vs, enough v) (Reader.many r) us rest vs := by
  have all := repeatFrom_accepts rounded followed done written [] (us ++ rest) (by simp)
  exact ⟨all.read, all.stop⟩

end GameLang
