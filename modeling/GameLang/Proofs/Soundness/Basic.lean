import GameLang.Proofs.Grammar.Expr
import GameLang.Reader.Basic

/-!
# What readers take

`Taken ts marks rest` says that the tokens of `ts` in front of `rest` stand at the places of `marks`.
Each lemma takes one successful reader apart; `many_ok` does so for all rounds of a loop.
-/

namespace GameLang

variable {α β : Type} {ts mid rest : List Token}

/-- The tokens in front of `rest` stand at the places of `marks`, and none of them is an end. -/
def Taken (ts : List Token) (marks : List Mark) (rest : List Token) : Prop :=
  ∃ us, ts = us ++ rest ∧ Written marks us ∧ ∀ t ∈ us, t.kind ≠ .eof

namespace Taken

theorem nothing (ts : List Token) : Taken ts [] ts := ⟨[], rfl, written_nil, by simp⟩

theorem trans {front back : List Mark} (first : Taken ts front mid) (second : Taken mid back rest) :
    Taken ts (front ++ back) rest := by
  obtain ⟨us, rfl, written₁, inside₁⟩ := first
  obtain ⟨vs, rfl, written₂, inside₂⟩ := second
  exact ⟨us ++ vs, (List.append_assoc us vs rest).symm, written₁.append written₂,
    List.forall_mem_append.mpr ⟨inside₁, inside₂⟩⟩

/-- Only the kind of a token that was taken is kept. -/
theorem drop {t : Token} {k : Kind} (taken : Taken ts [.token t] rest) (same : t.kind = k) :
    Taken ts [.kind k] rest := by
  obtain ⟨us, split, written, inside⟩ := taken
  obtain ⟨back, rfl, nothing⟩ := written_token_iff.mp written
  exact ⟨t :: back, split, written_kind_iff.mpr ⟨t, back, rfl, same, nothing⟩, inside⟩

/-- What was taken up to the end is all that stands in front of it. -/
theorem takeWhile {marks : List Mark} (taken : Taken ts marks rest)
    (ended : (Reader.current rest).kind = .eof) :
    Written marks (ts.takeWhile (·.kind ≠ .eof)) ∧ rest = ts.dropWhile (·.kind ≠ .eof) := by
  obtain ⟨us, rfl, written, inside⟩ := taken
  have all : ∀ t ∈ us, decide (t.kind ≠ .eof) = true := by simpa using inside
  have stop : rest.takeWhile (·.kind ≠ .eof) = [] ∧ rest.dropWhile (·.kind ≠ .eof) = rest := by
    cases rest with
    | nil => exact ⟨rfl, rfl⟩
    | cons t back => simp [show t.kind = .eof from ended]
  rw [List.takeWhile_append_of_pos all, List.dropWhile_append_of_pos all, stop.1, stop.2,
    List.append_nil]
  exact ⟨written, rfl⟩

end Taken

namespace Reader

/-! ### Taking readers apart -/

theorem bind_ok {r : Reader α} {next : α → Reader β} {w : β} (h : (r >>= next) ts = .ok w rest) :
    ∃ v mid, r ts = .ok v mid ∧ next v mid = .ok w rest := by
  cases read : r ts with
  | ok v mid => exact ⟨v, mid, rfl, by rwa [bind_of_ok read] at h⟩
  | fail cause left => rw [bind_of_fail read] at h; cases h

theorem run_ok_iff {r : Reader α} {v : α} : r.run ts = (.ok v, rest) ↔ r ts = .ok v rest := by
  unfold run
  cases r ts with
  | ok w left => simp
  | fail cause left => simp

theorem run_error_iff {r : Reader α} {e : SyntaxError} :
    r.run ts = (.error e, rest) ↔ ∃ cause, r ts = .fail cause rest ∧ e = ⟨cause, current rest⟩ := by
  unfold run
  cases r ts with
  | ok v left => simp
  | fail cause left =>
    constructor
    · intro same
      cases same
      exact ⟨cause, rfl, rfl⟩
    · rintro ⟨other, same, rfl⟩
      cases same
      rfl

theorem pure_ok {v w : α} (h : (pure v : Reader α) ts = .ok w rest) : w = v ∧ rest = ts := by
  cases h
  exact ⟨rfl, rfl⟩

theorem fail_ok {cause : Cause} {v : α} (h : (fail cause : Reader _) ts = .ok v rest) : False := by
  cases h

theorem peekKind_ok {k : Kind} (h : (peekKind : Reader _) ts = .ok k rest) :
    k = (current ts).kind ∧ ts = rest := by
  cases h
  exact ⟨rfl, rfl⟩

theorem peek_ok {t : Token} (h : (peek : Reader _) ts = .ok t rest) : t = current ts ∧ ts = rest := by
  cases h
  exact ⟨rfl, rfl⟩

theorem advance_ok {t : Token} (h : (advance : Reader _) ts = .ok t rest)
    (more : (current ts).kind ≠ .eof) : t = current ts ∧ Taken ts [.token t] rest := by
  cases ts with
  | nil => exact (more rfl).elim
  | cons u back =>
    have inside : u.kind ≠ .eof := more
    rw [advance_of_inside inside] at h
    cases h
    exact ⟨rfl, [t], rfl, written_token_iff.mpr ⟨[], rfl, written_nil⟩, by simpa using inside⟩

theorem accept_some {k : Kind} {t : Token} (h : (accept k : Reader _) ts = .ok (some t) rest)
    (real : k ≠ .eof) : t.kind = k ∧ Taken ts [.token t] rest := by
  unfold accept at h
  obtain ⟨kind, _, peeked, h⟩ := bind_ok h
  obtain ⟨rfl, rfl⟩ := peekKind_ok peeked
  split at h
  · rename_i same
    obtain ⟨u, _, advanced, h⟩ := bind_ok h
    obtain ⟨kept, rfl⟩ := pure_ok h
    obtain rfl := Option.some.inj kept
    obtain ⟨rfl, taken⟩ := advance_ok advanced (by rw [same]; exact real)
    exact ⟨same, taken⟩
  · cases (pure_ok h).1

theorem accept_none {k : Kind} (h : (accept k : Reader _) ts = .ok none rest) :
    (current ts).kind ≠ k ∧ rest = ts := by
  unfold accept at h
  obtain ⟨kind, _, peeked, h⟩ := bind_ok h
  obtain ⟨rfl, rfl⟩ := peekKind_ok peeked
  split at h
  · obtain ⟨u, _, advanced, h⟩ := bind_ok h
    cases (pure_ok h).1
  · rename_i different
    exact ⟨different, (pure_ok h).2⟩

theorem expect_ok {k : Kind} {place : Place} {t : Token}
    (h : (expect k place : Reader _) ts = .ok t rest) (real : k ≠ .eof) :
    t.kind = k ∧ Taken ts [.token t] rest := by
  unfold expect at h
  obtain ⟨found, mid, accepted, h⟩ := bind_ok h
  cases found with
  | some u =>
    obtain ⟨rfl, rfl⟩ := pure_ok h
    exact accept_some accepted real
  | none => exact (fail_ok h).elim

theorem expect_taken {k : Kind} {place : Place} {t : Token}
    (h : (expect k place : Reader _) ts = .ok t rest) (real : k ≠ .eof) :
    Taken ts [.kind k] rest := by
  obtain ⟨same, taken⟩ := expect_ok h real
  exact taken.drop same

/-- Reading on after a token that may or may not be there. -/
theorem accept_bind_ok {k : Kind} {next : Option Token → Reader β} {w : β}
    (went : (accept k >>= next) ts = .ok w rest) (real : k ≠ .eof) :
    (∃ t mid, Taken ts [.kind k] mid ∧ next (some t) mid = .ok w rest) ∨
      (current ts).kind ≠ k ∧ next none ts = .ok w rest := by
  obtain ⟨found, mid, accepted, h⟩ := bind_ok went
  cases found with
  | some t =>
    obtain ⟨same, taken⟩ := accept_some accepted real
    exact .inl ⟨t, mid, taken.drop same, h⟩
  | none =>
    obtain ⟨different, rfl⟩ := accept_none accepted
    exact .inr ⟨different, h⟩

/-! ### Loops -/

/-- A round of a loop gives a good value, written by the tokens that the round takes, or nothing at
all. -/
def Rounds (r : Reader (Option α)) (good : α → Prop) (yield : α → List Mark) : Prop :=
  ∀ ts o rest, r ts = .ok o rest →
    (∃ v, o = some v ∧ good v ∧ Taken ts (yield v) rest) ∨ o = none ∧ rest = ts

theorem repeatFrom_ok {r : Reader (Option α)} {good : α → Prop} {yield : α → List Mark}
    (rounds : Rounds r good yield) {bound : List Token} {read vs : List α}
    (h : repeatFrom r bound read ts = .ok vs rest) :
    ∃ new, vs = read.reverse ++ new ∧ (∀ v ∈ new, good v) ∧ Taken ts (new.flatMap yield) rest := by
  induction bound generalizing ts read with
  | nil =>
    cases h
    exact ⟨[], by simp, by simp, .nothing _⟩
  | cons _ bound ih =>
    unfold repeatFrom at h
    split at h
    · rename_i v mid round
      obtain ⟨_, same, isGood, taken⟩ | ⟨absent, _⟩ := rounds _ _ _ round
      · obtain rfl := Option.some.inj same
        obtain ⟨new, rfl, allGood, rest⟩ := ih h
        exact ⟨v :: new, by simp, List.forall_mem_cons.mpr ⟨isGood, allGood⟩, taken.trans rest⟩
      · cases absent
    · rename_i left round
      cases h
      obtain ⟨_, absent, _⟩ | ⟨_, rfl⟩ := rounds _ _ _ round
      · cases absent
      · exact ⟨[], by simp, by simp, .nothing _⟩
    · cases h

theorem many_ok {r : Reader (Option α)} {good : α → Prop} {yield : α → List Mark}
    (rounds : Rounds r good yield) {vs : List α} (h : many r ts = .ok vs rest) :
    (∀ v ∈ vs, good v) ∧ Taken ts (vs.flatMap yield) rest := by
  obtain ⟨new, rfl, good, taken⟩ := repeatFrom_ok rounds h
  exact ⟨good, taken⟩

/-- A loop without any round stops where it starts, since its reader gives nothing there. -/
theorem many_ok_nil {r : Reader (Option α)} {good : α → Prop} {yield : α → List Mark}
    (rounds : Rounds r good yield) (h : many r ts = .ok [] rest) :
    ts = [] ∨ r ts = .ok none rest := by
  cases ts with
  | nil => exact .inl rfl
  | cons t back =>
    rw [many_eq, repeatFrom] at h
    split at h
    · obtain ⟨new, wrong, -⟩ := repeatFrom_ok rounds h
      simp at wrong
    · rename_i left round
      cases h
      exact .inr round
    · cases h

end Reader

end GameLang
