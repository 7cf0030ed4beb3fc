import GameLang.Json.Real
import GameLang.Proofs.Lexing.Stuck

/-!
# JSON numbers

`IsNumber` is the grammar of JSON for numbers. Integers and finite real numbers are written as such
(`isNumber_shownInt`, `writesReals_realText`).
-/

namespace GameLang.Json

open Decimal

/-- A zero alone, or digits that start with another one. -/
def IsWhole (w : List Char) : Prop := IsDigits w ∧ (w.head? = some '0' → w = ['0'])

def IsFraction (w : List Char) : Prop := w = [] ∨ ∃ digits, w = '.' :: digits ∧ IsDigits digits

def IsExponent (w : List Char) : Prop :=
  w = [] ∨ ∃ mark sign digits, w = mark :: (sign ++ digits) ∧ mark ∈ ['e', 'E'] ∧
    sign ∈ [[], ['+'], ['-']] ∧ IsDigits digits

def IsNumber (w : List Char) : Prop :=
  ∃ sign whole fraction exponent, w = sign ++ (whole ++ (fraction ++ exponent)) ∧
    sign ∈ [[], ['-']] ∧ IsWhole whole ∧ IsFraction fraction ∧ IsExponent exponent

variable {digits w : List Char} {lead : Int}

/-! ### Digits -/

theorem isDigits_append {back : List Char} (first : IsDigits digits)
    (second : ∀ c ∈ back, c.isDigit = true) : IsDigits (digits ++ back) :=
  ⟨by simp [first.1], List.forall_mem_append.mpr ⟨first.2, second⟩⟩

theorem isDigit_of_mem_replicate (count : Nat) :
    ∀ c ∈ List.replicate count '0', c.isDigit = true := by
  intro c member
  rw [List.eq_of_mem_replicate member]
  rfl

theorem isDigits_digitsOf (n : Nat) : IsDigits (digitsOf n) :=
  ⟨Nat.toDigits_ne_nil, fun _ member =>
    Nat.isDigit_of_mem_toDigits (by decide) (Nat.le_refl 10) member⟩

theorem head?_digitsOf (n : Nat) : (digitsOf n).head? = some '0' → n = 0 := by
  induction n using Nat.strongRecOn with
  | ind n ih =>
    unfold digitsOf at *
    intro first
    by_cases small : n < 10
    · rw [Nat.toDigits_of_lt_base small] at first
      have found : n.digitChar = '0' := Option.some.inj first
      clear ih first
      revert found
      decide +revert
    · have large : 10 ≤ n := Nat.not_lt.mp small
      have less : n / 10 < n := Nat.div_lt_self (by omega) (by decide)
      obtain ⟨c, others, same⟩ := List.exists_cons_of_ne_nil (@Nat.toDigits_ne_nil (n / 10) 10)
      rw [Nat.toDigits_of_base_le (by decide) large, same] at first
      -- The leading digit is that of the quotient, which is no zero.
      have none := ih (n / 10) less (by rw [same]; exact first)
      omega

theorem isWhole_digitsOf (n : Nat) : IsWhole (digitsOf n) := by
  refine ⟨isDigits_digitsOf n, fun first => ?_⟩
  rw [head?_digitsOf n first]
  decide

theorem isWhole_zero : IsWhole ['0'] := isWhole_digitsOf 0

theorem isFraction_zero : IsFraction ['.', '0'] := .inr ⟨['0'], rfl, isWhole_zero.1⟩

/-! ### Numbers -/

theorem IsWhole.isNumber (whole : IsWhole w) : IsNumber w :=
  ⟨[], w, [], [], by simp, by simp, whole, .inl rfl, .inl rfl⟩

theorem IsNumber.first (numeral : IsNumber w) :
    ∃ c others, w = c :: others ∧ (c = '-' ∨ c.isDigit = true) := by
  obtain ⟨sign, whole, fraction, exponent, rfl, signed, digits, -⟩ := numeral
  obtain ⟨c, others, rfl, digit⟩ := digits.1.first
  rcases List.mem_cons.mp signed with rfl | signed
  · exact ⟨c, _, rfl, .inr digit⟩
  · obtain rfl := List.mem_singleton.mp signed
    exact ⟨'-', _, rfl, .inl rfl⟩

theorem isNumber_shownInt (n : Int) : IsNumber (shownInt n).toList := by
  unfold shownInt shownNat
  by_cases negative : n < 0
  · rw [if_pos negative, String.toList_append, String.toList_ofList]
    exact ⟨['-'], digitsOf n.natAbs, [], [], by simp, by simp, isWhole_digitsOf _, .inl rfl, .inl rfl⟩
  · rw [if_neg negative, String.toList_ofList]
    exact (isWhole_digitsOf _).isNumber

/-- A leading zero stands alone, so it must be in front of the point. -/
theorem isNumber_positional (whole : IsWhole digits) (zero : digits.head? = some '0' → lead ≤ 0) :
    ∃ front fraction, positional digits lead = front ++ fraction ∧ IsWhole front ∧
      IsFraction fraction := by
  unfold positional
  by_cases small : lead < 0
  · rw [if_pos small]
    refine ⟨['0'], '.' :: (List.replicate (-lead - 1).toNat '0' ++ digits), rfl, isWhole_zero,
      .inr ⟨_, rfl, by simp [whole.1.1], ?_⟩⟩
    exact List.forall_mem_append.mpr ⟨isDigit_of_mem_replicate _, whole.1.2⟩
  rw [if_neg small]
  dsimp only
  by_cases long : digits.length ≤ (lead + 1).toNat
  · rw [if_pos long]
    refine ⟨digits ++ List.replicate ((lead + 1).toNat - digits.length) '0', ['.', '0'], rfl,
      ⟨isDigits_append whole.1 (isDigit_of_mem_replicate _), fun first => ?_⟩, isFraction_zero⟩
    obtain ⟨c, others, rfl, -⟩ := whole.1.first
    have first : (c :: others).head? = some '0' := first
    have alone := whole.2 first
    have low := zero first
    have none : (lead + 1).toNat - (c :: others).length = 0 := by
      rw [alone, List.length_singleton]
      omega
    rw [none, alone]
    rfl
  · rw [if_neg long]
    obtain ⟨c, others, rfl, digit⟩ := whole.1.first
    obtain ⟨n, more⟩ : ∃ n, (lead + 1).toNat = n + 1 := ⟨lead.toNat, by omega⟩
    rw [more] at long ⊢
    have all := List.forall_mem_cons.mp whole.1.2
    refine ⟨c :: others.take n, '.' :: others.drop n, rfl, ⟨⟨by simp, ?_⟩, fun first => ?_⟩,
      .inr ⟨_, rfl, ?_, fun d member => all.2 d (List.mem_of_mem_drop member)⟩⟩
    · exact List.forall_mem_cons.mpr ⟨digit, fun d member => all.2 d (List.mem_of_mem_take member)⟩
    · have alone : others = [] := (List.cons.inj (whole.2 first)).2
      rw [alone, List.take_nil, (Option.some.inj first : c = '0')]
    · intro nothing
      have few := List.drop_eq_nil_iff.mp nothing
      rw [List.length_cons] at long
      omega

theorem isNumber_scientific {style : Style} (plus : style.exponentPlus ∈ ["", "+"])
    (some : IsDigits digits) (lead : Int) :
    ∃ front fraction exponent, scientific style digits lead = front ++ (fraction ++ exponent) ∧
      IsWhole front ∧ IsFraction fraction ∧ IsExponent exponent := by
  obtain ⟨c, others, rfl, digit⟩ := some.first
  have all := (List.forall_mem_cons.mp some.2).2
  have sign : (if lead < 0 then ['-'] else style.exponentPlus.toList) ∈ [[], ['+'], ['-']] := by
    by_cases negative : lead < 0
    · rw [if_pos negative]
      decide
    · rw [if_neg negative]
      rcases List.mem_cons.mp plus with same | same
      · rw [same]
        decide
      · rw [List.mem_singleton.mp same]
        decide
  unfold scientific
  refine ⟨[c], _, 'e' :: (_ ++ digitsOf lead.natAbs), List.append_assoc _ _ _,
    ⟨⟨by simp, List.forall_mem_singleton.mpr digit⟩, fun first => ?_⟩, ?_,
    .inr ⟨'e', _, _, rfl, by decide, sign, isDigits_digitsOf _⟩⟩
  · rw [(Option.some.inj first : c = '0')]
  · cases others with
    | nil => exact .inl rfl
    | cons d others => exact .inr ⟨d :: others, rfl, by simp, all⟩

/-! ### Real numbers -/

variable {x : Binary64}

theorem Binary64.significand_pos (nonzero : x.isZero = false) : 0 < x.significand := by
  unfold Binary64.significand
  by_cases subnormal : x.field = 0
  · rw [if_pos subnormal]
    have other : x.fraction ≠ 0 := by simpa [Binary64.isZero, subnormal] using nonzero
    exact Nat.pos_of_ne_zero other
  · rw [if_neg subnormal]
    exact Nat.add_pos_left (Nat.pow_pos (by decide)) _

theorem low_pos (nonzero : x.isZero = false) : 0 < x.interval.low := by
  have positive := Binary64.significand_pos nonzero
  unfold Binary64.interval
  dsimp only
  split <;> omega

/-- A zero is in no interval whose ends are positive. -/
theorem Interval.contains_zero {i : Interval} {factor : Nat} (low : 0 < i.low) (high : 0 < i.high)
    (positive : 0 < factor) : i.contains factor 0 = false := by
  have lowEnd : 0 ≠ i.low * factor := Nat.ne_of_lt (Nat.mul_pos low positive)
  have highEnd : 0 ≠ i.high * factor := Nat.ne_of_lt (Nat.mul_pos high positive)
  unfold Interval.contains
  simp [lowEnd, highEnd]

theorem neighbour?_digits_pos {tie : Tie} {i : Interval} {scale : Nat} {exponent : Int} {hit : Scientific}
    (low : 0 < i.low) (high : 0 < i.high) (found : neighbour? tie i scale exponent = some hit) :
    0 < hit.digits := by
  unfold neighbour? at found
  extract_lets factor step value below lower upper takesUpper at found
  have positive : 0 < factor := Nat.mul_pos (Nat.pow_pos (by decide)) (Nat.pow_pos (by decide))
  have zero := Interval.contains_zero low high positive
  split at found
  · obtain rfl := Option.some.inj found
    exact Nat.succ_pos _
  split at found
  · rename_i inside
    obtain rfl := Option.some.inj found
    refine Nat.pos_of_ne_zero fun none => ?_
    have none : below = 0 := none
    have inside : i.contains factor (below * step) = true := inside
    rw [none, Nat.zero_mul, zero] at inside
    cases inside
  · cases found

-- The grids are not to be computed, only their order matters.
attribute [local irreducible] neighbour? in
theorem firstHit_succ (tie : Tie) (i : Interval) (scale count : Nat) (exponent : Int) :
    firstHit tie i scale (count + 1) exponent =
      match neighbour? tie i scale exponent with
      | some hit => some hit
      | none => firstHit tie i scale count (exponent - 1) := rfl

theorem firstHit_digits_pos {tie : Tie} {i : Interval} {scale : Nat} {hit : Scientific} (low : 0 < i.low)
    (high : 0 < i.high) {count : Nat} {exponent : Int}
    (found : firstHit tie i scale count exponent = some hit) : 0 < hit.digits := by
  induction count generalizing exponent with
  | zero =>
    have none : firstHit tie i scale 0 exponent = none := rfl
    rw [none] at found
    cases found
  | succ count ih =>
    rw [firstHit_succ] at found
    cases near : neighbour? tie i scale exponent with
    | none =>
      rw [near] at found
      exact ih found
    | some neighbour =>
      rw [near] at found
      obtain rfl := Option.some.inj found
      exact neighbour?_digits_pos low high near

theorem shortest_exponent (nonzero : x.isZero = false) (tie : Tie) :
    (x.shortest tie).digits = 0 → (x.shortest tie).exponent ≤ 0 := by
  have high : 0 < x.interval.high := by
    show 0 < 4 * x.significand + 2
    omega
  unfold Binary64.shortest
  cases found : firstHit tie x.interval x.scale gridCount (topExponent x.interval x.scale) with
  | none => exact fun _ => Int.le_refl 0
  | some hit =>
    intro none
    have positive := firstHit_digits_pos (low_pos nonzero) high found
    rw [Option.getD_some] at none
    omega

theorem isNumber_write {style : Style} (plus : style.exponentPlus ∈ ["", "+"]) {d : Scientific}
    (zero : d.digits = 0 → d.exponent ≤ 0) :
    ∃ front fraction exponent, style.write d = front ++ (fraction ++ exponent) ∧ IsWhole front ∧
      IsFraction fraction ∧ IsExponent exponent := by
  unfold Style.write
  dsimp only
  split
  · have low : (digitsOf d.digits).head? = some '0' →
        d.exponent + (digitsOf d.digits).length - 1 ≤ 0 := by
      intro first
      have none := zero (head?_digitsOf _ first)
      have alone := (isWhole_digitsOf d.digits).2 first
      rw [alone, List.length_singleton]
      omega
    obtain ⟨front, fraction, same, whole, fractional⟩ :=
      isNumber_positional (isWhole_digitsOf d.digits) low
    exact ⟨front, fraction, [], by rw [List.append_nil, same], whole, fractional, .inl rfl⟩
  · exact isNumber_scientific plus (isDigits_digitsOf d.digits) _

theorem isNumber_finite {style : Style} (plus : style.exponentPlus ∈ ["", "+"]) (x : Binary64) :
    IsNumber (style.finite x).toList := by
  have magnitude : ∃ front fraction exponent,
      (if x.isZero then ['0', '.', '0'] else style.write (x.shortest style.tie)) =
        front ++ (fraction ++ exponent) ∧
      IsWhole front ∧ IsFraction fraction ∧ IsExponent exponent := by
    cases nonzero : x.isZero with
    | true =>
      rw [if_pos rfl]
      exact ⟨['0'], ['.', '0'], [], rfl, isWhole_zero, isFraction_zero, .inl rfl⟩
    | false =>
      rw [if_neg Bool.false_ne_true]
      exact isNumber_write plus (shortest_exponent nonzero style.tie)
  obtain ⟨front, fraction, exponent, same, whole, fractional, power⟩ := magnitude
  unfold Style.finite
  dsimp only
  rw [String.toList_ofList, same]
  cases x.isNegative with
  | false => exact ⟨[], front, fraction, exponent, rfl, by simp, whole, fractional, power⟩
  | true => exact ⟨['-'], front, fraction, exponent, rfl, by simp, whole, fractional, power⟩

/-- Real numbers are written as JSON has them: as a number, or as nothing if they are none. -/
def WritesReals (reals : Binary64 → String) : Prop :=
  ∀ x, reals x = "null" ∨ IsNumber (reals x).toList

theorem writesReals_realText : WritesReals realText := by
  intro x
  unfold realText
  by_cases finite : x.isFinite = true
  · rw [if_pos finite]
    exact .inr (isNumber_finite (by decide) x)
  · rw [if_neg finite]
    exact .inl rfl

end GameLang.Json
