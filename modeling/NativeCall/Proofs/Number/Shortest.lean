import NativeCall.Number.Shortest
import NativeCall.Proofs.Number.Nearest

/-!
The shortest decimal of a number reads back as that number. The reals of its neighbourhood are those
that it is nearest to; the search through the decimal grids ends at one of them, since on the grid
of seventeen digits a unit is less than half the neighbourhood.
-/

set_option autoImplicit false
set_option relaxedAutoImplicit false

namespace NativeCall.Double

def Scientific.value (s : Scientific) : ℚ :=
  s.digits * 10 ^ s.power

namespace Quotient

def value (q : Quotient) : ℚ :=
  q.num / q.den

private theorem le_iff {a b : Quotient} (left : 0 < a.den) (right : 0 < b.den) :
    a.le b = true ↔ a.value ≤ b.value := by
  rw [le, decide_eq_true_eq, value, value, div_le_div_iff₀ (by exact_mod_cast left)
    (by exact_mod_cast right)]
  exact_mod_cast Iff.rfl

private theorem lt_iff {a b : Quotient} (left : 0 < a.den) (right : 0 < b.den) :
    a.lt b = true ↔ a.value < b.value := by
  rw [lt, decide_eq_true_eq, value, value, div_lt_div_iff₀ (by exact_mod_cast left)
    (by exact_mod_cast right)]
  exact_mod_cast Iff.rfl

private theorem den_binary_pos (n : Nat) (power : Int) : 0 < (binary n power).den :=
  Nat.pow_pos two_pos

private theorem value_binary (n : Nat) (power : Int) : (binary n power).value = n * 2 ^ power := by
  have ratio := scaleBinary_ratio n 1 power
  rw [Nat.cast_one, div_one, scaleBinary, one_mul] at ratio
  exact ratio

private theorem den_inUnits_pos {q : Quotient} (positive : 0 < q.den) (power : Int) :
    0 < (q.inUnits power).den :=
  Nat.mul_pos positive (Nat.pow_pos (by decide))

private theorem value_inUnits (q : Quotient) (power : Int) :
    (q.inUnits power).value = q.value / 10 ^ power := by
  obtain ⟨k, rfl | rfl⟩ := power.eq_nat_or_neg
  · simp only [value, inUnits, Int.toNat_natCast, Int.toNat_neg_natCast, Nat.pow_eq, pow_zero,
      mul_one, Nat.cast_mul, Nat.cast_pow, Nat.cast_ofNat, zpow_natCast]
    rw [div_mul_eq_div_div]
  · simp only [value, inUnits, neg_neg, Int.toNat_natCast, Int.toNat_neg_natCast, Nat.pow_eq,
      pow_zero, mul_one, Nat.cast_mul, Nat.cast_pow, Nat.cast_ofNat, zpow_neg, zpow_natCast]
    rw [div_inv_eq_mul]
    ring

private theorem floor_le {q : Quotient} (positive : 0 < q.den) :
    (q.floor : ℚ) ≤ q.value ∧ q.value < q.floor + 1 := by
  have unit : (0 : ℚ) < q.den := by exact_mod_cast positive
  rw [value, le_div_iff₀ unit, div_lt_iff₀ unit]
  constructor
  · exact_mod_cast Nat.div_mul_le_self q.num q.den
  · rw [mul_comm]
    exact_mod_cast Nat.lt_mul_div_succ q.num positive

private theorem pow_length_digits_le {n : Nat} (some : 0 < n) :
    10 ^ ((Text.Decimal.digits n).length - 1) ≤ n := by
  by_contra small
  have nonempty : 0 < (Text.Decimal.digits n).length :=
    List.length_pos_iff.2 Nat.toDigits_ne_nil
  by_cases single : (Text.Decimal.digits n).length - 1 = 0
  · rw [single, pow_zero] at small
    omega
  · have shorter : (Text.Decimal.digits n).length ≤ (Text.Decimal.digits n).length - 1 :=
      (Nat.length_toDigits_le_iff (by decide) (Nat.pos_of_ne_zero single)).2 (by omega)
    omega

private theorem lt_pow_length_digits (n : Nat) : n < 10 ^ (Text.Decimal.digits n).length :=
  (Nat.length_toDigits_le_iff (by decide) (List.length_pos_iff.2 Nat.toDigits_ne_nil)).1
    (Nat.le_refl _)

private theorem decimalExponent_le {q : Quotient} (some : 0 < q.num) (positive : 0 < q.den) :
    (10 : ℚ) ^ q.decimalExponent ≤ q.value := by
  have unit : (0 : ℚ) < q.den := by exact_mod_cast positive
  unfold decimalExponent
  split
  · next large =>
    have first : 0 < q.floor := Nat.div_pos large positive
    have nonempty : 0 < (Text.Decimal.digits q.floor).length :=
      List.length_pos_iff.2 Nat.toDigits_ne_nil
    have power : ((Text.Decimal.digits q.floor).length : Int) - 1 =
        ((Text.Decimal.digits q.floor).length - 1 : Nat) := by omega
    rw [power, zpow_natCast]
    calc (10 : ℚ) ^ ((Text.Decimal.digits q.floor).length - 1) ≤ q.floor := by
          exact_mod_cast pow_length_digits_le first
      _ ≤ q.value := (floor_le positive).1
  · next small =>
    have top : (0 : ℚ) < q.num := by exact_mod_cast some
    have whole := lt_pow_length_digits ((Quotient.mk q.den q.num).ceil - 1)
    generalize (Text.Decimal.digits ((Quotient.mk q.den q.num).ceil - 1)).length = count at whole ⊢
    -- the quotient the other way round is at most its upper whole number
    have upper : q.den ≤ q.num * (Quotient.mk q.den q.num).ceil := by
      have division := Nat.div_add_mod (q.den + q.num - 1) q.num
      have rest := Nat.mod_lt (q.den + q.num - 1) some
      unfold ceil
      dsimp only
      omega
    have within : q.den ≤ q.num * 10 ^ count :=
      upper.trans (Nat.mul_le_mul_left _ (by omega))
    rw [zpow_neg, zpow_natCast, value, inv_le_comm₀ (by positivity) (by positivity), inv_div,
      div_le_iff₀ top, mul_comm]
    exact_mod_cast within

end Quotient

namespace Neighbourhood

/-- The reals of a neighbourhood. -/
def Holds (n : Neighbourhood) (x : ℚ) : Prop :=
  if n.closed then n.low.value ≤ x ∧ x ≤ n.high.value
  else n.low.value < x ∧ x < n.high.value

private structure Sound (n : Neighbourhood) : Prop where
  low : 0 < n.low.den
  value : 0 < n.value.den
  high : 0 < n.high.den

private theorem sound_of (d : Double) : (of d).Sound :=
  ⟨Quotient.den_binary_pos _ _, Quotient.den_binary_pos _ _, Quotient.den_binary_pos _ _⟩

private theorem Holds.of_lt {n : Neighbourhood} {x : ℚ} (low : n.low.value < x)
    (high : x < n.high.value) : n.Holds x := by
  unfold Holds
  split
  · exact ⟨low.le, high.le⟩
  · exact ⟨low, high⟩

private theorem Holds.le {n : Neighbourhood} {x : ℚ} (held : n.Holds x) :
    n.low.value ≤ x ∧ x ≤ n.high.value := by
  unfold Holds at held
  split at held
  · exact held
  · exact ⟨held.1.le, held.2.le⟩

private theorem holds_inUnits_iff {n : Neighbourhood} (sound : n.Sound) (power : Int) (k : Nat) :
    (Neighbourhood.mk (n.low.inUnits power) (n.value.inUnits power) (n.high.inUnits power)
      n.closed).holds ⟨k, 1⟩ = true ↔ n.Holds (k * 10 ^ power) := by
  have unit : (0 : ℚ) < 10 ^ power := by positivity
  have low := Quotient.den_inUnits_pos sound.low power
  have high := Quotient.den_inUnits_pos sound.high power
  have whole : (Quotient.mk k 1).value = k := by simp [Quotient.value]
  unfold holds Holds
  dsimp only
  split
  · rw [Bool.and_eq_true, Quotient.le_iff low Nat.one_pos, Quotient.le_iff Nat.one_pos high, whole,
      Quotient.value_inUnits, Quotient.value_inUnits, div_le_iff₀ unit, le_div_iff₀ unit]
  · rw [Bool.and_eq_true, Quotient.lt_iff low Nat.one_pos, Quotient.lt_iff Nat.one_pos high, whole,
      Quotient.value_inUnits, Quotient.value_inUnits, div_lt_iff₀ unit, lt_div_iff₀ unit]

private theorem holds_of_onGrid {n : Neighbourhood} (sound : n.Sound) {tie : Tie} {power : Int}
    {digits : Nat} (found : n.onGrid tie power = some digits) : n.Holds (digits * 10 ^ power) := by
  unfold onGrid at found
  dsimp only at found
  split at found
  · next below above =>
    rw [holds_inUnits_iff sound] at below above
    obtain rfl := Option.some.inj found
    split
    · exact below
    · exact above
  · next below _ =>
    rw [holds_inUnits_iff sound] at below
    obtain rfl := Option.some.inj found
    exact below
  · next _ above =>
    rw [holds_inUnits_iff sound] at above
    obtain rfl := Option.some.inj found
    exact above
  · cases found

/-- On a grid whose unit is less than twice the width of the neighbourhood on either side, one of
the two multiples around the number is near enough. -/
private theorem exists_onGrid {n : Neighbourhood} (sound : n.Sound) {gap : ℚ} {power : Int}
    (low : n.low.value + gap ≤ n.value.value) (high : n.value.value + gap ≤ n.high.value)
    (fine : (10 : ℚ) ^ power < 2 * gap) (tie : Tie) :
    ∃ digits, n.onGrid tie power = some digits := by
  have unit : (0 : ℚ) < 10 ^ power := by positivity
  obtain ⟨least, most⟩ := Quotient.floor_le (Quotient.den_inUnits_pos sound.value power)
  rw [Quotient.value_inUnits, le_div_iff₀ unit] at least
  rw [Quotient.value_inUnits, div_lt_iff₀ unit, add_mul, one_mul] at most
  unfold onGrid
  dsimp only
  split
  · exact ⟨_, rfl⟩
  · exact ⟨_, rfl⟩
  · exact ⟨_, rfl⟩
  · next below above =>
    rw [← Bool.not_eq_true, holds_inUnits_iff sound] at below above
    rw [Nat.cast_add_one, add_mul, one_mul] at above
    exfalso
    rcases lt_or_ge n.low.value ((n.value.inUnits power).floor * 10 ^ power) with near | far
    · exact below (.of_lt near (by linarith))
    · exact above (.of_lt (by linarith) (by linarith))

private theorem holds_search {n : Neighbourhood} (sound : n.Sound) (tie : Tie) (exponent : Int)
    (last : Nat) {fuel count : Nat} (least : count ≤ last) (most : last < count + fuel)
    (reached : ∃ digits, n.onGrid tie (exponent - last + 1) = some digits) :
    n.Holds (n.search tie exponent fuel count).value := by
  induction fuel generalizing count with
  | zero => omega
  | succ fuel ih =>
    unfold search
    cases found : n.onGrid tie (exponent - count + 1) with
    | some digits => exact holds_of_onGrid sound found
    | none =>
      refine ih (Nat.lt_of_le_of_ne least ?_) (by omega)
      rintro rfl
      obtain ⟨digits, some⟩ := reached
      cases some.symm.trans found

end Neighbourhood

section

variable {d : Double}

private theorem significand_pos (something : d.isZero = false) : 0 < d.significand := by
  unfold significand
  split
  · next field =>
    have fraction : d.fraction ≠ 0 := by
      intro none
      rw [isZero, field, none] at something
      cases something
    exact Nat.pos_of_ne_zero fraction
  · exact Nat.lt_add_right _ (by decide)

private def fineBelow (d : Double) : Prop :=
  d.fraction = 0 ∧ 1 < d.exponentField

private theorem significand_of_fine (fine : d.fineBelow) : d.significand = 2 ^ 52 := by
  rw [significand, if_neg (by have := fine.2; omega), fine.1]
  rfl

private theorem value_neighbourhood (d : Double) :
    (Neighbourhood.of d).value.value = d.significand * 2 ^ d.lastPlace := by
  rw [Neighbourhood.of, Quotient.value_binary, zpow_sub₀ two_ne_zero]
  push_cast
  ring

private theorem high_neighbourhood (d : Double) :
    (Neighbourhood.of d).high.value = (d.significand + 1 / 2) * 2 ^ d.lastPlace := by
  rw [Neighbourhood.of, Quotient.value_binary, zpow_sub₀ two_ne_zero]
  push_cast
  ring

private theorem low_neighbourhood_fine (fine : d.fineBelow) :
    (Neighbourhood.of d).low.value = (d.significand - 1 / 4) * 2 ^ d.lastPlace := by
  have chosen : (d.fraction == 0 && decide (1 < d.exponentField)) = true := by
    simp [fine.1, fine.2]
  have large : 1 ≤ 4 * d.significand := by rw [significand_of_fine fine]; decide
  simp only [Neighbourhood.of, chosen, ↓reduceIte]
  rw [Quotient.value_binary, zpow_sub₀ two_ne_zero, Nat.cast_sub large]
  push_cast
  ring

private theorem low_neighbourhood (something : d.isZero = false) (even : ¬ d.fineBelow) :
    (Neighbourhood.of d).low.value = (d.significand - 1 / 2) * 2 ^ d.lastPlace := by
  have chosen : (d.fraction == 0 && decide (1 < d.exponentField)) = false := by
    rw [← Bool.not_eq_true, Bool.and_eq_true, beq_iff_eq, decide_eq_true_eq]
    exact even
  have large : 2 ≤ 4 * d.significand := by have := significand_pos something; omega
  simp only [Neighbourhood.of, chosen, Bool.false_eq_true, ↓reduceIte]
  rw [Quotient.value_binary, zpow_sub₀ two_ne_zero, Nat.cast_sub large]
  push_cast
  ring

private theorem Neighbourhood.Holds.units {x : ℚ} (held : (Neighbourhood.of d).Holds x)
    (something : d.isZero = false) :
    |(d.significand : ℚ) - x / 2 ^ d.lastPlace| ≤ 1 / 2 ∧
      (|(d.significand : ℚ) - x / 2 ^ d.lastPlace| = 1 / 2 → d.significand % 2 = 0) ∧
      (d.fineBelow → (d.significand : ℚ) - 1 / 4 ≤ x / 2 ^ d.lastPlace) := by
  have weight : (0 : ℚ) < 2 ^ d.lastPlace := by positivity
  have low : (d.significand : ℚ) - 1 / 2 ≤ (Neighbourhood.of d).low.value / 2 ^ d.lastPlace := by
    rw [le_div_iff₀ weight]
    by_cases fine : d.fineBelow
    · rw [low_neighbourhood_fine fine]
      gcongr
      norm_num
    · rw [low_neighbourhood something fine]
  have high : (Neighbourhood.of d).high.value / 2 ^ d.lastPlace = (d.significand : ℚ) + 1 / 2 := by
    rw [high_neighbourhood, mul_div_cancel_right₀ _ weight.ne']
  obtain ⟨least, most⟩ := held.le
  have least' := div_le_div_of_nonneg_right least weight.le
  have most' := div_le_div_of_nonneg_right most weight.le
  rw [high] at most'
  refine ⟨abs_le.2 ⟨by linarith, by linarith⟩, fun equal => ?_, fun fine => ?_⟩
  · by_contra odd
    have opened : (Neighbourhood.of d).closed = false := beq_false_of_ne odd
    unfold Neighbourhood.Holds at held
    rw [opened, if_neg Bool.false_ne_true] at held
    have above := div_lt_div_of_pos_right held.1 weight
    have below := div_lt_div_of_pos_right held.2 weight
    rw [high] at below
    rcases abs_cases ((d.significand : ℚ) - x / 2 ^ d.lastPlace) with ⟨same, -⟩ | ⟨same, -⟩
    · linarith
    · linarith
  · rw [low_neighbourhood_fine fine, mul_div_cancel_right₀ _ weight.ne'] at least'
    exact least'

private theorem normal_of_place (above : leastPlace < d.lastPlace) :
    1 < d.exponentField ∧ d.significand = 2 ^ 52 + d.fraction := by
  have field : 1 < d.exponentField := by
    simp only [lastPlace, leastPlace] at above
    omega
  rw [significand, if_neg (by omega)]
  exact ⟨field, rfl⟩

private theorem nearest_of_holds (finite : d.isFinite = true) (something : d.isZero = false) {x : ℚ}
    (held : (Neighbourhood.of d).Holds x) : Nearest d (sign d.negative * x) := by
  have weight : (0 : ℚ) < 2 ^ d.lastPlace := by positivity
  obtain ⟨half, even, quarter⟩ := held.units something
  by_cases below : d.fineBelow ∧ x / 2 ^ d.lastPlace < d.significand
  · -- such a real lies among numbers of the next lower place, of which the number is twice as many
    obtain ⟨fine, less⟩ := below
    have close := quarter fine
    have leading : (d.significand : ℚ) = 2 ^ 52 := by exact_mod_cast significand_of_fine fine
    have scaled : x / 2 ^ (d.lastPlace - 1) = 2 * (x / 2 ^ d.lastPlace) := by
      rw [zpow_sub_one₀ two_ne_zero]
      field_simp
    refine nearest_of_units finite (d.lastPlace - 1) (2 * d.significand)
      (nearest_of_half ?_ fun _ => Nat.mul_mod_right 2 _) (fun _ => ?_) ?_ fun _ => ?_
    · rw [scaled]
      push_cast
      rw [abs_le]
      constructor <;> linarith
    · rw [zpow_sub_one₀ two_ne_zero]
      rw [sub_le_iff_le_add, leading] at close
      have large := (mul_le_mul_iff_left₀ weight).2 close
      rw [add_mul, div_mul_cancel₀ _ weight.ne'] at large
      linarith
    · rw [value, zpow_sub_one₀ two_ne_zero]
      push_cast
      ring
    · rw [significand_of_fine fine]
      rfl
  · refine nearest_of_units finite d.lastPlace d.significand (nearest_of_half half even)
      (fun above => ?_) rfl id
    obtain ⟨field, digits⟩ := normal_of_place above
    have cast : (d.significand : ℚ) = 2 ^ 52 + d.fraction := by exact_mod_cast digits
    rw [← le_div_iff₀ weight]
    by_cases fine : d.fraction = 0
    · have least := not_lt.1 fun less => below ⟨⟨fine, field⟩, less⟩
      rw [cast, fine, Nat.cast_zero, add_zero] at least
      exact least
    · have positive : (1 : ℚ) ≤ d.fraction := by
        exact_mod_cast Nat.one_le_iff_ne_zero.2 fine
      have lower := (abs_le.1 half).2
      linarith

private theorem gap_neighbourhood (something : d.isZero = false) :
    let v := (Neighbourhood.of d).value.value
    (Neighbourhood.of d).low.value + v / 2 ^ 54 ≤ v ∧
      v + v / 2 ^ 54 ≤ (Neighbourhood.of d).high.value := by
  have weight : (0 : ℚ) < 2 ^ d.lastPlace := by positivity
  have bits : (d.significand : ℚ) < 2 ^ 53 := by exact_mod_cast d.significand_lt
  have small := mul_lt_mul_of_pos_right bits weight
  intro v
  rw [show v = _ from value_neighbourhood d, high_neighbourhood]
  refine ⟨?_, by linarith⟩
  by_cases fine : d.fineBelow
  · have leading : (d.significand : ℚ) = 2 ^ 52 := by exact_mod_cast significand_of_fine fine
    rw [low_neighbourhood_fine fine, leading]
    linarith
  · rw [low_neighbourhood something fine]
    linarith

private theorem Scientific.value_strip (fuel : Nat) (s : Scientific) :
    (s.strip fuel).value = s.value := by
  induction fuel generalizing s with
  | zero => rfl
  | succ fuel ih =>
    unfold strip
    split
    · next zeros =>
      have tens : (s.digits : ℚ) = (s.digits / 10 : Nat) * 10 := by
        exact_mod_cast (Nat.div_mul_cancel (Nat.dvd_of_mod_eq_zero zeros.2)).symm
      rw [ih, value, value, tens, zpow_add_one₀ (by norm_num)]
      ring
    · rfl

private theorem holds_shortest (something : d.isZero = false) (tie : Tie) :
    (Neighbourhood.of d).Holds (d.shortest tie).value := by
  have sound := Neighbourhood.sound_of d
  obtain ⟨low, high⟩ := gap_neighbourhood something
  have numerator : 0 < (Neighbourhood.of d).value.num :=
    Nat.mul_pos (Nat.mul_pos (by decide) (significand_pos something)) (Nat.pow_pos two_pos)
  have order := Quotient.decimalExponent_le numerator sound.value
  rw [shortest, something, if_neg Bool.false_ne_true]
  dsimp only
  rw [Scientific.value_strip]
  refine Neighbourhood.holds_search sound tie _ enoughDigits (by decide) (by decide) ?_
  refine Neighbourhood.exists_onGrid sound low high ?_ tie
  have unit : (10 : ℚ) ^ ((Neighbourhood.of d).value.decimalExponent - enoughDigits + 1) =
      10 ^ (Neighbourhood.of d).value.decimalExponent / 10 ^ 16 := by
    rw [enoughDigits, show (_ : Int) - (17 : Nat) + 1 = _ - 16 by ring, zpow_sub₀ (by norm_num)]
    norm_num
  have positive : (0 : ℚ) < 10 ^ (Neighbourhood.of d).value.decimalExponent := by positivity
  rw [unit]
  linarith

/-- The shortest decimal of a number reads back as it. -/
theorem nearest_shortest (finite : d.isFinite = true) (tie : Tie) :
    Nearest d (sign d.negative * (d.shortest tie).value) := by
  cases zero : d.isZero with
  | false => exact nearest_of_holds finite zero (holds_shortest zero tie)
  | true =>
    have nothing : (d.shortest tie).value = 0 := by
      simp [shortest, zero, Scientific.value]
    rw [nothing, mul_zero]
    exact nearest_of_isZero zero

theorem shortest_cases (d : Double) (tie : Tie) :
    d.shortest tie = ⟨0, 0⟩ ∨ 0 < (d.shortest tie).digits := by
  cases zero : d.isZero with
  | true => exact .inl (by simp [shortest, zero])
  | false =>
    right
    have low := (holds_shortest zero tie).le.1
    have positive : 0 < (Neighbourhood.of d).low.value := by
      have least : (1 : ℚ) ≤ d.significand := by exact_mod_cast significand_pos zero
      have weight : (0 : ℚ) < 2 ^ d.lastPlace := by positivity
      by_cases fine : d.fineBelow
      · rw [low_neighbourhood_fine fine]
        exact mul_pos (by linarith) weight
      · rw [low_neighbourhood zero fine]
        exact mul_pos (by linarith) weight
    by_contra none
    rw [Scientific.value, Nat.eq_zero_of_not_pos none, Nat.cast_zero, zero_mul] at low
    linarith

end

end NativeCall.Double
