import Mathlib.Algebra.Order.Field.Power
import Mathlib.Data.Rat.Cast.Order
import Mathlib.Tactic.FieldSimp
import Mathlib.Tactic.Linarith
import Mathlib.Tactic.Ring
import Mathlib.Tactic.Positivity
import NativeCall.Proofs.Number.Fields

/-!
Rounding to double-precision numbers. A finite number stands for a rational, and the number made
from a quotient is the nearest one, a tie going to the even significand:
`Double.nearest_ofQuotient`.
-/

set_option autoImplicit false
set_option relaxedAutoImplicit false

namespace NativeCall.Double

def sign (negative : Bool) : ℚ :=
  if negative then -1 else 1

def value (d : Double) : ℚ :=
  sign d.negative * (d.significand * 2 ^ d.lastPlace)

/-- No finite number is closer to a rational than this one, and if another is as close, this one
has the even significand. -/
structure Nearest (d : Double) (q : ℚ) : Prop where
  finite : d.isFinite = true
  closest : ∀ other : Double, other.isFinite = true → |d.value - q| ≤ |other.value - q|
  tie : ∀ other : Double, other.isFinite = true → |d.value - q| = |other.value - q| →
    other.value = d.value ∨ d.significand % 2 = 0

private theorem sign_mul_sign_mul (negative : Bool) (q : ℚ) :
    sign negative * (sign negative * q) = q := by
  cases negative <;> simp [sign]

private theorem abs_sign_mul (negative : Bool) (q : ℚ) : |sign negative * q| = |q| := by
  cases negative <;> simp [sign]

private theorem abs_sub_sign_mul (negative : Bool) (v q : ℚ) :
    |v - sign negative * q| = |sign negative * v - q| := by
  rw [← abs_sign_mul negative (v - _), mul_sub, sign_mul_sign_mul]

private theorem divideToEven_cases (num den : Nat) :
    (divideToEven num den = num / den ∧ 2 * (num % den) ≤ den ∧
      (2 * (num % den) = den → num / den % 2 = 0)) ∨
    (divideToEven num den = num / den + 1 ∧ den ≤ 2 * (num % den) ∧
      (2 * (num % den) = den → (num / den + 1) % 2 = 0)) := by
  unfold divideToEven
  dsimp only
  split
  · next up =>
    simp only [Bool.or_eq_true, Bool.and_eq_true, decide_eq_true_eq] at up
    right
    omega
  · next down =>
    simp only [Bool.or_eq_true, Bool.and_eq_true, decide_eq_true_eq] at down
    left
    omega

theorem nearest_of_half {units : Nat} {q : ℚ} (bound : |(units : ℚ) - q| ≤ 1 / 2)
    (even : |(units : ℚ) - q| = 1 / 2 → units % 2 = 0) (other : Int) :
    |(units : ℚ) - q| ≤ |(other : ℚ) - q| ∧
      (|(units : ℚ) - q| = |(other : ℚ) - q| → (other : ℚ) = units ∨ units % 2 = 0) := by
  by_cases same : other = (units : Int)
  · have cast : (other : ℚ) = units := by exact_mod_cast same
    rw [cast]
    exact ⟨le_refl _, fun _ => .inl rfl⟩
  · -- two whole numbers are at least one apart, and so only one can be within one half
    have apart : (1 : ℚ) ≤ |(other : ℚ) - units| := by
      have step : (1 : Int) ≤ |other - units| := Int.one_le_abs (sub_ne_zero.2 same)
      exact_mod_cast step
    have triangle : |(other : ℚ) - units| ≤ |(other : ℚ) - q| + |(units : ℚ) - q| := by
      rw [abs_sub_comm (units : ℚ)]
      exact abs_sub_le _ _ _
    refine ⟨by linarith, fun equal => .inr (even ?_)⟩
    linarith

section DivideToEven

variable (num : Nat) {den : Nat} (positive : 0 < den)

include positive

private theorem divideToEven_bound :
    |(divideToEven num den : ℚ) - num / den| ≤ 1 / 2 ∧
      (|(divideToEven num den : ℚ) - num / den| = 1 / 2 → divideToEven num den % 2 = 0) := by
  have unit : (0 : ℚ) < den := by exact_mod_cast positive
  have parts : (num : ℚ) = den * (num / den : Nat) + (num % den : Nat) := by
    exact_mod_cast (Nat.div_add_mod num den).symm
  have ratio : (num : ℚ) / den = (num / den : Nat) + ((num % den : Nat) : ℚ) / den := by
    rw [parts]
    field_simp
  -- a gap of one half leaves half the denominator as the remainder
  have middle (exact : ((num % den : Nat) : ℚ) / den = 1 / 2) : 2 * (num % den) = den := by
    rw [div_eq_div_iff unit.ne' two_ne_zero] at exact
    have cast : num % den * 2 = 1 * den := by exact_mod_cast exact
    omega
  rcases divideToEven_cases num den with ⟨down, half, even⟩ | ⟨up, half, even⟩
  · have most : ((num % den : Nat) : ℚ) / den ≤ 1 / 2 := by
      rw [div_le_div_iff₀ unit two_pos]
      have cast : 2 * ((num % den : Nat) : ℚ) ≤ den := by exact_mod_cast half
      linarith
    have gap : |((num / den : Nat) : ℚ) - num / den| = ((num % den : Nat) : ℚ) / den := by
      rw [abs_sub_comm, ratio, add_sub_cancel_left, abs_of_nonneg (by positivity)]
    rw [down, gap]
    exact ⟨most, fun exact => even (middle exact)⟩
  · have most : ((num % den : Nat) : ℚ) / den < 1 := by
      rw [div_lt_one unit]
      exact_mod_cast Nat.mod_lt num positive
    have least : 1 / 2 ≤ ((num % den : Nat) : ℚ) / den := by
      rw [div_le_div_iff₀ two_pos unit]
      have cast : (den : ℚ) ≤ 2 * (num % den : Nat) := by exact_mod_cast half
      linarith
    have gap : |((num / den + 1 : Nat) : ℚ) - num / den| = 1 - ((num % den : Nat) : ℚ) / den := by
      rw [ratio, Nat.cast_add_one, add_sub_add_left_eq_sub, abs_of_pos (by linarith)]
    rw [up, gap]
    exact ⟨by linarith, fun exact => even (middle (by linarith))⟩

private theorem divideToEven_nearest (other : Int) :
    |(divideToEven num den : ℚ) - num / den| ≤ |(other : ℚ) - num / den| ∧
      (|(divideToEven num den : ℚ) - num / den| = |(other : ℚ) - num / den| →
        (other : ℚ) = divideToEven num den ∨ divideToEven num den % 2 = 0) := by
  obtain ⟨bound, even⟩ := divideToEven_bound num positive
  exact nearest_of_half bound even other

end DivideToEven

theorem scaleBinary_ratio (num den : Nat) (power : Int) :
    ((scaleBinary num den power).1 : ℚ) / (scaleBinary num den power).2 =
      num / den * 2 ^ power := by
  obtain ⟨k, rfl | rfl⟩ := power.eq_nat_or_neg
  · simp only [scaleBinary, Int.toNat_natCast, Int.toNat_neg_natCast, Nat.pow_eq, pow_zero, mul_one,
      Nat.cast_mul, Nat.cast_pow, Nat.cast_ofNat, zpow_natCast]
    ring
  · simp only [scaleBinary, neg_neg, Int.toNat_natCast, Int.toNat_neg_natCast, Nat.pow_eq, pow_zero,
      mul_one, Nat.cast_mul, Nat.cast_pow, Nat.cast_ofNat, zpow_neg, zpow_natCast]
    rw [div_mul_eq_div_div, div_eq_mul_inv (_ / _)]

private theorem scaleBinary_unit_pos (num : Nat) {den : Nat} (positive : 0 < den) (power : Int) :
    0 < (scaleBinary num den power).2 :=
  Nat.mul_pos positive (Nat.pow_pos two_pos)

-- The two logarithms leave open which of two exponents it is.
private theorem log2_quotient {num den : Nat} (some : 0 < num) (positive : 0 < den) :
    (2 : ℚ) ^ ((num.log2 : Int) - den.log2 - 1) ≤ num / den ∧
      (num : ℚ) / den < 2 ^ ((num.log2 : Int) - den.log2 + 1) := by
  have unit : (0 : ℚ) < den := by exact_mod_cast positive
  have numLeast : (2 : ℚ) ^ (num.log2 : Int) ≤ num := by
    exact_mod_cast Nat.log2_self_le some.ne'
  have numMost : (num : ℚ) < 2 ^ ((num.log2 : Int) + 1) := by
    exact_mod_cast Nat.lt_log2_self
  have denLeast : (2 : ℚ) ^ (den.log2 : Int) ≤ den := by
    exact_mod_cast Nat.log2_self_le positive.ne'
  have denMost : (den : ℚ) < 2 ^ ((den.log2 : Int) + 1) := by
    exact_mod_cast Nat.lt_log2_self
  have most : (num : ℚ) / den < 2 ^ ((num.log2 : Int) - den.log2 + 1) := by
    rw [div_lt_iff₀ unit]
    calc (num : ℚ) < 2 ^ ((num.log2 : Int) + 1) := numMost
      _ = 2 ^ ((num.log2 : Int) - den.log2 + 1) * 2 ^ (den.log2 : Int) := by
        rw [← zpow_add₀ two_ne_zero]
        congr 1
        ring
      _ ≤ 2 ^ ((num.log2 : Int) - den.log2 + 1) * den := by gcongr
  have least : (2 : ℚ) ^ ((num.log2 : Int) - den.log2 - 1) ≤ num / den := by
    rw [le_div_iff₀ unit]
    calc (2 : ℚ) ^ ((num.log2 : Int) - den.log2 - 1) * den
        ≤ 2 ^ ((num.log2 : Int) - den.log2 - 1) * 2 ^ ((den.log2 : Int) + 1) := by gcongr
      _ = 2 ^ (num.log2 : Int) := by
        rw [← zpow_add₀ two_ne_zero]
        congr 1
        ring
      _ ≤ num := numLeast
  exact ⟨least, most⟩

private theorem binaryExponent_spec {num den : Nat} (some : 0 < num) (positive : 0 < den) :
    (2 : ℚ) ^ binaryExponent num den ≤ num / den ∧
      (num : ℚ) / den < 2 ^ (binaryExponent num den + 1) := by
  obtain ⟨least, most⟩ := log2_quotient some positive
  have tested := scaleBinary_ratio num den (-((num.log2 : Int) - den.log2))
  have scaledUnit : (0 : ℚ) < (scaleBinary num den (-((num.log2 : Int) - den.log2))).2 := by
    exact_mod_cast scaleBinary_unit_pos num positive _
  have reaches : (scaleBinary num den (-((num.log2 : Int) - den.log2))).2 ≤
        (scaleBinary num den (-((num.log2 : Int) - den.log2))).1 ↔
      (2 : ℚ) ^ ((num.log2 : Int) - den.log2) ≤ num / den := by
    rw [← @Nat.cast_le ℚ, ← one_le_div₀ scaledUnit, tested, zpow_neg,
      ← div_eq_mul_inv, one_le_div₀ (by positivity)]
  unfold binaryExponent
  dsimp only
  split
  · next holds => exact ⟨reaches.1 holds, most⟩
  · next fails =>
    refine ⟨least, ?_⟩
    rw [sub_add_cancel]
    exact not_le.1 (mt reaches.2 fails)

/-- The bits of a significand at a place stand for that many units of the place, also when the
significand is rounded up to one bit more. -/
theorem ofMagnitude_magnitudeBits (negative : Bool) {significand : Nat} {place : Int}
    (least : leastPlace ≤ place) (most : significand ≤ 2 ^ 53)
    (normal : 2 ^ 52 ≤ significand ∨ place = leastPlace)
    (finite : magnitudeBits significand place < infinityBits) :
    (ofMagnitude negative (magnitudeBits significand place)).value =
        sign negative * (significand * 2 ^ place) ∧
      (significand % 2 = 0 →
        (ofMagnitude negative (magnitudeBits significand place)).significand % 2 = 0) := by
  obtain ⟨shift, rfl⟩ : ∃ shift : Nat, place = shift - 1074 :=
    ⟨(place + 1074).toNat, by simp only [leastPlace] at least; omega⟩
  have whole : magnitudeBits significand (shift - 1074) = shift * fractionWeight + significand := by
    simp only [magnitudeBits, leastPlace]
    congr 2
    omega
  have field := exponentField_ofMagnitude negative finite
  have fraction := fraction_ofMagnitude negative finite
  rw [value, negative_ofMagnitude negative finite]
  rw [whole] at field fraction ⊢
  by_cases hidden : 2 ^ 52 ≤ significand
  · by_cases carried : significand = 2 ^ 53
    · -- the carry leaves no fraction and goes to the exponent
      have carry : shift * fractionWeight + significand = (shift + 2) * fractionWeight := by
        rw [carried, Nat.add_mul]
        rfl
      have exponent : (shift * fractionWeight + significand) / fractionWeight = shift + 2 := by
        rw [carry, Nat.mul_div_cancel _ (by decide)]
      have rest : (shift * fractionWeight + significand) % fractionWeight = 0 := by
        rw [carry, Nat.mul_mod_left]
      obtain ⟨digits, last⟩ := normal_fields (field.trans exponent)
      have place : ((shift + 1 : Nat) : Int) - 1074 = shift - 1074 + 1 := by omega
      rw [digits, last, fraction, rest, place, zpow_add_one₀ two_ne_zero, carried, fractionWeight]
      refine ⟨?_, fun _ => rfl⟩
      push_cast
      ring
    · obtain ⟨exponent, rest⟩ := fields_of_leading shift hidden
        (Nat.lt_of_le_of_ne most carried)
      obtain ⟨digits, last⟩ := normal_fields (field.trans exponent)
      rw [digits, last, fraction, rest]
      exact ⟨rfl, id⟩
  · have lowest : shift = 0 := by
      have place := normal.resolve_left hidden
      simp only [leastPlace] at place
      omega
    have below : significand < fractionWeight := Nat.lt_of_not_le hidden
    rw [lowest, Nat.zero_mul, Nat.zero_add] at field fraction ⊢
    obtain ⟨digits, last⟩ := subnormal_fields (field.trans (Nat.div_eq_of_lt below))
    rw [digits, last, fraction, Nat.mod_eq_of_lt below]
    exact ⟨rfl, id⟩

/-- A multiple of the unit of a place, or a quantity smaller than the numbers whose last place that
is. -/
def OnGrid (place : Int) (v : ℚ) : Prop :=
  (∃ units : Int, v = units * 2 ^ place) ∨ (leastPlace < place ∧ |v| < 2 ^ 52 * 2 ^ place)

private theorem OnGrid.sign_mul {place : Int} {v : ℚ} (h : OnGrid place v) (negative : Bool) :
    OnGrid place (sign negative * v) := by
  rcases h with ⟨units, rfl⟩ | ⟨above, small⟩
  · left
    cases negative with
    | true => exact ⟨-units, by simp [sign]⟩
    | false => exact ⟨units, by simp [sign]⟩
  · exact .inr ⟨above, by rwa [abs_sign_mul]⟩

private theorem onGrid_value (d : Double) (place : Int) : OnGrid place d.value := by
  apply OnGrid.sign_mul
  by_cases coarse : place ≤ d.lastPlace
  · left
    refine ⟨d.significand * 2 ^ (d.lastPlace - place).toNat, ?_⟩
    have split : (2 : ℚ) ^ d.lastPlace = 2 ^ (d.lastPlace - place).toNat * 2 ^ place := by
      rw [← zpow_natCast, ← zpow_add₀ two_ne_zero]
      congr 1
      omega
    rw [split]
    push_cast
    ring
  · right
    have least := d.leastPlace_le
    have bits : (d.significand : ℚ) < 2 ^ 53 := by exact_mod_cast d.significand_lt
    refine ⟨by omega, ?_⟩
    rw [abs_of_nonneg (by positivity)]
    calc (d.significand : ℚ) * 2 ^ d.lastPlace < 2 ^ 53 * 2 ^ d.lastPlace := by gcongr
      _ ≤ 2 ^ 53 * 2 ^ (place - 1) := by
        gcongr
        · norm_num
        · omega
      _ = 2 ^ 52 * 2 ^ place := by
        rw [zpow_sub_one₀ two_ne_zero]
        ring

/-- The nearest multiple of the unit of a place is nearest among all numbers, if those with a lower
last place are too small to come close. -/
theorem nearest_of_grid {q : ℚ} {place : Int} {units : Nat}
    (nearest : ∀ other : Int, |(units : ℚ) - q / 2 ^ place| ≤ |(other : ℚ) - q / 2 ^ place| ∧
      (|(units : ℚ) - q / 2 ^ place| = |(other : ℚ) - q / 2 ^ place| →
        (other : ℚ) = units ∨ units % 2 = 0))
    (large : leastPlace < place → 2 ^ 52 * 2 ^ place ≤ q) {v : ℚ} (grid : OnGrid place v) :
    |units * 2 ^ place - q| ≤ |v - q| ∧
      (|units * 2 ^ place - q| = |v - q| → v = units * 2 ^ place ∨ units % 2 = 0) := by
  have weight : (0 : ℚ) < 2 ^ place := by positivity
  have scaled (x : ℚ) : |x * 2 ^ place - q| = |x - q / 2 ^ place| * 2 ^ place := by
    have factored : x * 2 ^ place - q = (x - q / 2 ^ place) * 2 ^ place := by field_simp
    rw [factored, abs_mul, abs_of_pos weight]
  rcases grid with ⟨other, rfl⟩ | ⟨above, small⟩
  · obtain ⟨closest, tie⟩ := nearest other
    rw [scaled, scaled]
    refine ⟨by gcongr, fun equal => ?_⟩
    rcases tie (mul_right_cancel₀ weight.ne' equal) with same | even
    · exact .inl (by rw [same])
    · exact .inr even
  · -- the multiple at the lower end of the place lies between such a number and the quantity
    have least := large above
    have closest := (nearest (2 ^ 52 : Nat)).1
    have between : |units * 2 ^ place - q| ≤ q - 2 ^ 52 * 2 ^ place := by
      calc |units * 2 ^ place - q| = |(units : ℚ) - q / 2 ^ place| * 2 ^ place := scaled units
        _ ≤ |(((2 ^ 52 : Nat) : Int) : ℚ) - q / 2 ^ place| * 2 ^ place := by gcongr
        _ = |2 ^ 52 * 2 ^ place - q| := by rw [← scaled]; push_cast; rfl
        _ = q - 2 ^ 52 * 2 ^ place := by
          rw [abs_sub_comm, abs_of_nonneg (by linarith)]
    have below : v < 2 ^ 52 * 2 ^ place := lt_of_le_of_lt (le_abs_self v) small
    have far : q - 2 ^ 52 * 2 ^ place < |v - q| := by
      rw [abs_sub_comm, abs_of_pos (by linarith)]
      linarith
    exact ⟨by linarith, fun equal => absurd equal (by linarith)⟩

theorem nearest_of_units {d : Double} (finite : d.isFinite = true) {negative : Bool} {q : ℚ}
    (place : Int) (units : Nat)
    (nearest : ∀ other : Int, |(units : ℚ) - q / 2 ^ place| ≤ |(other : ℚ) - q / 2 ^ place| ∧
      (|(units : ℚ) - q / 2 ^ place| = |(other : ℚ) - q / 2 ^ place| →
        (other : ℚ) = units ∨ units % 2 = 0))
    (large : leastPlace < place → 2 ^ 52 * 2 ^ place ≤ q)
    (stands : d.value = sign negative * (units * 2 ^ place))
    (even : units % 2 = 0 → d.significand % 2 = 0) : Nearest d (sign negative * q) := by
  have beside (other : Double) :=
    nearest_of_grid nearest large ((other.onGrid_value place).sign_mul negative)
  refine ⟨finite, fun other _ => ?_, fun other _ equal => ?_⟩
  · rw [abs_sub_sign_mul, abs_sub_sign_mul, stands, sign_mul_sign_mul]
    exact (beside other).1
  · rw [abs_sub_sign_mul, abs_sub_sign_mul, stands, sign_mul_sign_mul] at equal
    rcases (beside other).2 equal with same | tied
    · exact .inl (by rw [stands, ← same, sign_mul_sign_mul])
    · exact .inr (even tied)

/-- What rounding to a place yields: at most one bit too many, no bit too few unless the place is
the lowest, and nothing closer at this place. -/
theorem rounded_at_place {num den : Nat} (some : 0 < num) (positive : 0 < den) :
    let place := max (binaryExponent num den - 52) leastPlace
    let units := divideToEven (scaleBinary num den (-place)).1 (scaleBinary num den (-place)).2
    units ≤ 2 ^ 53 ∧ (2 ^ 52 ≤ units ∨ place = leastPlace) ∧
      (leastPlace < place → (2 : ℚ) ^ 52 * 2 ^ place ≤ num / den) ∧
      ∀ other : Int,
        |(units : ℚ) - (num / den) / 2 ^ place| ≤ |(other : ℚ) - (num / den) / 2 ^ place| ∧
        (|(units : ℚ) - (num / den) / 2 ^ place| = |(other : ℚ) - (num / den) / 2 ^ place| →
          (other : ℚ) = units ∨ units % 2 = 0) := by
  intro place units
  obtain ⟨least, most⟩ := binaryExponent_spec some positive
  have unit := scaleBinary_unit_pos num positive (-place)
  have ratio := scaleBinary_ratio num den (-place)
  rw [zpow_neg, ← div_eq_mul_inv] at ratio
  have weight : (0 : ℚ) < 2 ^ place := by positivity
  have close := (divideToEven_bound (scaleBinary num den (-place)).1 unit).1
  rw [ratio, abs_le] at close
  have leading (normal : place = binaryExponent num den - 52) :
      (2 : ℚ) ^ 52 * 2 ^ place ≤ num / den := by
    calc (2 : ℚ) ^ 52 * 2 ^ place = 2 ^ (52 : Int) * 2 ^ place := by norm_cast
      _ = 2 ^ binaryExponent num den := by
        rw [← zpow_add₀ two_ne_zero, normal]
        congr 1
        ring
      _ ≤ num / den := least
  refine ⟨?_, ?_, fun above => leading (by omega), fun other => ?_⟩
  · have below : (num / den : ℚ) / 2 ^ place < 2 ^ 53 := by
      rw [div_lt_iff₀ weight]
      calc (num / den : ℚ) < 2 ^ (binaryExponent num den + 1) := most
        _ ≤ 2 ^ ((53 : Int) + place) := zpow_le_zpow_right₀ one_le_two (by omega)
        _ = 2 ^ 53 * 2 ^ place := by rw [zpow_add₀ two_ne_zero]; norm_cast
    have cast : (units : ℚ) < (2 ^ 53 + 1 : Nat) := by
      push_cast
      linarith
    exact Nat.lt_succ_iff.1 (by exact_mod_cast cast)
  · by_cases normal : place = binaryExponent num den - 52
    · left
      have above : (2 : ℚ) ^ 52 ≤ (num / den : ℚ) / 2 ^ place := by
        rw [le_div_iff₀ weight]
        exact leading normal
      have cast : ((2 ^ 52 : Nat) : ℚ) < (units + 1 : Nat) := by
        push_cast
        linarith
      exact Nat.lt_succ_iff.1 (by exact_mod_cast cast)
    · right
      omega
  · have nearest := divideToEven_nearest (scaleBinary num den (-place)).1 unit other
    rw [ratio] at nearest
    exact nearest

theorem nearest_of_isZero {d : Double} (zero : d.isZero = true) : Nearest d 0 := by
  obtain ⟨field, fraction⟩ := (Bool.and_eq_true _ _).mp zero
  have subnormal := eq_of_beq field
  have nothing : d.value = 0 := by
    rw [value, (subnormal_fields subnormal).1, eq_of_beq fraction, Nat.cast_zero, zero_mul,
      mul_zero]
  have finite : d.isFinite = true := by
    rw [isFinite, subnormal]
    rfl
  refine ⟨finite, fun other _ => ?_, fun other _ equal => .inl ?_⟩
  · rw [nothing, sub_zero, abs_zero]
    exact abs_nonneg _
  · rw [nothing, sub_zero, abs_zero, sub_zero] at equal
    rw [nothing, abs_eq_zero.1 equal.symm]

/-- A number made from a quotient is nearest to it. -/
theorem nearest_ofQuotient {negative : Bool} {num den : Nat} (positive : 0 < den) {d : Double}
    (found : ofQuotient negative num den = some d) :
    Nearest d (sign negative * (num / den)) := by
  have finite := isFinite_ofQuotient found
  unfold ofQuotient at found
  split at found
  · next nothing =>
    obtain rfl := Option.some.inj found
    have zero : (zero negative).isZero = true := by cases negative <;> decide
    simpa [nothing] using nearest_of_isZero zero
  · next something =>
    obtain ⟨most, normal, large, nearest⟩ :=
      rounded_at_place (Nat.pos_of_ne_zero something) positive
    have lowest : leastPlace ≤ max (binaryExponent num den - 52) leastPlace := le_max_right _ _
    dsimp only at found
    generalize max (binaryExponent num den - 52) leastPlace = place at *
    generalize divideToEven _ _ = units at *
    split at found
    · next within =>
      obtain rfl := Option.some.inj found
      obtain ⟨value, even⟩ := ofMagnitude_magnitudeBits negative lowest most normal within
      exact nearest_of_units finite place units nearest large value even
    · cases found

private theorem exists_ofQuotient (negative : Bool) {num den : Nat} (positive : 0 < den)
    (bound : (num / den : ℚ) < 2 ^ 64) : ∃ d, ofQuotient negative num den = some d := by
  unfold ofQuotient
  split
  · exact ⟨_, rfl⟩
  · next something =>
    have some := Nat.pos_of_ne_zero something
    obtain ⟨most, -, -, -⟩ := rounded_at_place some positive
    have exponent : binaryExponent num den < 64 := by
      have least := (binaryExponent_spec some positive).1
      have cast : (2 : ℚ) ^ binaryExponent num den < 2 ^ (64 : Int) :=
        lt_of_le_of_lt least (by exact_mod_cast bound)
      exact (zpow_lt_zpow_iff_right₀ one_lt_two).1 cast
    have low : max (binaryExponent num den - 52) leastPlace ≤ 11 := by
      simp only [leastPlace]
      omega
    dsimp only
    generalize max (binaryExponent num den - 52) leastPlace = place at *
    generalize divideToEven _ _ = units at *
    have shift : (place - leastPlace).toNat ≤ 1085 := by
      simp only [leastPlace]
      omega
    have within : magnitudeBits units place < infinityBits := by
      calc magnitudeBits units place ≤ 1085 * fractionWeight + 2 ^ 53 :=
            Nat.add_le_add (Nat.mul_le_mul_right _ shift) most
        _ < infinityBits := by decide
    exact ⟨_, if_pos within⟩

theorem nearest_ofInt {n : Int} (small : n.natAbs < 2 ^ 64) : Nearest (ofInt n) n := by
  have bound : ((n.natAbs : Nat) / (1 : Nat) : ℚ) < 2 ^ 64 := by
    rw [Nat.cast_one, div_one]
    exact_mod_cast small
  obtain ⟨d, found⟩ := exists_ofQuotient (decide (n < 0)) Nat.one_pos bound
  have nearest := nearest_ofQuotient Nat.one_pos found
  have signed : sign (decide (n < 0)) * ((n.natAbs : Nat) / (1 : Nat) : ℚ) = n := by
    rw [Nat.cast_one, div_one, Nat.cast_natAbs]
    by_cases below : n < 0
    · simp [sign, below, abs_of_neg below]
    · simp [sign, below, abs_of_nonneg (not_lt.1 below)]
  rw [ofInt, found, Option.getD_some, ← signed]
  exact nearest

end NativeCall.Double
