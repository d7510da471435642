import Mathlib.Algebra.Group.Nat.Defs
import NativeCall.Number.Double

/-!
The fields of a double-precision number that is put together from its sign and magnitude, and that
every number made by rounding is finite.
-/

set_option autoImplicit false
set_option relaxedAutoImplicit false

namespace NativeCall.Double

section Fields

variable (negative : Bool) {magnitude : Nat} (finite : magnitude < infinityBits)

include finite

private theorem toNat_bits_ofMagnitude :
    (ofMagnitude negative magnitude).bits.toNat =
      magnitude + if negative then signWeight else 0 := by
  have bound : magnitude < 2047 * 0x10000000000000 := finite
  rw [ofMagnitude, UInt64.toNat_ofNat']
  apply Nat.mod_eq_of_lt
  cases negative with
  | true => simp only [signWeight, ↓reduceIte]; omega
  | false => simp only [Bool.false_eq_true, ↓reduceIte]; omega

theorem negative_ofMagnitude : (ofMagnitude negative magnitude).negative = negative := by
  have bound : magnitude < 2047 * 0x10000000000000 := finite
  rw [Double.negative, toNat_bits_ofMagnitude negative finite]
  cases negative with
  | true => simp [signWeight]
  | false => simp [signWeight]; omega

theorem exponentField_ofMagnitude :
    (ofMagnitude negative magnitude).exponentField = magnitude / fractionWeight := by
  have bound : magnitude < 2047 * 0x10000000000000 := finite
  rw [exponentField, toNat_bits_ofMagnitude negative finite]
  cases negative with
  | true => simp only [signWeight, fractionWeight, fieldCount, ↓reduceIte]; omega
  | false => simp only [fractionWeight, fieldCount, Bool.false_eq_true, ↓reduceIte]; omega

theorem fraction_ofMagnitude :
    (ofMagnitude negative magnitude).fraction = magnitude % fractionWeight := by
  rw [fraction, toNat_bits_ofMagnitude negative finite]
  cases negative with
  | true => simp only [signWeight, fractionWeight, ↓reduceIte]; omega
  | false => rfl

end Fields

theorem significand_lt (d : Double) : d.significand < 2 ^ 53 := by
  have below : d.fraction < fractionWeight := Nat.mod_lt _ (by decide)
  unfold significand
  simp only [fractionWeight] at below ⊢
  split <;> omega

theorem leastPlace_le (d : Double) : leastPlace ≤ d.lastPlace := by
  simp only [lastPlace, leastPlace]
  omega

theorem normal_fields {d : Double} {field : Nat} (normal : d.exponentField = field + 1) :
    d.significand = fractionWeight + d.fraction ∧ d.lastPlace = field - 1074 := by
  rw [significand, lastPlace, normal, if_neg (Nat.succ_ne_zero field)]
  refine ⟨rfl, ?_⟩
  rw [Nat.max_eq_left (Nat.le_add_left 1 field)]
  omega

theorem subnormal_fields {d : Double} (subnormal : d.exponentField = 0) :
    d.significand = d.fraction ∧ d.lastPlace = leastPlace := by
  rw [significand, lastPlace, subnormal, if_pos rfl]
  exact ⟨rfl, rfl⟩

theorem fields_of_leading (shift : Nat) {significand : Nat} (least : 2 ^ 52 ≤ significand)
    (most : significand < 2 ^ 53) :
    (shift * fractionWeight + significand) / fractionWeight = shift + 1 ∧
      fractionWeight + (shift * fractionWeight + significand) % fractionWeight = significand := by
  simp only [fractionWeight]
  omega

private theorem isFinite_ofMagnitude (negative : Bool) {magnitude : Nat}
    (finite : magnitude < infinityBits) : (ofMagnitude negative magnitude).isFinite = true := by
  have small : magnitude / fractionWeight < topField :=
    Nat.div_lt_of_lt_mul (Nat.mul_comm _ _ ▸ finite)
  rw [isFinite, exponentField_ofMagnitude negative finite]
  exact bne_iff_ne.2 (Nat.ne_of_lt small)

theorem isFinite_ofQuotient {negative : Bool} {num den : Nat} {d : Double}
    (found : ofQuotient negative num den = some d) : d.isFinite = true := by
  unfold ofQuotient at found
  split at found
  · obtain rfl := Option.some.inj found
    exact isFinite_ofMagnitude negative (by decide)
  · dsimp only at found
    split at found
    · next finite =>
      obtain rfl := Option.some.inj found
      exact isFinite_ofMagnitude negative finite
    · cases found

end NativeCall.Double
