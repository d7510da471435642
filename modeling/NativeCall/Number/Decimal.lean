import NativeCall.Number.Double

/-!
Reading decimals as double-precision numbers. The digits go into a whole number of sixty-four bits
as long as they fit, and what is read is rounded once for this number and once for each power of ten
that it is multiplied with or divided by, so that it need not be the nearest number.
-/

set_option autoImplicit false
set_option relaxedAutoImplicit false

namespace NativeCall.Double

def greatestWhole : Nat := 0xffffffffffffffff

/-- Puts digits behind those of a whole number as long as that fits, and counts the others. -/
def pushDigits (whole : Nat) : List Char → Nat × Nat
  | [] => (whole, 0)
  | c :: run =>
    let longer := Nat.ofDigitChars 10 [c] whole
    if longer ≤ greatestWhole then pushDigits longer run else (whole, run.length + 1)

def greatestPower : Nat := 308

def powerOfTen (exponent : Nat) : Option Double :=
  ofQuotient false (Nat.pow 10 exponent) 1

/-- Multiplies with a power of ten, or divides by powers of ten until the exponent is in range. -/
def scaleDecimal (d : Double) (exponent : Int) : Option Double := do
  if exponent.natAbs ≤ greatestPower then
    let power ← powerOfTen exponent.natAbs
    if 0 ≤ exponent then d.multiply power else d.divide power
  else if d.isZero then some d
  else if 0 ≤ exponent then none
  else
    let smaller ← d.divide (← powerOfTen greatestPower)
    scaleDecimal smaller (exponent + greatestPower)
termination_by (-exponent).toNat
decreasing_by
  simp only [greatestPower] at *
  omega

def greatestExponent : Nat := 0x7fffffff

/-- The number that is read from the digits before and after a point and an exponent, or `none` if
it is too great. -/
def ofDecimal (negative : Bool) (whole fraction : List Char) (exponent : Int) : Option Double := do
  let (digits, skipped) := pushDigits 0 whole
  let (digits, dropped) := pushDigits digits fraction
  if greatestExponent < exponent.natAbs then
    if digits ≠ 0 ∧ 0 ≤ exponent then none else some (zero negative)
  else
    let start ← ofQuotient negative digits 1
    scaleDecimal start (exponent + skipped - (fraction.length - dropped : Nat))

end NativeCall.Double
