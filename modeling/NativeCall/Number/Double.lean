import NativeCall.Text.Decimal

/-!
Double-precision numbers as IEEE 754 lays them out: a sign bit, eleven exponent bits and fifty-two
fraction bits. A finite number is a significand times a power of two, and rounding a quotient to
the nearest number is exact arithmetic on whole numbers, a tie going to the even significand.
-/

set_option autoImplicit false
set_option relaxedAutoImplicit false

namespace NativeCall

/-- A double-precision number, by its bits. Equality of this type is equality of bits; the
comparison of numbers is `Double.eq`. -/
structure Double where
  bits : UInt64
  deriving DecidableEq, Repr

namespace Double

def signWeight : Nat := 0x8000000000000000

/-- The weight of the last exponent bit: the fraction lies below it, and the implicit leading bit
of a significand has this weight too. -/
def fractionWeight : Nat := 0x10000000000000

def fieldCount : Nat := 2048

def negative (d : Double) : Bool :=
  signWeight ≤ d.bits.toNat

def exponentField (d : Double) : Nat :=
  d.bits.toNat / fractionWeight % fieldCount

def fraction (d : Double) : Nat :=
  d.bits.toNat % fractionWeight

def topField : Nat := 2047

def isFinite (d : Double) : Bool :=
  d.exponentField != topField

def isNan (d : Double) : Bool :=
  d.exponentField == topField && d.fraction != 0

def isZero (d : Double) : Bool :=
  d.exponentField == 0 && d.fraction == 0

/-- Comparison of numbers: nothing equals a NaN, and the two zeros are equal. -/
def eq (a b : Double) : Bool :=
  !a.isNan && !b.isNan && (a.bits == b.bits || (a.isZero && b.isZero))

def significand (d : Double) : Nat :=
  if d.exponentField = 0 then d.fraction else fractionWeight + d.fraction

/-- The exponent of the last place of a finite number: its magnitude is the significand times two
to this power. -/
def lastPlace (d : Double) : Int :=
  (max d.exponentField 1 : Nat) - 1075

def leastPlace : Int := -1074

/-- The bits without their sign of a significand whose last place has the given exponent. A
significand of fifty-four bits carries into the exponent field. -/
def magnitudeBits (significand : Nat) (place : Int) : Nat :=
  (place - leastPlace).toNat * fractionWeight + significand

def infinityBits : Nat :=
  topField * fractionWeight

def ofMagnitude (negative : Bool) (magnitude : Nat) : Double :=
  ⟨UInt64.ofNat (magnitude + if negative then signWeight else 0)⟩

def zero (negative : Bool) : Double :=
  ofMagnitude negative 0

def infinity (negative : Bool) : Double :=
  ofMagnitude negative infinityBits

def nan : Double :=
  ofMagnitude false (infinityBits + fractionWeight / 2)

/-- The nearest whole number to a quotient; halfway, the even one. -/
def divideToEven (num den : Nat) : Nat :=
  let quotient := num / den
  let remainder := num % den
  if den < 2 * remainder || (den = 2 * remainder && quotient % 2 = 1) then quotient + 1
  else quotient

def scaleBinary (num den : Nat) (power : Int) : Nat × Nat :=
  (num * Nat.pow 2 power.toNat, den * Nat.pow 2 (-power).toNat)

/-- The greatest power of two that is not above a positive quotient. -/
def binaryExponent (num den : Nat) : Int :=
  let guess : Int := (Nat.log2 num : Int) - (Nat.log2 den : Int)
  let (scaled, unit) := scaleBinary num den (-guess)
  if unit ≤ scaled then guess else guess - 1

/-- The number nearest to a quotient, or `none` if that is beyond the greatest finite number. -/
def ofQuotient (negative : Bool) (num den : Nat) : Option Double :=
  if num = 0 then some (zero negative)
  else
    let place := max (binaryExponent num den - 52) leastPlace
    let (scaled, unit) := scaleBinary num den (-place)
    let magnitude := magnitudeBits (divideToEven scaled unit) place
    if magnitude < infinityBits then some (ofMagnitude negative magnitude) else none

def ofInt (n : Int) : Double :=
  (ofQuotient (n < 0) n.natAbs 1).getD (infinity (n < 0))

def multiply (a b : Double) : Option Double :=
  let (num, den) := scaleBinary (a.significand * b.significand) 1 (a.lastPlace + b.lastPlace)
  ofQuotient (a.negative != b.negative) num den

def divide (a b : Double) : Option Double :=
  let (num, den) := scaleBinary a.significand b.significand (a.lastPlace - b.lastPlace)
  ofQuotient (a.negative != b.negative) num den

end Double

end NativeCall
