import NativeCall.Number.Double

/-!
The shortest decimal that reads back as a given number. Every number stands for the reals that
round to it, an interval that holds its ends iff the significand is even. On the grid of decimals
with a given count of digits only the two neighbours of the number can be its nearest
representatives, so the first grid with a neighbour inside the interval gives the fewest digits.
-/

set_option autoImplicit false
set_option relaxedAutoImplicit false

namespace NativeCall.Double

structure Scientific where
  digits : Nat
  power : Int
  deriving DecidableEq, Repr

inductive Tie where
  | toEven
  | up
  deriving DecidableEq, Repr

structure Quotient where
  num : Nat
  den : Nat
  deriving DecidableEq, Repr

namespace Quotient

def le (a b : Quotient) : Bool :=
  a.num * b.den ≤ b.num * a.den

def lt (a b : Quotient) : Bool :=
  a.num * b.den < b.num * a.den

def binary (n : Nat) (power : Int) : Quotient :=
  ⟨n * Nat.pow 2 power.toNat, Nat.pow 2 (-power).toNat⟩

def inUnits (a : Quotient) (power : Int) : Quotient :=
  ⟨a.num * Nat.pow 10 (-power).toNat, a.den * Nat.pow 10 power.toNat⟩

def floor (a : Quotient) : Nat :=
  a.num / a.den

def ceil (a : Quotient) : Nat :=
  (a.num + a.den - 1) / a.den

def decimalExponent (a : Quotient) : Int :=
  if a.den ≤ a.num then (Text.Decimal.digits a.floor).length - 1
  else -(Text.Decimal.digits ((Quotient.mk a.den a.num).ceil - 1)).length

end Quotient

structure Neighbourhood where
  low : Quotient
  value : Quotient
  high : Quotient
  closed : Bool
  deriving Repr

namespace Neighbourhood

/-- Half a unit of the last place on either side; below a power of two the places are twice as
fine, except where the subnormal numbers begin. All three reals are counted in quarters of the last
place. -/
def of (d : Double) : Neighbourhood :=
  let m := d.significand
  let place := d.lastPlace - 2
  let fineBelow := d.fraction == 0 && 1 < d.exponentField
  ⟨.binary (4 * m - if fineBelow then 1 else 2) place, .binary (4 * m) place,
    .binary (4 * m + 2) place, m % 2 == 0⟩

def holds (n : Neighbourhood) (x : Quotient) : Bool :=
  if n.closed then n.low.le x && x.le n.high else n.low.lt x && x.lt n.high

/-- The neighbour on the grid of whole multiples of a power of ten that reads back as the number,
the nearer of two. Halfway between them the tie rule decides. -/
def onGrid (n : Neighbourhood) (tie : Tie) (power : Int) : Option Nat :=
  let value := n.value.inUnits power
  let low := n.low.inUnits power
  let high := n.high.inUnits power
  let scaled : Neighbourhood := ⟨low, value, high, n.closed⟩
  let below := value.floor
  let above := below + 1
  let past := 2 * (value.num % value.den)
  let takesBelow := past < value.den || (past == value.den && tie == .toEven && below % 2 == 0)
  match scaled.holds ⟨below, 1⟩, scaled.holds ⟨above, 1⟩ with
  | true, true => some (if takesBelow then below else above)
  | true, false => some below
  | false, true => some above
  | false, false => none

/-- The first grid with a representative, from the given count of digits on. -/
def search (n : Neighbourhood) (tie : Tie) (exponent : Int) : Nat → Nat → Scientific
  | 0, count => ⟨(n.value.inUnits (exponent - count + 1)).floor, exponent - count + 1⟩
  | fuel + 1, count =>
    match n.onGrid tie (exponent - count + 1) with
    | some digits => ⟨digits, exponent - count + 1⟩
    | none => search n tie exponent fuel (count + 1)

end Neighbourhood

def enoughDigits : Nat := 17

def Scientific.strip : Nat → Scientific → Scientific
  | 0, s => s
  | fuel + 1, s =>
    if s.digits ≠ 0 ∧ s.digits % 10 = 0 then strip fuel ⟨s.digits / 10, s.power + 1⟩ else s

/-- The magnitude of a finite number with the fewest digits that read back as it. -/
def shortest (d : Double) (tie : Tie) : Scientific :=
  if d.isZero then ⟨0, 0⟩
  else
    let n := Neighbourhood.of d
    (n.search tie n.value.decimalExponent enoughDigits 1).strip enoughDigits

end NativeCall.Double
