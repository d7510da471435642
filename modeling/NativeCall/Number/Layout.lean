import NativeCall.Number.Shortest

/-!
How numbers are written. Documents and messages write a number positionally in a middle range and
with an exponent outside of it; inspected values never use an exponent, and write a whole number
with all its digits.
-/

set_option autoImplicit false
set_option relaxedAutoImplicit false

namespace NativeCall.Double

open Text

/-- The choices of a way to write numbers: which decimal exponents are written positionally, and
which of two equally near decimals is written. -/
structure Layout where
  least : Int
  greatest : Int
  tie : Tie

/-- Documents and messages write numbers from `0.00001` to below `1e+16` positionally, and an even
last digit wins a tie. -/
def documentLayout : Layout := ⟨-5, 15, .toEven⟩

namespace Scientific

def exponent (s : Scientific) : Int :=
  s.power + (Decimal.digits s.digits).length - 1

/-- The digits with a point among them, zeros filling the places between the digits and the point,
and at least one digit on either side of it. -/
def positional (s : Scientific) : List Char :=
  let run := Decimal.digits s.digits
  if 0 ≤ s.power then run ++ List.replicate s.power.toNat '0' ++ ['.', '0']
  else
    let places := (-s.power).toNat
    if places < run.length then
      run.take (run.length - places) ++ '.' :: run.drop (run.length - places)
    else '0' :: '.' :: List.replicate (places - run.length) '0' ++ run

def withExponent (s : Scientific) : List Char :=
  let mantissa := match Decimal.digits s.digits with
    | [] => []
    | [first] => [first]
    | first :: more => first :: '.' :: more
  let sign := if s.exponent < 0 then '-' else '+'
  mantissa ++ 'e' :: sign :: Decimal.digits s.exponent.natAbs

end Scientific

def withSign (d : Double) (text : List Char) : List Char :=
  if d.negative then '-' :: text else text

def documentText (d : Double) : List Char :=
  let s := d.shortest documentLayout.tie
  d.withSign <|
    if documentLayout.least ≤ s.exponent && s.exponent ≤ documentLayout.greatest then s.positional
    else s.withExponent

def whole? (d : Double) : Option Nat :=
  let q := Quotient.binary d.significand d.lastPlace
  if q.num % q.den = 0 then some (q.num / q.den) else none

/-- A number as inspected values show it: a tie goes to the greater decimal. -/
def inspect (d : Double) : List Char :=
  if d.isNan then ['N', 'a', 'N']
  else if !d.isFinite then d.withSign ['i', 'n', 'f']
  else match d.whole? with
    | some n => d.withSign (Decimal.digits n ++ ['.', '0'])
    | none => d.withSign (d.shortest .up).positional

end NativeCall.Double
