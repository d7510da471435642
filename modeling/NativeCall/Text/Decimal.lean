/-!
Whole numbers in decimal. `value_digits` says that the digits of a number read back as that number.
-/

set_option autoImplicit false
set_option relaxedAutoImplicit false

namespace NativeCall.Text.Decimal

def digits (n : Nat) : List Char :=
  Nat.toDigits 10 n

def value (run : List Char) : Nat :=
  Nat.ofDigitChars 10 run 0

def signed (n : Int) : List Char :=
  if n < 0 then '-' :: digits n.natAbs else digits n.natAbs

def text (n : Nat) : String :=
  String.ofList (digits n)

def signedText (n : Int) : String :=
  String.ofList (signed n)

theorem value_digits (n : Nat) : value (digits n) = n :=
  Nat.ofDigitChars_toDigits (by decide) (by decide)

end NativeCall.Text.Decimal
