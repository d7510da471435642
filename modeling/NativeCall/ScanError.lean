import NativeCall.Exception
import NativeCall.Text.Decimal
import NativeCall.Text.Quoted

/-!
Why a scan fails, and how the failure is worded. A range of accepted counts is worded in one of
three ways: open (`2+`), exact (`2`) or bounded (`2..4`).
-/

set_option autoImplicit false
set_option relaxedAutoImplicit false

namespace NativeCall

inductive ScanError where
  | invalidFormat (format : String)
  /-- The number of arguments lies outside the bounds; no maximum means no upper bound. -/
  | arity (actual min : Nat) (max : Option Nat)
  deriving DecidableEq, Repr

namespace ScanError

open Text

/-- The accepted counts: open, exact when both bounds agree, or bounded. -/
def expected (min : Nat) : Option Nat → String
  | none => Decimal.text min ++ "+"
  | some max =>
    if max = min then Decimal.text min
    else Decimal.text min ++ ".." ++ Decimal.text max

def message : ScanError → String
  | invalidFormat format => "bad scan_args format: " ++ Quoted.quote format
  | arity actual min max =>
    "wrong number of arguments (given " ++ Decimal.text actual ++ ", expected "
      ++ expected min max ++ ")"

def exceptionClass : ScanError → ExceptionClass
  | invalidFormat _ => .argumentError
  | arity _ _ _ => .argumentError

def display (e : ScanError) : String :=
  e.exceptionClass.name ++ ": " ++ e.message

end ScanError

end NativeCall
