import NativeCall.Dictionary
import NativeCall.Number.Double

/-!
JSON values. A number is a whole number of at most sixty-four bits, signed or unsigned, or else a
double; an object keeps the order of its keys.
-/

set_option autoImplicit false
set_option relaxedAutoImplicit false

namespace NativeCall

inductive Json.Number where
  | integer (n : Int)
  | double (d : Double) (finite : d.isFinite = true)
  deriving DecidableEq, Repr

inductive Json where
  | null
  | boolean (b : Bool)
  | number (n : Json.Number)
  | string (s : String)
  | array (items : List Json)
  | object (entries : List (String × Json))
  deriving Inhabited, Repr

namespace Json

def leastSigned : Int := -0x8000000000000000

def greatestSigned : Int := 0x7fffffffffffffff

def greatestUnsigned : Int := 0xffffffffffffffff

/-- Whether a JSON number can be this whole number. -/
def Number.fits (n : Int) : Bool :=
  leastSigned ≤ n && n ≤ greatestUnsigned

def Number.ofDouble? (d : Double) : Option Number :=
  if finite : d.isFinite = true then some (double d finite) else none

/-- A finite double as a number, and any other as null, since JSON has no word for it. -/
def ofDouble (d : Double) : Json :=
  match Number.ofDouble? d with
  | some n => number n
  | none => null

def ofInt (n : Int) : Json :=
  number (.integer n)

def ofNat (n : Nat) : Json :=
  number (.integer n)

def ofOption {α : Type} (encode : α → Json) : Option α → Json
  | none => null
  | some a => encode a

end Json

end NativeCall
