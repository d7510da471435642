import NativeCall.Json.Basic
import NativeCall.Number.Layout
import NativeCall.Text.Quoted

/-!
Why a JSON text is not the document that a reader asks for. Either the text stops being JSON, or it
holds something other than what is expected; the second kind is worded for the user.
-/

set_option autoImplicit false
set_option relaxedAutoImplicit false

namespace NativeCall.Json

open Text

inductive Found where
  | null
  | boolean (b : Bool)
  | number (n : Number)
  | string (s : String)
  | sequence
  | map
  /-- The bare name of an alternative that carries data. -/
  | bareName
  deriving DecidableEq, Repr

def backQuoted (text : String) : String :=
  "`" ++ text ++ "`"

def Found.describe : Found → String
  | null => "null"
  | boolean b => "boolean " ++ backQuoted (if b then "true" else "false")
  | number (.integer n) => "integer " ++ backQuoted (Decimal.signedText n)
  | number (.double d _) => "floating point " ++ backQuoted (String.ofList d.documentText)
  | string s => "string " ++ Quoted.quote s
  | sequence => "sequence"
  | map => "map"
  | bareName => "unit variant"

inductive Mismatch where
  | wrongType (found : Found) (expected : String)
  | outOfRange (n : Int) (expected : String)
  | wrongLength (length : Nat) (expected : String)
  | missingField (name : String)
  | duplicateField (name : String)
  | unknownName (name : String) (known : List String)
  deriving DecidableEq, Repr

namespace Mismatch

def alternatives : List String → String
  | [] => "there are no variants"
  | [name] => "expected " ++ backQuoted name
  | [first, second] => "expected " ++ backQuoted first ++ " or " ++ backQuoted second
  | names => "expected one of " ++ ", ".intercalate (names.map backQuoted)

def message : Mismatch → String
  | wrongType found expected => "invalid type: " ++ found.describe ++ ", expected " ++ expected
  | outOfRange n expected =>
    "invalid value: " ++ (Found.number (.integer n)).describe ++ ", expected " ++ expected
  | wrongLength length expected =>
    "invalid length " ++ Decimal.text length ++ ", expected " ++ expected
  | missingField name => "missing field " ++ backQuoted name
  | duplicateField name => "duplicate field " ++ backQuoted name
  | unknownName name known =>
    "unknown variant " ++ backQuoted name ++ ", " ++ alternatives known

end Mismatch

/-- The first problem met when a text is read from left to right. -/
inductive Fault where
  | malformed
  | mismatch (m : Mismatch)
  deriving DecidableEq, Repr

/-- How a reader words its faults, given the text that it reads. A mismatch is followed by the place
in the text where it is found. -/
structure Wording where
  describe : String → Fault → String
  mismatch : ∀ text m, ∃ place, describe text (.mismatch m) = m.message ++ place

def Wording.placeless (malformed : String) : Wording where
  describe _
    | .malformed => malformed
    | .mismatch m => m.message
  mismatch _ _ := ⟨"", String.append_empty.symm⟩

end NativeCall.Json
