import NativeCall.Json.Basic
import NativeCall.Object

/-!
Values and JSON. A string of JSON that begins with a colon is a symbol, and the keys of an object
are symbols. Some values are only written: a block and a stream as an object with one key, and a
float that is not finite as null.
-/

set_option autoImplicit false
set_option relaxedAutoImplicit false

namespace NativeCall

open Text

def HashKey.jsonName : HashKey → String
  | nil => "nil"
  | int n => Decimal.signedText n.toInt
  | string s => s
  | symbol name => name

namespace Object

/-- A number of JSON: a signed whole number as it is, and any other as a float. -/
def ofNumber : Json.Number → Object
  | .integer n =>
    if Json.leastSigned ≤ n && n ≤ Json.greatestSigned then int (Int64.ofInt n)
    else float (Double.ofInt n)
  | .double d _ => float d

def ofText (s : String) : Object :=
  match s.toList with
  | ':' :: c :: name => symbol (String.ofList (c :: name))
  | _ => string s

mutual

def ofJson : Json → Object
  | .null => nil
  | .boolean b => boolean b
  | .number n => ofNumber n
  | .string s => ofText s
  | .array items => array (ofJsonItems items)
  | .object entries => ofPairs (ofJsonEntries entries)

def ofJsonItems : List Json → List Object
  | [] => []
  | item :: items => ofJson item :: ofJsonItems items

def ofJsonEntries : List (String × Json) → List (HashKey × Object)
  | [] => []
  | (key, value) :: entries => (.symbol key, ofJson value) :: ofJsonEntries entries

end

mutual

/-- The JSON value of a value. Keys that are written alike fall together. -/
def toJson : Object → Json
  | nil => .null
  | boolean b => .boolean b
  | int n => .ofInt n.toInt
  | float d => .ofDouble d
  | string s => .string s
  | symbol name => .string (":" ++ name)
  | array items => .array (toJsonItems items)
  | hash entries => .object (Dictionary.ofPairs (toJsonEntries entries))
  | proc name => .object [("$proc", .string name)]
  | io descriptor => .object [("$io", .ofInt descriptor.toInt)]

def toJsonItems : List Object → List Json
  | [] => []
  | item :: items => toJson item :: toJsonItems items

def toJsonEntries : List (HashKey × Object) → List (String × Json)
  | [] => []
  | (key, value) :: entries => (key.jsonName, toJson value) :: toJsonEntries entries

end

end Object

end NativeCall
