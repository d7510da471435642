import NativeCall.Object

/-!
Equality of values. Floats compare as numbers, so that a NaN is not even equal to itself; hashes
compare without regard to the order of their keys; values of different kinds are never equal.
-/

set_option autoImplicit false
set_option relaxedAutoImplicit false

namespace NativeCall.Object

mutual

def eq : Object → Object → Bool
  | nil, nil => true
  | boolean a, boolean b => a == b
  | int a, int b => a == b
  | float a, float b => a.eq b
  | string a, string b => a == b
  | symbol a, symbol b => a == b
  | array a, array b => eqItems a b
  | hash a, hash b => a.length == b.length && eqEntries a b
  | proc a, proc b => a == b
  | io a, io b => a == b
  | _, _ => false

def eqItems : List Object → List Object → Bool
  | [], [] => true
  | a :: as, b :: bs => eq a b && eqItems as bs
  | _, _ => false

def eqEntries : List (HashKey × Object) → List (HashKey × Object) → Bool
  | [], _ => true
  | (key, a) :: entries, other =>
    match Dictionary.find? key other with
    | some b => eq a b && eqEntries entries other
    | none => false

end

end NativeCall.Object
