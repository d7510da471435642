import NativeCall.Labels

/-!
The classes of exception that a native method may have the host raise.
-/

set_option autoImplicit false
set_option relaxedAutoImplicit false

namespace NativeCall

inductive ExceptionClass where
  | argumentError
  | systemCallError
  deriving DecidableEq, Repr

namespace ExceptionClass

def name : ExceptionClass → String
  | argumentError => "ArgumentError"
  | systemCallError => "SystemCallError"

def labels : Labels ExceptionClass :=
  ⟨[argumentError, systemCallError], name⟩

end ExceptionClass

end NativeCall
