import NativeCall.Posix.Errno

/-!
Home directories of users by name.
-/

set_option autoImplicit false
set_option relaxedAutoImplicit false

namespace NativeCall.Posix

structure Account where
  name : String
  home : String
  deriving DecidableEq, Repr

def userHome (accounts : List Account) (name : String) : Except CallError (Option String) := do
  checkName name
  return (accounts.find? (·.name == name)).map Account.home

end NativeCall.Posix
