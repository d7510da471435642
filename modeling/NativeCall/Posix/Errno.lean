import NativeCall.Exception
import NativeCall.Text.Decimal

/-!
Failures of system calls: the numbers of the operating system and their wording.
-/

set_option autoImplicit false
set_option relaxedAutoImplicit false

namespace NativeCall.Posix

open Text

structure Errno where
  number : Int
  deriving DecidableEq, Repr

namespace Errno

def noEntry : Errno := ⟨2⟩

def noProcess : Errno := ⟨3⟩

def badDescriptor : Errno := ⟨9⟩

def noChild : Errno := ⟨10⟩

def tryAgain : Errno := ⟨11⟩

def notDirectory : Errno := ⟨20⟩

def isDirectory : Errno := ⟨21⟩

def invalidArgument : Errno := ⟨22⟩

def nameTooLong : Errno := ⟨36⟩

variable (strerror : Int → String)

/-- The wording of a system error with its number. The wording is the C library's. -/
def describe (errno : Errno) : String :=
  strerror errno.number ++ " (os error " ++ Decimal.signedText errno.number ++ ")"

end Errno

inductive CallError where
  | errno (e : Errno)
  | other (reason : String)
  deriving DecidableEq, Repr

namespace CallError

def zeroByte : CallError :=
  other "data provided contains a nul byte"

variable (strerror : Int → String)

def describe : CallError → String
  | errno e => e.describe strerror
  | other reason => reason

def number? : CallError → Option Int
  | errno e => some e.number
  | other _ => none

/-- The exception that a failed call raises: its class and its message. -/
def toException (e : CallError) (call : String) : ExceptionClass × String :=
  (.systemCallError, e.describe strerror ++ " - " ++ call)

end CallError

def checkName (name : String) : Except CallError Unit :=
  if name.toList.contains '\x00' then .error .zeroByte else .ok ()

end NativeCall.Posix
