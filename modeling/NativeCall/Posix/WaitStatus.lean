/-!
The status word of a child process. The low seven bits are zero for an exit, whose code is the
second byte, and otherwise the signal that ended the child; seven set bits in a low byte of `0x7f`
mean that the signal in the second byte stopped it.
-/

set_option autoImplicit false
set_option relaxedAutoImplicit false

namespace NativeCall.Posix

inductive WaitStatus where
  | exited (code : Nat)
  | signaled (signal : Nat)
  | stopped (signal : Nat)
  | other
  deriving DecidableEq, Repr

namespace WaitStatus

def low (raw : Int32) : Int32 :=
  raw &&& 0x7f

/-- The second byte of a status word. The shift copies the sign of the word, and the mask drops the
copies. -/
def second (raw : Int32) : Int32 :=
  (raw >>> 8) &&& 0xff

def isExit (raw : Int32) : Bool :=
  low raw == 0

/-- Whether a signal ended the child. In eight bits with a sign, one more than seven set bits is
negative, so that these are no signal. -/
def isEnd (raw : Int32) : Bool :=
  2 ≤ (low raw + 1).toInt8

def isStop (raw : Int32) : Bool :=
  raw &&& 0xff == 0x7f

def decode (raw : Int32) : WaitStatus :=
  if isExit raw then exited (second raw).toNatClampNeg
  else if isEnd raw then signaled (low raw).toNatClampNeg
  else if isStop raw then stopped (second raw).toNatClampNeg
  else other

def success (status : WaitStatus) : Bool :=
  status == exited 0

def kind : WaitStatus → String
  | exited _ => "exited"
  | signaled _ => "signaled"
  | stopped _ => "stopped"
  | other => "other"

def number? : WaitStatus → Option Nat
  | exited code => some code
  | signaled signal => some signal
  | stopped signal => some signal
  | other => none

end WaitStatus

end NativeCall.Posix
