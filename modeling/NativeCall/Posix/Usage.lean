/-!
Processor time used by a process and by the children it has waited for.
-/

set_option autoImplicit false
set_option relaxedAutoImplicit false

namespace NativeCall.Posix

structure Usage where
  user : Int
  system : Int
  childrenUser : Int
  childrenSystem : Int
  deriving DecidableEq, Repr

namespace Usage

def times (usage : Usage) : List Int :=
  [usage.user, usage.system, usage.childrenUser, usage.childrenSystem]

def nonNegative (usage : Usage) : Bool :=
  usage.times.all (0 ≤ ·)

def monotone (first second : Usage) : Bool :=
  (first.times.zip second.times).all fun (a, b) => a ≤ b

def below (seconds : Int) (usage : Usage) : Bool :=
  usage.times.all (· < seconds * 1000000)

end Usage

end NativeCall.Posix
