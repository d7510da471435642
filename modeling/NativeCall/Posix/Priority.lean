import NativeCall.Labels
import NativeCall.Posix.Errno

/-!
Scheduling priorities. A process, a group or a user has the priority of its most favoured process.
-/

set_option autoImplicit false
set_option relaxedAutoImplicit false

namespace NativeCall.Posix

inductive PriorityTarget where
  | process
  | processGroup
  | user
  deriving DecidableEq, Repr

namespace PriorityTarget

def name : PriorityTarget → String
  | process => "process"
  | processGroup => "process_group"
  | user => "user"

def labels : Labels PriorityTarget :=
  ⟨[process, processGroup, user], name⟩

end PriorityTarget

structure Scheduled where
  id : Nat
  group : Nat
  user : Nat
  nice : Int
  deriving DecidableEq, Repr

namespace Scheduled

def key (process : Scheduled) : PriorityTarget → Nat
  | .process => process.id
  | .processGroup => process.group
  | .user => process.user

def inRange (nice : Int) : Bool :=
  -20 ≤ nice && nice ≤ 19

/-- The least nice value of the processes that a number names; zero names the caller. -/
def priority (caller : Scheduled) (others : List Scheduled) (target : PriorityTarget) (who : Nat) :
    Except Errno Int :=
  let wanted := if who = 0 then caller.key target else who
  match (caller :: others).filter (·.key target == wanted) with
  | [] => .error .noProcess
  | first :: more => .ok ((more.map nice).foldl min first.nice)

end Scheduled

end NativeCall.Posix
