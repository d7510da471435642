import NativeCall.Event
import NativeCall.Keywords
import NativeCall.Output
import NativeCall.Plan

/-!
Binding the arguments of a call to the slots of a shape. Too few arguments are refused before
anything is asked of the host; too many are noticed after every slot is filled.
-/

set_option autoImplicit false
set_option relaxedAutoImplicit false

namespace NativeCall

variable {σ V : Type}

/-- The value of a slot. No plan for these arguments points past their end, where a slot would stay
empty. -/
def Source.value (host : Host σ V) (args : List V) : Source → StateM σ V
  | argument position =>
    match args[position]? with
    | some v => pure v
    | none => host.nil
  | absent => host.nil
  | gathered first count => do
    let sequence ← host.newSequence
    ((args.drop first).take count).foldlM host.append sequence
  | block => do if ← host.blockGiven then host.currentBlock else host.nil

structure Binding (V : Type) where
  result : Except ScanError (Output V)
  events : List Event

namespace Binding

def wrongCount (format : Format) (actual : Nat) : ScanError :=
  .arity actual format.minArgs format.maxArgs

def slotEvents (first : Nat) : List SlotKind → List Event
  | [] => []
  | kind :: kinds =>
    .slot first kind (first < maxOutputSlots) :: slotEvents (first + 1) kinds

theorem length_slotEvents (first : Nat) (kinds : List SlotKind) :
    (slotEvents first kinds).length = kinds.length := by
  induction kinds generalizing first with
  | nil => rfl
  | cons kind kinds ih => simp [slotEvents, ih]

def verdict (format : Format) (plan : Plan) (values : List V) : Except ScanError (Output V) :=
  if plan.surplus then .error (wrongCount format plan.argc)
  else .ok (.store (format.slots.zip values) plan.argc)

end Binding

open Binding in
def bindArgs (host : Host σ V) (format : Format) (args : List V) : StateM σ (Binding V) := do
  if args.length < format.minArgs then
    return ⟨.error (wrongCount format args.length), []⟩
  let state ← KeywordState.resolve host format args
  let plan := Plan.make format args.length (state == .pending)
  let values ← plan.sources.mapM (Source.value host args)
  return ⟨verdict format plan values, .keywords state :: slotEvents 0 format.slots⟩

end NativeCall
