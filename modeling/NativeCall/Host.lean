/-!
What the binder needs from the runtime around it. The binder never looks into a value: it asks the
host, and every value it does not pass on is made by the host. A host may keep state of its own, so
each capability is a step on that state.
-/

set_option autoImplicit false
set_option relaxedAutoImplicit false

namespace NativeCall

/-- The capabilities of a host with state `σ` and values `V`, for one native call. -/
structure Host (σ V : Type) where
  nil : StateM σ V
  isNil : V → StateM σ Bool
  /-- Whether a value can stand for keyword arguments; strictly, as it is. -/
  isKeywordLike : V → Bool → StateM σ Bool
  blockGiven : StateM σ Bool
  currentBlock : StateM σ V
  newSequence : StateM σ V
  append : V → V → StateM σ V

namespace Host

variable {σ V : Type}

inductive Call (V : Type) where
  | nil
  | isNil (value : V)
  | isKeywordLike (value : V) (strict : Bool)
  | blockGiven
  | currentBlock
  | newSequence
  | append (sequence value : V)
  deriving DecidableEq, Repr

/-- Does a step, and notes the call at the end of the log. -/
def noting {α : Type} (call : Call V) (step : StateM σ α) : StateM (σ × List (Call V)) α :=
  fun (s, log) =>
    let (a, s) := step.run s
    (a, s, log ++ [call])

def logged (host : Host σ V) : Host (σ × List (Call V)) V where
  nil := noting .nil host.nil
  isNil v := noting (.isNil v) (host.isNil v)
  isKeywordLike v strict := noting (.isKeywordLike v strict) (host.isKeywordLike v strict)
  blockGiven := noting .blockGiven host.blockGiven
  currentBlock := noting .currentBlock host.currentBlock
  newSequence := noting .newSequence host.newSequence
  append sequence v := noting (.append sequence v) (host.append sequence v)

end Host

end NativeCall
