import NativeCall.Format
import NativeCall.Host
import NativeCall.Labels

/-!
Whether the last argument of a call is its keyword hash. Mandatory arguments are never keywords. A
value that the host takes for keywords is consumed; a final nil is consumed only where it cannot be
a positional argument, because there is no rest slot and the other slots are full.
-/

set_option autoImplicit false
set_option relaxedAutoImplicit false

namespace NativeCall

inductive KeywordState where
  | notAccepted
  | pending
  | erased
  | consumed
  deriving DecidableEq, Repr

namespace KeywordState

def name : KeywordState → String
  | notAccepted => "not_accepted"
  | pending => "pending"
  | erased => "erased"
  | consumed => "consumed"

def labels : Labels KeywordState :=
  ⟨[notAccepted, pending, erased, consumed], name⟩

variable {σ V : Type}

/-- Whether so many arguments all find a place before the keyword slot. -/
def fitsPositionally (format : Format) (argc : Nat) : Bool :=
  format.rest || argc ≤ format.minArgs + format.optional.toNat

def classify (host : Host σ V) (format : Format) (argc : Nat) (last : V) :
    StateM σ KeywordState := do
  if ← host.isNil last then
    return if fitsPositionally format argc then erased else pending
  else if ← host.isKeywordLike last true then return pending
  else return erased

/-- Decides whether the last argument is the keyword hash. -/
def resolve (host : Host σ V) (format : Format) (args : List V) : StateM σ KeywordState :=
  if !format.keywords then pure notAccepted
  else if args.length ≤ format.minArgs then pure erased
  else match args.getLast? with
    | none => pure erased
    | some last => classify host format args.length last

end KeywordState

end NativeCall
