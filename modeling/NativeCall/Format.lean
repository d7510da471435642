import NativeCall.Labels

/-!
The argument shape of a native method: how many arguments it takes and what each one fills.
-/

set_option autoImplicit false
set_option relaxedAutoImplicit false

namespace NativeCall

inductive SlotKind where
  | leading
  | optional
  | rest
  | trailing
  | keywords
  | block
  deriving DecidableEq, Repr

namespace SlotKind

def name : SlotKind → String
  | leading => "leading"
  | optional => "optional"
  | rest => "rest"
  | trailing => "trailing"
  | keywords => "keywords"
  | block => "block"

def labels : Labels SlotKind :=
  ⟨[leading, optional, rest, trailing, keywords, block], name⟩

end SlotKind

/-- The shape of a native method's arguments: mandatory leading ones, optional ones, a list of the
surplus, mandatory trailing ones, a keyword hash and a block. -/
structure Format where
  leading : UInt8 := 0
  optional : UInt8 := 0
  rest : Bool := false
  trailing : UInt8 := 0
  keywords : Bool := false
  block : Bool := false
  deriving DecidableEq, Repr

namespace Format

def minArgs (format : Format) : Nat :=
  format.leading.toNat + format.trailing.toNat

/-- How many positional arguments fit, or `none` when a rest slot takes any number. -/
def maxArgs (format : Format) : Option Nat :=
  if format.rest then none else some (format.minArgs + format.optional.toNat)

def slots (format : Format) : List SlotKind :=
  List.replicate format.leading.toNat .leading
    ++ List.replicate format.optional.toNat .optional
    ++ (if format.rest then [.rest] else [])
    ++ List.replicate format.trailing.toNat .trailing
    ++ (if format.keywords then [.keywords] else [])
    ++ (if format.block then [.block] else [])

def slotCount (format : Format) : Nat :=
  format.minArgs + format.optional.toNat + format.rest.toNat + format.keywords.toNat
    + format.block.toNat

theorem length_slots (format : Format) : format.slots.length = format.slotCount := by
  cases hr : format.rest <;> cases hk : format.keywords <;> cases hb : format.block <;>
    simp [slots, slotCount, minArgs, hr, hk, hb] <;> omega

end Format

end NativeCall
