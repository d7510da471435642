import NativeCall.Format

/-!
The values that a scan has bound, in slot order, and the ways to read them: by position, by kind, as
a list of fixed length, and into the caller's own destinations.
-/

set_option autoImplicit false
set_option relaxedAutoImplicit false

namespace NativeCall

/-- The greatest number of slots that a scan stores. Slots past it are filled and then dropped. -/
def maxOutputSlots : Nat := 10

structure Output (V : Type) where
  slots : List (SlotKind × V)
  argc : Nat
  deriving DecidableEq, Repr

namespace Output

variable {V : Type}

def store (slots : List (SlotKind × V)) (argc : Nat) : Output V :=
  ⟨slots.take maxOutputSlots, argc⟩

def size (output : Output V) : Nat :=
  output.slots.length

def isEmpty (output : Output V) : Bool :=
  output.slots.isEmpty

def values (output : Output V) : List V :=
  output.slots.map Prod.snd

def kinds (output : Output V) : List SlotKind :=
  output.slots.map Prod.fst

def get? (output : Output V) (i : Nat) : Option V :=
  output.values[i]?

def kind? (output : Output V) (i : Nat) : Option SlotKind :=
  output.kinds[i]?

def firstOf (output : Output V) (kind : SlotKind) : Option V :=
  (output.slots.find? (·.1 == kind)).map Prod.snd

def spread : Nat → List V → List (Option V)
  | 0, _ => []
  | n + 1, [] => none :: spread n []
  | n + 1, value :: values => some value :: spread n values

theorem getElem?_spread (n i : Nat) (values : List V) (h : i < n) :
    (spread n values)[i]? = some values[i]? := by
  induction n generalizing i values with
  | zero => omega
  | succ n ih =>
    cases values with
    | nil =>
      cases i with
      | zero => simp [spread]
      | succ i => simpa [spread] using ih i [] (by omega)
    | cons value values =>
      cases i with
      | zero => simp [spread]
      | succ i => simpa [spread] using ih i values (by omega)

def toFixed (output : Output V) (n : Nat) : List (Option V) :=
  spread n output.values

abbrev Destinations (V : Type) := List (Option V)

/-- Puts values into destinations, one by one. A value whose destination is absent is dropped, and
destinations past the values keep what they hold. -/
def put : Destinations V → List V → Destinations V
  | [], _ => []
  | destinations, [] => destinations
  | none :: destinations, _ :: values => none :: put destinations values
  | some _ :: destinations, value :: values => some value :: put destinations values

def writeInto (output : Output V) (destinations : Destinations V) : Destinations V :=
  put destinations output.values

end Output

end NativeCall
