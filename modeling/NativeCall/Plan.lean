import NativeCall.Format

/-!
Where the value of each slot comes from. A plan depends on the shape, on the number of arguments
and on whether the last of them is the keyword hash, but on no value. Arguments that trailing slots
and the keyword slot are owed are reserved at the tail of the list before any other slot is filled.
-/

set_option autoImplicit false
set_option relaxedAutoImplicit false

namespace NativeCall

inductive Source where
  | argument (position : Nat)
  | absent
  | gathered (first count : Nat)
  | block
  deriving DecidableEq, Repr

/-- How far the arguments have been given out: the position of the next one, their number, and how
many of the last ones are reserved. -/
structure Cursor where
  next : Nat
  argc : Nat
  reserved : Nat
  deriving DecidableEq, Repr

namespace Cursor

def start (format : Format) (argc : Nat) (pending : Bool) : Cursor :=
  ⟨0, argc, format.trailing.toNat + pending.toNat⟩

def free (cursor : Cursor) : Bool :=
  cursor.next + cursor.reserved < cursor.argc

def advance (cursor : Cursor) (count : Nat) : Cursor :=
  { cursor with next := cursor.next + count }

def fill (pending : Bool) (cursor : Cursor) : SlotKind → Source × Cursor
  | .leading => (.argument cursor.next, cursor.advance 1)
  | .optional =>
    if cursor.free then (.argument cursor.next, cursor.advance 1) else (.absent, cursor)
  | .rest =>
    let count := cursor.argc - cursor.reserved - cursor.next
    (.gathered cursor.next count, cursor.advance count)
  | .trailing => (.argument cursor.next, cursor.advance 1)
  | .keywords => (if pending then .argument (cursor.argc - 1) else .absent, cursor)
  | .block => (.block, cursor)

def fillAll (pending : Bool) (cursor : Cursor) : List SlotKind → List Source × Cursor
  | [] => ([], cursor)
  | kind :: kinds =>
    let (source, cursor) := cursor.fill pending kind
    let (sources, cursor) := fillAll pending cursor kinds
    (source :: sources, cursor)

private theorem length_fillAll (pending : Bool) (cursor : Cursor) (kinds : List SlotKind) :
    (cursor.fillAll pending kinds).1.length = kinds.length := by
  induction kinds generalizing cursor with
  | nil => rfl
  | cons kind kinds ih => simp [fillAll, ih]

theorem fillAll_append (pending : Bool) (cursor : Cursor) (kinds more : List SlotKind) :
    cursor.fillAll pending (kinds ++ more) =
      ((cursor.fillAll pending kinds).1 ++
          ((cursor.fillAll pending kinds).2.fillAll pending more).1,
        ((cursor.fillAll pending kinds).2.fillAll pending more).2) := by
  induction kinds generalizing cursor with
  | nil => rfl
  | cons kind kinds ih => simp [fillAll, ih]

end Cursor

structure Plan where
  sources : List Source
  taken : Nat
  /-- The number of arguments that count as positional. -/
  argc : Nat
  deriving DecidableEq, Repr

namespace Plan

/-- Plans a call with so many arguments, the last of which may be its keyword hash. -/
def make (format : Format) (argc : Nat) (pending : Bool) : Plan :=
  let (sources, cursor) := (Cursor.start format argc pending).fillAll pending format.slots
  ⟨sources, cursor.next, argc - pending.toNat⟩

theorem length_sources (format : Format) (argc : Nat) (pending : Bool) :
    (make format argc pending).sources.length = format.slotCount := by
  simp [make, Cursor.length_fillAll, Format.length_slots]

def surplus (plan : Plan) : Bool :=
  plan.taken < plan.argc

end Plan

end NativeCall
