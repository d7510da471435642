import NativeCall.Posix.Errno

/-!
Waiting for descriptors. Three lists of descriptors are checked before the system is asked about
any of them. When some are ready, every descriptor of a list that is not is replaced by a mark;
when none is, or on failure, the lists stay as they are.
-/

set_option autoImplicit false
set_option relaxedAutoImplicit false

namespace NativeCall.Posix

structure Triple (α : Type) where
  read : α
  write : α
  except : α
  deriving DecidableEq, Repr

namespace Triple

variable {α β : Type}

def map (f : α → β) (t : Triple α) : Triple β :=
  ⟨f t.read, f t.write, f t.except⟩

def zipWith {γ : Type} (f : α → β → γ) (s : Triple α) (t : Triple β) : Triple γ :=
  ⟨f s.read t.read, f s.write t.write, f s.except t.except⟩

def toList (t : Triple α) : List α :=
  [t.read, t.write, t.except]

end Triple

abbrev Descriptors := Triple (List Int32)

namespace Select

def setSize : Int := 1024

def notReady : Int32 := -1

structure Timeout where
  seconds : Int
  micros : Int
  deriving DecidableEq, Repr

/-- What the system is asked: it looks at descriptors below a limit, and waits without end if no
timeout is given. -/
structure Request where
  limit : Int32
  sets : Descriptors
  timeout : Option Timeout
  deriving DecidableEq, Repr

structure Ready where
  count : Nat
  sets : Descriptors
  deriving DecidableEq, Repr

abbrev System := Request → Except Errno Ready

def inRange (descriptor : Int32) : Bool :=
  0 ≤ descriptor.toInt && descriptor.toInt < setSize

/-- Puts descriptors into a set one after another, and raises the greatest one seen so far. The
first that does not fit is refused. -/
def gather (set : List Int32) (greatest : Int32) :
    List Int32 → Except Errno (List Int32 × Int32)
  | [] => .ok (set, greatest)
  | descriptor :: others =>
    if inRange descriptor then
      gather (set.insert descriptor) (max greatest descriptor) others
    else .error .invalidArgument

def timeout (micros : Int) : Option Timeout :=
  if 0 ≤ micros then some ⟨micros / 1000000, micros % 1000000⟩ else none

/-- What the system is to be asked. All lists are gathered before any of them changes. -/
def prepare (lists : Descriptors) (micros : Int) : Except Errno Request := do
  let (read, greatest) ← gather [] 0 lists.read
  let (write, greatest) ← gather [] greatest lists.write
  let (except, greatest) ← gather [] greatest lists.except
  return ⟨greatest + 1, ⟨read, write, except⟩, timeout micros⟩

def markReady (list set : List Int32) : List Int32 :=
  list.map fun descriptor => if set.contains descriptor then descriptor else notReady

/-- How many descriptors are ready, and the lists after the system has answered. -/
def settle (lists : Descriptors) : Except Errno Ready → Except Errno Nat × Descriptors
  | .error e => (.error e, lists)
  | .ok ready =>
    if 0 < ready.count then (.ok ready.count, lists.zipWith markReady ready.sets)
    else (.ok 0, lists)

end Select

open Select in
/-- Waits until descriptors are ready, and answers how many are, with the lists afterwards. The
system may answer with any effect. -/
def selectWith {m : Type → Type} [Monad m] (ask : Request → m (Except Errno Ready))
    (lists : Descriptors) (micros : Int) : m (Except Errno Nat × Descriptors) :=
  match prepare lists micros with
  | .error e => return (.error e, lists)
  | .ok request => do
    let reply ← ask request
    return settle lists reply

open Select in
def select (system : System) (lists : Descriptors) (micros : Int) :
    Except Errno Nat × Descriptors :=
  Id.run (selectWith (fun request => pure (system request)) lists micros)

inductive Socket where
  | idle
  | data
  | eof
  | full
  deriving DecidableEq, Repr

namespace Socket

def readable : Socket → Bool
  | data => true
  | eof => true
  | idle => false
  | full => false

def writable : Socket → Bool
  | idle => true
  | data => true
  | eof => true
  | full => false

/-- The system that knows a list of sockets by their positions; no other descriptor is open. -/
def system (sockets : List Socket) : Select.System := fun request =>
  let socket? (descriptor : Int32) := sockets[descriptor.toInt.toNat]?
  if request.sets.toList.all (·.all fun d => (socket? d).isSome) then
    let ready (p : Socket → Bool) (set : List Int32) :=
      set.eraseDups.filter fun d => (socket? d).any p
    let sets : Descriptors := ⟨ready readable request.sets.read,
      ready writable request.sets.write, []⟩
    .ok ⟨sets.read.length + sets.write.length + sets.except.length, sets⟩
  else .error .badDescriptor

end Socket

end NativeCall.Posix
