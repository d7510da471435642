import NativeCall.Posix.Errno
import NativeCall.Posix.WaitStatus

/-!
Child processes and waiting for them. A child that has ended is reported once and is then gone; a
child that is stopped is reported once for each stop, and only to those who ask for stops. Each
child leads a process group of its own.
-/

set_option autoImplicit false
set_option relaxedAutoImplicit false

namespace NativeCall.Posix

inductive Program where
  | exit (code : Nat)
  | signalSelf (signal code : Nat)
  /-- Waits for input, and exits with code 1 when its input is closed. -/
  | readInput
  deriving DecidableEq, Repr

inductive Effect where
  | ignore
  | stop
  | continue
  | kill
  /-- Ends the process, but a stopped one only once it goes on. -/
  | terminate
  deriving DecidableEq, Repr

def Effect.of (signal : Nat) : Effect :=
  if signal = 9 then .kill
  else if signal = 18 then .continue
  else if signal ∈ [19, 20, 21, 22] then .stop
  else if signal ∈ [0, 17, 23, 28] then .ignore
  else .terminate

inductive Activity where
  | running
  | stopped (signal : Nat) (reported : Bool)
  | ended (status : WaitStatus)
  | gone
  deriving DecidableEq, Repr

/-- A child: what it does next, what it has become, and what it will meet when it goes on. -/
structure Child where
  exitCode : Option Nat
  activity : Activity
  inputClosed : Bool := false
  /-- A signal that takes effect when the child goes on. -/
  pending : Option Nat := none
  deriving DecidableEq, Repr

namespace Child

def advance (child : Child) : Child :=
  match child.activity with
  | .running =>
    match child.pending, child.exitCode with
    | some signal, _ => { child with activity := .ended (.signaled signal) }
    | none, some code => { child with activity := .ended (.exited (code % 256)) }
    | none, none =>
      if child.inputClosed then { child with activity := .ended (.exited 1) } else child
  | _ => child

def signal (child : Child) (n : Nat) : Child :=
  match child.activity, Effect.of n with
  | .running, .stop => { child with activity := .stopped n false }
  | .running, .kill => { child with activity := .ended (.signaled n) }
  | .running, .terminate => { child with activity := .ended (.signaled n) }
  | .stopped _ _, .kill => { child with activity := .ended (.signaled n) }
  | .stopped _ _, .terminate => { child with pending := child.pending.or (some n) }
  | .stopped _ _, .continue => { child with activity := .running }.advance
  | _, _ => child

def closeInput (child : Child) : Child :=
  { child with inputClosed := true }.advance

def start : Program → Child
  | .exit code => advance ⟨some code, .running, false, none⟩
  | .signalSelf n code => ((Child.mk (some code) .running false none).signal n).advance
  | .readInput => ⟨none, .running, false, none⟩

/-- What there is to report of a child, and the child once that is reported. -/
def report? (untraced : Bool) (child : Child) : Option (WaitStatus × Child) :=
  match child.activity with
  | .ended status => some (status, { child with activity := .gone })
  | .stopped n false =>
    if untraced then some (.stopped n, { child with activity := .stopped n true }) else none
  | _ => none

end Child

inductive WaitTarget where
  | child (number : Nat)
  | any
  | ownGroup
  | groupOf (number : Nat)
  | nobody
  deriving DecidableEq, Repr

def WaitTarget.covers (target : WaitTarget) (number : Nat) : Bool :=
  match target with
  | child n => n == number
  | groupOf n => n == number
  | any => true
  | ownGroup => false
  | nobody => false

structure WaitOptions where
  noHang : Bool := false
  untraced : Bool := false
  deriving DecidableEq, Repr

abbrev Children := List Child

namespace Children

def start (programs : List Program) : Children :=
  programs.map Child.start

def firstReport (target : WaitTarget) (untraced : Bool) :
    Nat → Children → Option (Nat × WaitStatus × Child)
  | _, [] => none
  | number, child :: children =>
    match target.covers number, child.report? untraced with
    | true, some (status, child) => some (number, status, child)
    | _, _ => firstReport target untraced (number + 1) children

def hasTarget (children : Children) (target : WaitTarget) : Bool :=
  children.zipIdx.any fun (child, number) => target.covers number && child.activity != .gone

/-- Waits for a change. Nothing is answered where no change has come. -/
def wait (children : Children) (target : WaitTarget) (options : WaitOptions) :
    Except Errno (Option (Nat × WaitStatus)) × Children :=
  if children.hasTarget target then
    match firstReport target options.untraced 0 children with
    | some (number, status, child) => (.ok (some (number, status)), children.set number child)
    | none => (.ok none, children)
  else (.error .noChild, children)

inductive Step where
  | wait (target : WaitTarget) (options : WaitOptions)
  | signal (number signal : Nat)
  | closeInput (number : Nat)
  deriving DecidableEq, Repr

inductive Answer where
  | waited (result : Except Errno (Option (Nat × WaitStatus)))
  | sent
  | closed

def perform (children : Children) : Step → Answer × Children
  | .wait target options =>
    let (result, children) := children.wait target options
    (.waited result, children)
  | .signal number signal => (.sent, children.modify number (·.signal signal))
  | .closeInput number => (.closed, children.modify number Child.closeInput)

def run (children : Children) : List Step → List Answer
  | [] => []
  | step :: steps =>
    let (answer, children) := perform children step
    answer :: run children steps

end Children

end NativeCall.Posix
