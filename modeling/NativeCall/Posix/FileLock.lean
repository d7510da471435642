import NativeCall.Labels
import NativeCall.Posix.Errno

/-!
Advisory locks on files. A lock belongs to an open file description: handles that were duplicated
share it, and it is given up when the last of them is closed. Shared locks of several descriptions
get along, and an exclusive lock gets along with none.
-/

set_option autoImplicit false
set_option relaxedAutoImplicit false

namespace NativeCall.Posix

inductive LockOperation where
  | shared
  | exclusive
  | unlock
  deriving DecidableEq, Repr

namespace LockOperation

def name : LockOperation → String
  | shared => "shared"
  | exclusive => "exclusive"
  | unlock => "unlock"

def labels : Labels LockOperation :=
  ⟨[shared, exclusive, unlock], name⟩

def compatible : LockOperation → LockOperation → Bool
  | shared, shared => true
  | unlock, _ => true
  | _, unlock => true
  | exclusive, _ => false
  | shared, exclusive => false

end LockOperation

structure OpenFile where
  file : String
  held : LockOperation
  deriving DecidableEq, Repr

/-- The open files by number, and the number of the file that each handle stands for, until it is
closed. -/
structure LockTable where
  files : List OpenFile := []
  handles : List (Option Nat) := []
  deriving DecidableEq, Repr

namespace LockTable

def fileOf? (table : LockTable) (handle : Nat) : Option Nat :=
  (table.handles[handle]?).join

def addHandle (table : LockTable) (file : Option Nat) : Nat × LockTable :=
  (table.handles.length, { table with handles := table.handles ++ [file] })

def openFile (table : LockTable) (file : String) : Nat × LockTable :=
  let opened := { table with files := table.files ++ [OpenFile.mk file .unlock] }
  opened.addHandle (some table.files.length)

def duplicate (table : LockTable) (handle : Nat) : Nat × LockTable :=
  table.addHandle (table.fileOf? handle)

def hold (table : LockTable) (number : Nat) (operation : LockOperation) : LockTable :=
  { table with files := table.files.modify number fun f => { f with held := operation } }

def close (table : LockTable) (handle : Nat) : LockTable :=
  let after := { table with handles := table.handles.set handle none }
  match table.fileOf? handle with
  | none => after
  | some number =>
    if after.handles.contains (some number) then after else after.hold number .unlock

def allows (table : LockTable) (number : Nat) (operation : LockOperation) : Bool :=
  match table.files[number]? with
  | none => true
  | some wanted =>
    table.files.zipIdx.all fun (f, i) =>
      i == number || f.file != wanted.file || operation.compatible f.held

/-- Asks for a lock on the file of a handle. A request that has to wait is refused instead, and
gives up the lock held before. -/
def lock (table : LockTable) (handle : Nat) (operation : LockOperation) :
    Except Errno Unit × LockTable :=
  match table.fileOf? handle with
  | none => (.error .badDescriptor, table)
  | some number =>
    if table.allows number operation then (.ok (), table.hold number operation)
    else (.error .tryAgain, table.hold number .unlock)

inductive Step where
  | openFile (file : String)
  | duplicate (handle : Nat)
  | close (handle : Nat)
  | lock (handle : Nat) (operation : LockOperation)
  deriving DecidableEq, Repr

inductive Answer where
  | handle (number : Nat)
  | closed
  | locked (result : Except Errno Unit)

def perform (table : LockTable) : Step → Answer × LockTable
  | .openFile file =>
    let (number, table) := table.openFile file
    (.handle number, table)
  | .duplicate handle =>
    let (number, table) := table.duplicate handle
    (.handle number, table)
  | .close handle => (.closed, table.close handle)
  | .lock handle operation =>
    let (result, table) := table.lock handle operation
    (.locked result, table)

def run (table : LockTable) : List Step → List Answer
  | [] => []
  | step :: steps =>
    let (answer, table) := table.perform step
    answer :: run table steps

end LockTable

end NativeCall.Posix
