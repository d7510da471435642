import NativeCall.Posix.FileTree

/-!
Reading the names in a directory one by one. A stream goes on from where it stands, notices its end
as often as it is read there, and can be started again.
-/

set_option autoImplicit false
set_option relaxedAutoImplicit false

namespace NativeCall.Posix

structure DirectoryStream where
  names : List String
  position : Nat
  deriving DecidableEq, Repr

namespace DirectoryStream

def openAt (working : FileTree) (path : String) : Except CallError DirectoryStream := do
  checkName path
  match working.names path with
  | .ok names => return ⟨names, 0⟩
  | .error e => throw (.errno e)

def next (stream : DirectoryStream) : Option String × DirectoryStream :=
  match stream.names[stream.position]? with
  | some name => (some name, { stream with position := stream.position + 1 })
  | none => (none, stream)

def rewind (stream : DirectoryStream) : DirectoryStream :=
  { stream with position := 0 }

/-- Reads a number of times, and says whether the end was met. Reading at the end changes
nothing. -/
def readTimes : Nat → DirectoryStream → Bool × DirectoryStream
  | 0, stream => (false, stream)
  | times + 1, stream =>
    match stream.next with
    | (none, stream) => (true, stream)
    | (some _, stream) => readTimes times stream

def readSoFar (stream : DirectoryStream) : List String :=
  stream.names.take stream.position

inductive Step where
  | read (times : Nat)
  | readToEnd
  | rewind
  deriving DecidableEq, Repr

inductive Answer where
  | read (count : Nat) (names : Option (List String))
  | rewound
  deriving DecidableEq, Repr

/-- What a stream answers after reading. Names are ordered by their characters, which is the order
of their bytes. -/
def report (ended : Bool) (stream : DirectoryStream) : Answer :=
  let names := stream.readSoFar.mergeSort fun a b => !decide (b < a)
  .read stream.position (if ended then some names else none)

def perform (stream : DirectoryStream) : Step → Answer × DirectoryStream
  | .read times =>
    let (ended, stream) := stream.readTimes times
    (report ended stream, stream)
  | .readToEnd =>
    let (ended, stream) := stream.readTimes (stream.names.length + 1)
    (report ended stream, stream)
  | .rewind => (.rewound, stream.rewind)

def run (stream : DirectoryStream) : List Step → List Answer
  | [] => []
  | step :: steps =>
    let (answer, stream) := stream.perform step
    answer :: run stream steps

end DirectoryStream

end NativeCall.Posix
