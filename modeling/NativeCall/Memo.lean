import NativeCall.Dictionary
import NativeCall.Format.Text

/-!
Remembering formats. Up to a given number of distinct valid formats are kept; the others are read
anew each time, and nothing is ever given up for a newcomer.
-/

set_option autoImplicit false
set_option relaxedAutoImplicit false

namespace NativeCall

/-- Formats that have been read, by their text, and how often a request was served from them. -/
structure Memo where
  entries : Dictionary String Format
  capacity : Nat
  hits : Nat
  misses : Nat
  deriving DecidableEq, Repr

namespace Memo

def defaultCapacity : Nat := 64

def empty (capacity : Nat) : Memo :=
  ⟨[], capacity, 0, 0⟩

def size (memo : Memo) : Nat :=
  memo.entries.length

def isEmpty (memo : Memo) : Bool :=
  memo.entries.isEmpty

def remember (memo : Memo) (text : String) (format : Format) : Memo :=
  if memo.size < memo.capacity then
    { memo with entries := Dictionary.insert text format memo.entries }
  else memo

/-- The shape of a text, and whether it was remembered. A request that has to be read is a miss even
if reading fails. -/
def request (memo : Memo) (text : String) : Except ScanError (Format × Bool) × Memo :=
  match Dictionary.find? text memo.entries with
  | some format => (.ok (format, true), { memo with hits := memo.hits + 1 })
  | none =>
    let memo := { memo with misses := memo.misses + 1 }
    match Format.parse text with
    | .ok format => (.ok (format, false), memo.remember text format)
    | .error e => (.error e, memo)

def clear (memo : Memo) : Memo :=
  empty memo.capacity

inductive Step where
  | request (text : String)
  | clear

def perform (memo : Memo) : Step → Option (Except ScanError (Format × Bool)) × Memo
  | .request text =>
    let (answer, memo) := memo.request text
    (some answer, memo)
  | .clear => (none, memo.clear)

def run (memo : Memo) : List Step → List (Option (Except ScanError (Format × Bool)) × Memo)
  | [] => []
  | step :: steps =>
    let (answer, memo) := memo.perform step
    (answer, memo) :: run memo steps

end Memo

end NativeCall
