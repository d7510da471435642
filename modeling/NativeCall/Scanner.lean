import NativeCall.Binding
import NativeCall.Memo
import NativeCall.Tracer

/-!
Scanning: reading a format and binding arguments to it. A scanner may remember formats between
scans, and tells its tracer of everything it does.
-/

set_option autoImplicit false
set_option relaxedAutoImplicit false

namespace NativeCall

structure Scanner (τ : Type) where
  memo : Option Memo := none
  tracer : τ
  deriving DecidableEq, Repr

namespace Scanner

variable {σ τ V : Type}

def plain (tracer : τ) : Scanner τ :=
  { tracer }

def remembering (tracer : τ) (capacity : Nat) : Scanner τ :=
  { memo := some (.empty capacity), tracer }

/-- A scanner for a configured capacity, where zero turns remembering off. -/
def ofCapacity (tracer : τ) (capacity : Nat) : Scanner τ :=
  if 0 < capacity then remembering tracer capacity else plain tracer

def request (memo : Option Memo) (text : String) :
    Except ScanError (Format × Bool) × Option Memo :=
  match memo with
  | none => ((·, false) <$> Format.parse text, none)
  | some memo =>
    let (answer, memo) := memo.request text
    (answer, some memo)

def outcome : Except ScanError (Output V) → Event
  | .ok output => .finish output.argc
  | .error e => .error e

section

variable [Tracer τ]

def note (scanner : Scanner τ) (events : List Event) : Scanner τ :=
  { scanner with tracer := Tracer.tellAll scanner.tracer events }

def shape (scanner : Scanner τ) (text : String) : Except ScanError Format × Scanner τ :=
  match request scanner.memo text with
  | (.ok (format, cached), memo) =>
    (.ok format, { scanner with memo }.note [.parse text format cached])
  | (.error e, memo) => (.error e, { scanner with memo }.note [.error e])

def bind (scanner : Scanner τ) (host : Host σ V) (format : Format) (args : List V) :
    StateM σ (Except ScanError (Output V) × Scanner τ) := do
  let binding ← bindArgs host format args
  return (binding.result, scanner.note (binding.events ++ [outcome binding.result]))

def scan (scanner : Scanner τ) (host : Host σ V) (text : String) (args : List V) :
    StateM σ (Except ScanError (Output V) × Scanner τ) :=
  match scanner.shape text with
  | (.ok format, scanner) => scanner.bind host format args
  | (.error e, scanner) => pure (.error e, scanner)

end

inductive Step (σ V : Type) where
  | scan (host : Host σ V) (text : String) (args : List V)
  | shape (text : String)
  | bind (host : Host σ V) (format : Format) (args : List V)
  | clearTrace

inductive Answer (V : Type) where
  | bound (result : Except ScanError (Output V))
  | shape (result : Except ScanError Format)
  | cleared (count : Nat)

section

variable [Recorder τ]

def perform (scanner : Scanner τ) : Step σ V → StateM σ (Answer V × Scanner τ)
  | .scan host text args => do
    let (result, scanner) ← scanner.scan host text args
    return (.bound result, scanner)
  | .shape text =>
    let (result, scanner) := scanner.shape text
    return (.shape result, scanner)
  | .bind host format args => do
    let (result, scanner) ← scanner.bind host format args
    return (.bound result, scanner)
  | .clearTrace =>
    return (.cleared (Recorder.events scanner.tracer).length,
      { scanner with tracer := Recorder.clear scanner.tracer })

def run (scanner : Scanner τ) : List (Step σ V) → StateM σ (List (Answer V × Scanner τ))
  | [] => return []
  | step :: steps => do
    let (answer, scanner) ← scanner.perform step
    return (answer, scanner) :: (← run scanner steps)

end

end Scanner

variable {σ V : Type}

def scan (host : Host σ V) (text : String) (args : List V) :
    StateM σ (Except ScanError (Output V)) := do
  return (← (Scanner.plain Silent.mk).scan host text args).1

/-- Scans once and writes the slots into destinations, which keep what they hold if the scan
fails. -/
def scanInto (host : Host σ V) (text : String) (args : List V)
    (destinations : Output.Destinations V) :
    StateM σ (Except ScanError Nat × Output.Destinations V) := do
  match ← scan host text args with
  | .ok output => return (.ok output.argc, output.writeInto destinations)
  | .error e => return (.error e, destinations)

end NativeCall
