import NativeCall.Event

/-!
Who is told of the events of a scan: nobody, a record of every event, a log of lines, or somebody
else's tracer.
-/

set_option autoImplicit false
set_option relaxedAutoImplicit false

namespace NativeCall

/-- The state of something that is told of events. Events that it does not care about leave it as it
is. -/
class Tracer (τ : Type) where
  onParse : String → Format → Bool → τ → τ := fun _ _ _ t => t
  onKeywords : KeywordState → τ → τ := fun _ t => t
  onSlot : Nat → SlotKind → Bool → τ → τ := fun _ _ _ t => t
  onFinish : Nat → τ → τ := fun _ t => t
  onError : ScanError → τ → τ := fun _ t => t

namespace Tracer

variable {τ : Type} [Tracer τ]

def tell (t : τ) : Event → τ
  | .parse text format cached => onParse text format cached t
  | .keywords state => onKeywords state t
  | .slot index kind stored => onSlot index kind stored t
  | .finish argc => onFinish argc t
  | .error e => onError e t

def tellAll (t : τ) (events : List Event) : τ :=
  events.foldl tell t

end Tracer

class Recorder (τ : Type) extends Tracer τ where
  events : τ → List Event
  clear : τ → τ

structure Silent where
  deriving DecidableEq, Repr

instance : Tracer Silent where

abbrev Recording := List Event

instance : Recorder Recording where
  onParse text format cached trace := trace ++ [.parse text format cached]
  onKeywords state trace := trace ++ [.keywords state]
  onSlot index kind stored trace := trace ++ [.slot index kind stored]
  onFinish argc trace := trace ++ [.finish argc]
  onError e trace := trace ++ [.error e]
  events := id
  clear _ := []

structure Log where
  scans : Nat := 0
  lines : List String := []
  deriving DecidableEq, Repr

def Log.write (event : Event) (log : Log) : Log :=
  { log with lines := log.lines ++ [event.line] }

instance : Tracer Log where
  onParse text format cached log :=
    { log with scans := log.scans + 1 }.write (.parse text format cached)
  onKeywords state := Log.write (.keywords state)
  onSlot index kind stored := Log.write (.slot index kind stored)
  onFinish argc := Log.write (.finish argc)
  onError e := Log.write (.error e)

structure Place (ω τ : Type) where
  read : ω → τ
  write : τ → ω → ω
  read_write : ∀ t owner, read (write t owner) = t
  write_read : ∀ owner, write (read owner) owner = owner
  write_write : ∀ t t' owner, write t (write t' owner) = write t owner

namespace Place

variable {ω τ : Type}

def change (place : Place ω τ) (f : τ → τ) (owner : ω) : ω :=
  place.write (f (place.read owner)) owner

end Place

/-- A tracer that stays with its owner. -/
structure Borrowed {ω τ : Type} (place : Place ω τ) where
  owner : ω

namespace Borrowed

variable {ω τ : Type} {place : Place ω τ}

def change (f : τ → τ) (tracer : Borrowed place) : Borrowed place :=
  ⟨place.change f tracer.owner⟩

instance [Tracer τ] : Tracer (Borrowed place) where
  onParse text format cached := change (Tracer.onParse text format cached)
  onKeywords state := change (Tracer.onKeywords state)
  onSlot index kind stored := change (Tracer.onSlot index kind stored)
  onFinish argc := change (Tracer.onFinish argc)
  onError e := change (Tracer.onError e)

instance [Recorder τ] : Recorder (Borrowed place) where
  events tracer := Recorder.events (place.read tracer.owner)
  clear := change Recorder.clear

end Borrowed

end NativeCall
