import NativeCall.Proofs.Binding.Slicing
import NativeCall.Scanner

/-!
A scanner tells its tracer of events and never looks at it. Whatever turns one tracer into another
while events come in turns the runs of the one into the runs of the other; `Scanner.relay_run` says
so of all steps. A log and a tracer that is lent are got from a recording in this way.
-/

set_option autoImplicit false
set_option relaxedAutoImplicit false

namespace NativeCall

variable {σ τ υ ω V : Type}

namespace Tracer

def Follows [Tracer τ] [Tracer υ] (f : τ → υ) : Prop :=
  ∀ t event, f (tell t event) = tell (f t) event

theorem Follows.tellAll [Tracer τ] [Tracer υ] {f : τ → υ} (follows : Follows f) (t : τ)
    (events : List Event) : f (tellAll t events) = Tracer.tellAll (f t) events := by
  induction events generalizing t with
  | nil => rfl
  | cons event events ih =>
    have others := ih (tell t event)
    rw [follows] at others
    exact others

private theorem tell_recording (trace : Recording) (event : Event) :
    tell trace event = trace ++ [event] := by
  cases event <;> rfl

theorem tellAll_recording (trace : Recording) (events : List Event) :
    tellAll trace events = trace ++ events := by
  induction events generalizing trace with
  | nil => exact (List.append_nil trace).symm
  | cons event events ih =>
    have others := ih (tell trace event)
    rw [tell_recording, List.append_assoc, List.singleton_append] at others
    rw [← others, ← tell_recording]
    rfl

end Tracer

namespace Recorder

theorem events_recording (trace : Recording) : events trace = trace := rfl

theorem clear_recording (trace : Recording) : clear trace = [] := rfl

end Recorder

def Log.ofEvents (trace : Recording) : Log where
  scans := trace.countP Event.isParse
  lines := trace.map Event.line

theorem Log.follows_ofEvents : Tracer.Follows ofEvents := by
  intro trace event
  rw [Tracer.tell_recording]
  cases event <;>
    simp [ofEvents, Tracer.tell, Tracer.onParse, Tracer.onKeywords, Tracer.onSlot, Tracer.onFinish,
      Tracer.onError, write, Event.isParse]

private theorem Place.change_write (place : Place ω τ) (f : τ → τ) (t : τ) (owner : ω) :
    place.change f (place.write t owner) = place.write (f t) owner := by
  rw [change, place.read_write, place.write_write]

private theorem Borrowed.follows_mk [Tracer τ] (place : Place ω τ) (owner : ω) :
    Tracer.Follows fun t => (⟨place.write t owner⟩ : Borrowed place) := by
  intro t event
  cases event <;> exact congrArg mk (place.change_write _ t owner).symm

namespace Scanner

def relay (f : τ → υ) (scanner : Scanner τ) : Scanner υ :=
  { memo := scanner.memo, tracer := f scanner.tracer }

section

variable [Tracer τ] [Tracer υ] {f : τ → υ}

private theorem relay_note (follows : Tracer.Follows f) (scanner : Scanner τ)
    (events : List Event) : (scanner.note events).relay f = (scanner.relay f).note events :=
  congrArg (Scanner.mk scanner.memo) (follows.tellAll scanner.tracer events)

private theorem relay_shape (follows : Tracer.Follows f) (scanner : Scanner τ) (text : String) :
    (scanner.relay f).shape text = ((scanner.shape text).1, (scanner.shape text).2.relay f) := by
  unfold shape
  rw [show (scanner.relay f).memo = scanner.memo from rfl]
  split
  · next memo _ => exact congrArg _ (relay_note follows { scanner with memo } _).symm
  · next memo _ => exact congrArg _ (relay_note follows { scanner with memo } _).symm

private theorem relay_bind (follows : Tracer.Follows f) (scanner : Scanner τ) (host : Host σ V)
    (format : Format) (args : List V) (s : σ) :
    ((scanner.relay f).bind host format args).run s =
      ((fun (result, scanner) => (result, scanner.relay f)) <$>
        scanner.bind host format args).run s := by
  simp only [bind, run_map, run_seq, run_pure, relay_note follows]

private theorem relay_scan (follows : Tracer.Follows f) (scanner : Scanner τ) (host : Host σ V)
    (text : String) (args : List V) (s : σ) :
    ((scanner.relay f).scan host text args).run s =
      ((fun (result, scanner) => (result, scanner.relay f)) <$>
        scanner.scan host text args).run s := by
  unfold scan
  rw [relay_shape follows]
  cases scanner.shape text with
  | mk read after =>
    cases read with
    | ok format => exact relay_bind follows after host format args s
    | error e => rfl

end

section

variable [Recorder τ] [Recorder υ] {f : τ → υ}

private theorem relay_perform (follows : Tracer.Follows f)
    (kept : ∀ t, Recorder.events (f t) = Recorder.events t)
    (cleared : ∀ t, f (Recorder.clear t) = Recorder.clear (f t))
    (scanner : Scanner τ) (step : Step σ V) (s : σ) :
    ((scanner.relay f).perform step).run s =
      ((fun (answer, scanner) => (answer, scanner.relay f)) <$> scanner.perform step).run s := by
  cases step with
  | scan host text args =>
    have same := relay_scan follows scanner host text args s
    simp only [perform, run_map, run_seq, run_pure] at same ⊢
    rw [same]
  | shape text =>
    simp only [perform, relay_shape follows, run_map, run_pure]
  | bind host format args =>
    have same := relay_bind follows scanner host format args s
    simp only [perform, run_map, run_seq, run_pure] at same ⊢
    rw [same]
  | clearTrace =>
    simp only [perform, run_map, run_pure, relay, kept, cleared]

/-- The steps of a run answer the same whatever its tracer does with the events. -/
theorem relay_run (follows : Tracer.Follows f)
    (kept : ∀ t, Recorder.events (f t) = Recorder.events t)
    (cleared : ∀ t, f (Recorder.clear t) = Recorder.clear (f t))
    (scanner : Scanner τ) (steps : List (Step σ V)) (s : σ) :
    ((scanner.relay f).run steps).run s =
      ((fun outcomes => outcomes.map fun (answer, scanner) => (answer, scanner.relay f)) <$>
        scanner.run steps).run s := by
  induction steps generalizing scanner s with
  | nil => rfl
  | cons step steps ih =>
    have first := relay_perform follows kept cleared scanner step s
    have others := ih ((scanner.perform step).run s).1.2 ((scanner.perform step).run s).2
    simp only [run_map] at first others
    simp only [run, run_map, run_seq, run_pure, List.map_cons, first, others]

end

def lend (place : Place ω τ) (owner : ω) : Scanner τ → Scanner (Borrowed place) :=
  relay fun t => ⟨place.write t owner⟩

theorem lend_run [Recorder τ] (scanner : Scanner τ) (place : Place ω τ) (owner : ω)
    (steps : List (Step σ V)) (s : σ) :
    ((scanner.lend place owner).run steps).run s =
      ((fun outcomes => outcomes.map fun (answer, after) => (answer, after.lend place owner)) <$>
        scanner.run steps).run s := by
  refine relay_run (Borrowed.follows_mk place owner) (fun t => ?_) (fun t => ?_) scanner steps s
  · exact congrArg Recorder.events (place.read_write t owner)
  · exact congrArg Borrowed.mk (place.change_write Recorder.clear t owner).symm

end Scanner

end NativeCall
