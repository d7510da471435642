import NativeCall.Config
import NativeCall.Proofs.Binding.Slicing
import NativeCall.Proofs.Scanner.Tracers

/-!
Remembering formats cannot be noticed. A memo only holds formats that were read from their texts,
so a scanner with a memo answers as one without it, and notes the same events but for the mark on a
remembered format. `Scanner.run_memoized` says so of every sequence of steps.
-/

set_option autoImplicit false
set_option relaxedAutoImplicit false

namespace NativeCall

variable {σ τ V : Type}

namespace Memo

/-- Every remembered format is what reading its text gives. -/
def Faithful (memo : Memo) : Prop :=
  ∀ text format, Dictionary.find? text memo.entries = some format →
    Format.parse text = .ok format

def requests (memo : Memo) : Nat :=
  memo.hits + memo.misses

theorem faithful_empty (capacity : Nat) : (empty capacity).Faithful := by
  intro text format found
  cases found

theorem Faithful.remember {memo : Memo} (faithful : memo.Faithful) {text : String}
    {format : Format} (read : Format.parse text = .ok format) :
    (memo.remember text format).Faithful := by
  unfold Memo.remember
  split
  · intro other found held
    by_cases same : other = text
    · subst same
      obtain rfl := Option.some.inj ((Dictionary.find?_insert_self ..).symm.trans held)
      exact read
    · exact faithful other found ((Dictionary.find?_insert_of_ne same ..).symm.trans held)
  · exact faithful

private theorem requests_remember (memo : Memo) (text : String) (format : Format) :
    (memo.remember text format).requests = memo.requests := by
  unfold remember
  split <;> rfl

private theorem Faithful.fst_request {memo : Memo} (faithful : memo.Faithful) (text : String) :
    Prod.fst <$> (memo.request text).1 = Format.parse text := by
  unfold Memo.request
  cases found : Dictionary.find? text memo.entries with
  | some format => exact (faithful text format found).symm
  | none =>
    cases Format.parse text with
    | ok format => rfl
    | error e => rfl

theorem Faithful.request {memo : Memo} (faithful : memo.Faithful) (text : String) :
    (memo.request text).2.Faithful := by
  unfold Memo.request
  cases found : Dictionary.find? text memo.entries with
  | some format => exact faithful
  | none =>
    cases read : Format.parse text with
    | ok format =>
      have missed : ({ memo with misses := memo.misses + 1 } : Memo).Faithful := faithful
      exact missed.remember read
    | error e => exact faithful

theorem requests_request (memo : Memo) (text : String) :
    (memo.request text).2.requests = memo.requests + 1 := by
  unfold request
  cases Dictionary.find? text memo.entries with
  | some format => exact Nat.add_right_comm ..
  | none =>
    cases Format.parse text with
    | ok format => exact requests_remember ..
    | error e => rfl

end Memo

/-- The event as it is when the format was read. -/
def Event.asRead : Event → Event
  | parse text format _ => parse text format false
  | other => other

private theorem Binding.map_asRead_slotEvents (first : Nat) (kinds : List SlotKind) :
    (slotEvents first kinds).map Event.asRead = slotEvents first kinds := by
  induction kinds generalizing first with
  | nil => rfl
  | cons kind kinds ih =>
    rw [slotEvents, List.map_cons, ih]
    rfl

private theorem map_asRead_bindArgs (host : Host σ V) (format : Format) (args : List V) (s : σ) :
    ((bindArgs host format args).run s).1.events.map Event.asRead =
      ((bindArgs host format args).run s).1.events := by
  by_cases few : args.length < format.minArgs
  · simp only [bindArgs, few, ↓reduceIte, run_pure, List.map_nil]
  · simp only [bindArgs, few, ↓reduceIte, run_seq, run_pure, List.map_cons,
      Binding.map_asRead_slotEvents]
    rfl

namespace Scanner

inductive Setup where
  | plain
  | remembering (capacity : Nat)
  | configured (config : Config)

def Setup.scanner : Setup → Scanner Recording
  | plain => .plain []
  | remembering capacity => .remembering [] capacity
  | configured config => .ofCapacity [] config.capacity.toNat

def Faithful (scanner : Scanner τ) : Prop :=
  ∀ memo, scanner.memo = some memo → memo.Faithful

/-- The scanner that remembers nothing and has read every format. -/
def forget (scanner : Scanner Recording) : Scanner Recording :=
  { memo := none, tracer := scanner.tracer.map Event.asRead }

def Step.memoAfter (memo : Option Memo) : Step σ V → Option Memo
  | scan _ text _ => (request memo text).2
  | shape text => (request memo text).2
  | bind _ _ _ => memo
  | clearTrace => memo

def Step.requests : Step σ V → Nat
  | scan _ _ _ => 1
  | shape _ => 1
  | bind _ _ _ => 0
  | clearTrace => 0

def Step.fresh : Step σ V → StateM σ (Option (Answer V))
  | scan host text args => (some ∘ Answer.bound) <$> NativeCall.scan host text args
  | shape text => pure (some (.shape (Format.parse text)))
  | bind host format args => (some ∘ Answer.bound ∘ Binding.result) <$> bindArgs host format args
  | clearTrace => pure none

def Answer.ofCall : Answer V → Option (Answer V)
  | cleared _ => none
  | other => some other

private theorem Faithful.fst_request {scanner : Scanner τ} (faithful : scanner.Faithful)
    (text : String) : Prod.fst <$> (request scanner.memo text).1 = Format.parse text := by
  cases held : scanner.memo with
  | none =>
    unfold Scanner.request
    cases Format.parse text with
    | ok format => rfl
    | error e => rfl
  | some memo => exact (faithful memo held).fst_request text

private theorem Faithful.memo_request {scanner : Scanner τ} (faithful : scanner.Faithful)
    (text : String) : ∀ memo, (request scanner.memo text).2 = some memo → memo.Faithful := by
  intro memo held
  cases remembered : scanner.memo with
  | none =>
    rw [remembered] at held
    cases held
  | some before =>
    rw [remembered] at held
    obtain rfl := Option.some.inj held
    exact (faithful before remembered).request text

section

variable [Tracer τ] {scanner : Scanner τ}

private theorem shape_eq (scanner : Scanner τ) (text : String) :
    scanner.shape text =
      (Prod.fst <$> (request scanner.memo text).1,
        { scanner with memo := (request scanner.memo text).2 }.note
          [match (request scanner.memo text).1 with
            | .ok (format, cached) => .parse text format cached
            | .error e => .error e]) := by
  unfold shape
  split
  · next answer => rw [answer]; rfl
  · next answer => rw [answer]; rfl

theorem shape_ofCapacity (tracer : τ) (capacity : Nat) (text : String) :
    ∃ memo, (ofCapacity tracer capacity).shape text =
      match Format.parse text with
      | .ok format => (.ok format, ⟨memo, Tracer.tell tracer (.parse text format false)⟩)
      | .error e => (.error e, ⟨memo, Tracer.tell tracer (.error e)⟩) := by
  have start : ∃ memo, ofCapacity tracer capacity = ⟨memo, tracer⟩ ∧
      (request memo text).1 = (·, false) <$> Format.parse text := by
    unfold ofCapacity
    split
    · refine ⟨_, rfl, ?_⟩
      have none : Dictionary.find? text (Memo.empty capacity).entries = none := rfl
      simp only [request, Memo.request, none]
      cases Format.parse text with
      | ok format => rfl
      | error e => rfl
    · exact ⟨_, rfl, rfl⟩
  obtain ⟨memo, fresh, answer⟩ := start
  refine ⟨(request memo text).2, ?_⟩
  rw [fresh, shape_eq, answer]
  cases Format.parse text with
  | ok format => rfl
  | error e => rfl

private theorem memo_shape (scanner : Scanner τ) (text : String) :
    (scanner.shape text).2.memo = (request scanner.memo text).2 := by
  rw [shape_eq]
  rfl

private theorem Faithful.fst_shape (faithful : scanner.Faithful) (text : String) :
    (scanner.shape text).1 = Format.parse text := by
  rw [shape_eq]
  exact faithful.fst_request text

theorem fst_bind (scanner : Scanner τ) (host : Host σ V) (format : Format) (args : List V) :
    Prod.fst <$> scanner.bind host format args = Binding.result <$> bindArgs host format args := by
  rw [bind, map_bind, map_eq_pure_bind]
  rfl

private theorem memo_bind (scanner : Scanner τ) (host : Host σ V) (format : Format) (args : List V)
    (s : σ) : ((scanner.bind host format args).run s).1.2.memo = scanner.memo := rfl

theorem Faithful.scan_eq (faithful : scanner.Faithful) (host : Host σ V) (text : String)
    (args : List V) :
    scanner.scan host text args = match Format.parse text with
      | .ok format => (scanner.shape text).2.bind host format args
      | .error e => pure (.error e, (scanner.shape text).2) := by
  have read := faithful.fst_shape text
  unfold Scanner.scan
  split
  · next answer =>
    rw [answer] at read
    rw [← read, answer]
  · next answer =>
    rw [answer] at read
    rw [← read, answer]

theorem Faithful.fst_scan (faithful : scanner.Faithful) (host : Host σ V) (text : String)
    (args : List V) :
    Prod.fst <$> scanner.scan host text args = NativeCall.scan host text args := by
  have anew : (plain Silent.mk).Faithful := fun memo held => by cases held
  have fresh : NativeCall.scan host text args =
      Prod.fst <$> (plain Silent.mk).scan host text args :=
    (map_eq_pure_bind ..).symm
  rw [fresh, faithful.scan_eq, anew.scan_eq]
  cases Format.parse text with
  | ok format =>
    simp only [fst_bind]
  | error e => rfl

private theorem Faithful.memo_scan (faithful : scanner.Faithful) (host : Host σ V) (text : String)
    (args : List V) (s : σ) :
    ((scanner.scan host text args).run s).1.2.memo = (request scanner.memo text).2 := by
  rw [faithful.scan_eq, ← memo_shape]
  cases Format.parse text with
  | ok format => exact memo_bind ..
  | error e => rfl

end

section

variable [Recorder τ] {scanner : Scanner τ}

private theorem Faithful.memo_perform (faithful : scanner.Faithful) (step : Step σ V) (s : σ) :
    ((scanner.perform step).run s).1.2.memo = step.memoAfter scanner.memo := by
  cases step with
  | scan host text args => exact faithful.memo_scan host text args s
  | shape text => exact memo_shape scanner text
  | bind host format args => rfl
  | clearTrace => rfl

private theorem Faithful.perform_fresh (faithful : scanner.Faithful) (step : Step σ V) (s : σ) :
    ((fun (answer, _) => answer.ofCall) <$> scanner.perform step).run s = step.fresh.run s := by
  cases step with
  | scan host text args =>
    rw [Step.fresh, ← faithful.fst_scan host text args]
    rfl
  | shape text =>
    rw [Step.fresh, ← faithful.fst_shape text]
    rfl
  | bind host format args => rfl
  | clearTrace => rfl

private theorem Faithful.after_perform (faithful : scanner.Faithful) (step : Step σ V) (s : σ) :
    ((scanner.perform step).run s).1.2.Faithful := by
  intro memo held
  rw [faithful.memo_perform] at held
  cases step with
  | scan host text args => exact faithful.memo_request text memo held
  | shape text => exact faithful.memo_request text memo held
  | bind host format args => exact faithful memo held
  | clearTrace => exact faithful memo held

private theorem Step.requests_memoAfter (memo : Option Memo) (step : Step σ V) :
    (step.memoAfter memo).map Memo.requests = memo.map (·.requests + step.requests) := by
  cases memo with
  | none => cases step <;> rfl
  | some memo =>
    cases step with
    | scan host text args => exact congrArg some (memo.requests_request text)
    | shape text => exact congrArg some (memo.requests_request text)
    | bind host format args => rfl
    | clearTrace => rfl

private theorem Step.memoAfter_of_requests (memo : Option Memo) (step : Step σ V)
    (none : step.requests = 0) : step.memoAfter memo = memo := by
  cases step with
  | scan host text args => cases none
  | shape text => cases none
  | bind host format args => rfl
  | clearTrace => rfl

theorem run_cons (scanner : Scanner τ) (step : Step σ V) (steps : List (Step σ V)) (s : σ) :
    (scanner.run (step :: steps)).run s =
      let first := (scanner.perform step).run s
      let others := (first.1.2.run steps).run first.2
      (first.1 :: others.1, others.2) := rfl

theorem length_run (scanner : Scanner τ) (steps : List (Step σ V)) (s : σ) :
    ((scanner.run steps).run s).1.length = steps.length := by
  induction steps generalizing scanner s with
  | nil => rfl
  | cons step steps ih => exact congrArg (· + 1) (ih ..)

/-- Every step of a run is done by the scanner that the step before it left, and this scanner keeps
what every step keeps. -/
theorem mem_run (keeps : Scanner τ → Prop)
    (preserved : ∀ (scanner : Scanner τ) (step : Step σ V) (s : σ), keeps scanner →
      keeps ((scanner.perform step).run s).1.2)
    (start : keeps scanner) (steps : List (Step σ V)) (s : σ) :
    let outcomes := ((scanner.run steps).run s).1
    ∀ step before outcome, (step, before, outcome) ∈
        steps.zip ((scanner :: outcomes.map Prod.snd).zip outcomes) →
      keeps before ∧ ∃ t, ((before.perform step).run t).1 = outcome := by
  induction steps generalizing scanner s with
  | nil =>
    intro outcomes step before outcome member
    cases member
  | cons first steps ih =>
    intro outcomes step before outcome member
    simp only [outcomes, run_cons, List.map_cons, List.zip_cons_cons, List.mem_cons] at member
    rcases member with same | others
    · cases same
      exact ⟨start, s, rfl⟩
    · exact ih (preserved scanner first s start) _ step before outcome others

private theorem Faithful.run_fresh (faithful : scanner.Faithful) (steps : List (Step σ V)) (s : σ) :
    ((fun outcomes => outcomes.map fun (answer, _) => answer.ofCall) <$>
      scanner.run steps).run s = (steps.mapM Step.fresh).run s := by
  induction steps generalizing scanner s with
  | nil => rfl
  | cons step steps ih =>
    have first := faithful.perform_fresh step s
    have others := ih (faithful.after_perform step s) ((scanner.perform step).run s).2
    simp only [run_map] at first others
    simp only [run_map, run_cons, List.mapM_cons, run_seq, run_pure, List.map_cons, ← first,
      ← others]

private theorem Faithful.memo_run (faithful : scanner.Faithful) (steps : List (Step σ V)) (s : σ) :
    let scanners := ((scanner.run steps).run s).1.map Prod.snd
    ∀ step before after, (step, before, after) ∈ steps.zip ((scanner :: scanners).zip scanners) →
      after.memo = step.memoAfter before.memo := by
  intro scanners step before after member
  rw [List.zip_map_right, List.zip_map_right, List.mem_map] at member
  obtain ⟨⟨step, before, answer, after⟩, inside, same⟩ := member
  cases same
  obtain ⟨held, t, performed⟩ := mem_run Faithful (fun _ step s held => held.after_perform step s)
    faithful steps s step before (answer, after) inside
  have stepped := held.memo_perform step t
  rw [performed] at stepped
  exact stepped

end

section

variable {scanner : Scanner Recording}

private theorem forget_note (scanner : Scanner Recording) (events : List Event) :
    (scanner.note events).forget = scanner.forget.note (events.map Event.asRead) := by
  simp only [forget, note, Tracer.tellAll_recording, List.map_append]

private theorem Faithful.shape_forget (faithful : scanner.Faithful) (text : String) :
    scanner.forget.shape text = ((scanner.shape text).1, (scanner.shape text).2.forget) := by
  have read : request scanner.forget.memo text = ((·, false) <$> Format.parse text, none) := rfl
  rw [shape_eq scanner.forget, shape_eq scanner, read, ← faithful.fst_request text, forget_note]
  cases (request scanner.memo text).1 with
  | ok found => rfl
  | error e => rfl

private theorem bind_forget (scanner : Scanner Recording) (host : Host σ V) (format : Format)
    (args : List V) (s : σ) :
    (scanner.forget.bind host format args).run s =
      ((fun (result, scanner) => (result, scanner.forget)) <$>
        scanner.bind host format args).run s := by
  have last (result : Except ScanError (Output V)) : (outcome result).asRead = outcome result := by
    cases result <;> rfl
  simp only [bind, run_map, run_seq, run_pure, forget_note, List.map_append, List.map_cons,
    List.map_nil, map_asRead_bindArgs, last]

private theorem Faithful.scan_forget (faithful : scanner.Faithful) (host : Host σ V) (text : String)
    (args : List V) (s : σ) :
    (scanner.forget.scan host text args).run s =
      ((fun (result, scanner) => (result, scanner.forget)) <$>
        scanner.scan host text args).run s := by
  have forgotten : scanner.forget.Faithful := fun memo held => by cases held
  rw [faithful.scan_eq, forgotten.scan_eq, faithful.shape_forget]
  cases Format.parse text with
  | ok format => exact bind_forget ..
  | error e => rfl

/-- A step does the same without a memo, but for the mark on remembered formats. -/
theorem Faithful.perform_forget (faithful : scanner.Faithful) (step : Step σ V) (s : σ) :
    (scanner.forget.perform step).run s =
      ((fun (answer, scanner) => (answer, scanner.forget)) <$> scanner.perform step).run s := by
  cases step with
  | scan host text args =>
    have same := faithful.scan_forget host text args s
    simp only [perform, run_map, run_seq, run_pure] at same ⊢
    rw [same]
  | shape text =>
    simp only [perform, faithful.shape_forget, run_map, run_pure]
  | bind host format args =>
    have same := bind_forget scanner host format args s
    simp only [perform, run_map, run_seq, run_pure] at same ⊢
    rw [same]
  | clearTrace =>
    simp only [perform, run_map, run_pure, forget, Recorder.events_recording,
      Recorder.clear_recording, List.length_map, List.map_nil]

private theorem Faithful.run_forget (faithful : scanner.Faithful) (steps : List (Step σ V))
    (s : σ) : (scanner.forget.run steps).run s =
      ((fun outcomes => outcomes.map fun (answer, scanner) => (answer, scanner.forget)) <$>
        scanner.run steps).run s := by
  induction steps generalizing scanner s with
  | nil => rfl
  | cons step steps ih =>
    -- the scanner after the step is faithful again, whatever the host answered
    have first := faithful.perform_forget step s
    have others := ih (faithful.after_perform step s) ((scanner.perform step).run s).2
    simp only [run_map] at first others
    simp only [run_map, run_cons, List.map_cons, first, others]

end

theorem Setup.cases (setup : Setup) :
    setup.scanner = .plain [] ∨ ∃ capacity, setup.scanner = .remembering [] capacity := by
  cases setup with
  | plain => exact .inl rfl
  | remembering capacity => exact .inr ⟨capacity, rfl⟩
  | configured config =>
    simp only [scanner, ofCapacity]
    split
    · exact .inr ⟨_, rfl⟩
    · exact .inl rfl

theorem Setup.faithful (setup : Setup) : setup.scanner.Faithful := by
  intro memo held
  rcases setup.cases with same | ⟨capacity, same⟩
  · rw [same] at held
    cases held
  · rw [same] at held
    obtain rfl := Option.some.inj held
    exact Memo.faithful_empty capacity

private theorem Setup.forget_scanner (setup : Setup) : setup.scanner.forget = .plain [] := by
  rcases setup.cases with same | ⟨capacity, same⟩
  · rw [same]
    rfl
  · rw [same]
    rfl

private theorem not_mem_forget (scanner : Scanner Recording) (text : String) (format : Format) :
    Event.parse text format true ∉ scanner.forget.tracer := by
  intro member
  obtain ⟨event, -, same⟩ := List.mem_map.1 member
  cases event <;> cases same

/-- However a scanner is set up, its steps answer as if nothing came before them, and do the same as
without a memo but for the mark on remembered formats. Each request counts once, and other steps
leave the memo as it is. -/
theorem run_memoized (setup : Setup) (steps : List (Step σ V)) :
    (fun outcomes => outcomes.map fun (answer, _) => answer.ofCall) <$> setup.scanner.run steps =
      steps.mapM Step.fresh ∧
    (fun outcomes => outcomes.map fun (answer, scanner) => (answer, scanner.forget)) <$>
      setup.scanner.run steps = (Scanner.plain []).run steps ∧
    ∀ s, let outcomes := ((setup.scanner.run steps).run s).1
      let scanners := outcomes.map Prod.snd
      (setup.scanner.memo = none → ∀ scanner ∈ scanners, ∀ text format,
        Event.parse text format true ∉ scanner.tracer) ∧
      ∀ step before after, (step, before, after) ∈
          steps.zip ((setup.scanner :: scanners).zip scanners) →
        after.memo.map Memo.requests = before.memo.map (·.requests + step.requests) ∧
          (step.requests = 0 → after.memo = before.memo) := by
  have faithful := setup.faithful
  have forgotten := faithful.run_forget steps
  rw [setup.forget_scanner] at forgotten
  refine ⟨funext (faithful.run_fresh steps), (funext forgotten).symm, ?_⟩
  intro s outcomes scanners
  refine ⟨fun without scanner member text format => ?_, fun step before after member => ?_⟩
  · rcases setup.cases with same | ⟨capacity, same⟩
    · simp only [scanners, outcomes, same] at member
      rw [same] at forgotten
      rw [forgotten s, run_map, List.map_map] at member
      obtain ⟨outcome, -, rfl⟩ := List.mem_map.1 member
      exact outcome.2.not_mem_forget text format
    · rw [same] at without
      cases without
  · rw [faithful.memo_run steps s step before after member]
    exact ⟨step.requests_memoAfter before.memo, step.memoAfter_of_requests before.memo⟩

end Scanner

end NativeCall
