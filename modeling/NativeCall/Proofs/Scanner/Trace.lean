import NativeCall.Proofs.Binding.Verdict
import NativeCall.Proofs.Scanner.Memoization

/-!
What a scanner notes. Each step adds to the trace what its answer says: the format or why it is
refused, the state of the keyword slot, every slot, and how binding ended. `Scanner.run_noted` says
so of every step of every run, whether the record belongs to the scanner or is lent to it.
-/

set_option autoImplicit false
set_option relaxedAutoImplicit false

namespace NativeCall

variable {σ ω V : Type}

theorem KeywordState.classify_eq (host : Host σ V) (format : Format) (argc : Nat) (last : V)
    (s : σ) :
    ((classify host format argc last).run s).1 = pending ∨
      ((classify host format argc last).run s).1 = erased := by
  rw [classify, run_seq]
  cases ((host.isNil last).run s).1 with
  | true =>
    rw [if_pos rfl, run_pure]
    cases fitsPositionally format argc with
    | true => exact .inr rfl
    | false => exact .inl rfl
  | false =>
    rw [if_neg Bool.false_ne_true, run_seq]
    cases ((host.isKeywordLike last true).run ((host.isNil last).run s).2).1 with
    | true => exact .inl rfl
    | false => exact .inr rfl

/-- A shape with a keyword slot leaves the last argument pending or erased. -/
theorem KeywordState.resolve_eq (host : Host σ V) (format : Format) (args : List V) (s : σ) :
    (format.keywords = false ∧ ((resolve host format args).run s).1 = notAccepted) ∨
    (format.keywords = true ∧ (((resolve host format args).run s).1 = pending ∨
      ((resolve host format args).run s).1 = erased)) := by
  unfold resolve
  cases format.keywords with
  | false => exact .inl ⟨rfl, rfl⟩
  | true =>
    refine .inr ⟨rfl, ?_⟩
    rw [if_neg (by decide)]
    split
    · exact .inr rfl
    · split
      · exact .inr rfl
      · exact classify_eq ..

theorem Binding.slotEvents_eq (first : Nat) (kinds : List SlotKind) :
    slotEvents first kinds =
      kinds.mapIdx fun i kind => .slot (first + i) kind (first + i < maxOutputSlots) := by
  induction kinds generalizing first with
  | nil => rfl
  | cons kind kinds ih =>
    rw [slotEvents, ih, List.mapIdx_cons]
    simp only [Nat.add_zero, Nat.add_assoc, Nat.add_comm 1]

namespace Scanner

/-- What is noted when a format is asked for. -/
inductive ShapeNoted (text : String) : Except ScanError Format → List Event → Prop where
  | read (format : Format) (cached : Bool) :
    ShapeNoted text (.ok format) [.parse text format cached]
  | refused (e : ScanError) : ShapeNoted text (.error e) [.error e]

inductive BindNoted (format : Format) (count : Nat) (result : Except ScanError (Output V)) :
    List Event → Prop where
  | few (e : ScanError) (short : count < format.minArgs) (refused : result = .error e) :
    BindNoted format count result [.error e]
  | filled (state : KeywordState) (slots : List Event) (last : Event)
    (enough : format.minArgs ≤ count)
    (resolved : state ≠ .consumed)
    (closed : state = .notAccepted ↔ format.keywords = false)
    (counted : ∀ output, result = .ok output →
      if state = .pending then output.argc + 1 = count else output.argc = count)
    (every : slots.length = format.slotCount)
    (inOrder : slots = format.slots.mapIdx fun i kind => .slot i kind (i < maxOutputSlots))
    (finished : ∀ argc, last = .finish argc ↔ ∃ output, result = .ok output ∧ output.argc = argc)
    (failed : ∀ e, last = .error e ↔ result = .error e) :
    BindNoted format count result (.keywords state :: slots ++ [last])

/-- What a step notes, given its answer. -/
def Step.Noted : Step σ V → Answer V → List Event → Prop
  | .shape text, .shape result, events => ShapeNoted text result events
  | .bind _ format args, .bound result, events => BindNoted format args.length result events
  | .scan _ text args, .bound result, events =>
    ∃ read first others, events = first ++ others ∧ ShapeNoted text read first ∧
      match read with
      | .ok format => BindNoted format args.length result others
      | .error e => result = .error e ∧ others = []
  | .clearTrace, .cleared _, events => events = []
  | _, _, _ => False

def Step.kept (trace : List Event) : Step σ V → List Event
  | .clearTrace => []
  | _ => trace

private theorem shape_noted (scanner : Scanner Recording) (text : String) :
    ∃ added, (scanner.shape text).2.tracer = scanner.tracer ++ added ∧
      ShapeNoted text (scanner.shape text).1 added := by
  unfold shape
  split
  · next format cached _ _ => exact ⟨_, rfl, .read format cached⟩
  · next e _ _ => exact ⟨_, rfl, .refused e⟩

private theorem outcome_eq_finish_iff (result : Except ScanError (Output V)) (argc : Nat) :
    outcome result = .finish argc ↔ ∃ output, result = .ok output ∧ output.argc = argc := by
  cases result with
  | ok output => simp only [outcome, Event.finish.injEq, Except.ok.injEq, exists_eq_left']
  | error e => simp only [outcome, reduceCtorEq, false_and, exists_false]

private theorem outcome_eq_error_iff (result : Except ScanError (Output V)) (e : ScanError) :
    outcome result = .error e ↔ result = .error e := by
  cases result with
  | ok output => simp only [outcome, reduceCtorEq]
  | error other => simp only [outcome, Event.error.injEq, Except.error.injEq]

/-- Binding notes the keyword state, every slot and the outcome, unless arguments are missing. -/
theorem bindArgs_noted (host : Host σ V) (format : Format) (args : List V) (s : σ) :
    let binding := ((bindArgs host format args).run s).1
    BindNoted format args.length binding.result (binding.events ++ [outcome binding.result]) := by
  intro binding
  by_cases few : args.length < format.minArgs
  · have refused : binding = ⟨.error (Binding.wrongCount format args.length), []⟩ := by
      simp only [binding, Binding.bindArgs_few host format args few, run_pure]
    rw [refused]
    exact .few _ few rfl
  · have enough := Nat.not_lt.1 few
    have events : binding.events =
        .keywords ((KeywordState.resolve host format args).run s).1 ::
          Binding.slotEvents 0 format.slots := by
      simp only [binding, Binding.run_bindArgs host format args s enough]
    have states := KeywordState.resolve_eq host format args s
    rw [events]
    refine .filled _ _ _ enough ?_ ?_ ?_ ?_ ?_ (outcome_eq_finish_iff _) (outcome_eq_error_iff _)
    · rcases states with ⟨-, state⟩ | ⟨-, state | state⟩ <;> rw [state] <;> decide
    · rcases states with ⟨closed, state⟩ | ⟨closed, state | state⟩ <;> rw [state, closed] <;> decide
    · intro output bound
      rw [(Binding.of_ok host format args s bound).1]
      rcases Binding.resolve_cases host format args s with
        ⟨pending, -, passed⟩ | ⟨other, passed⟩
      · rw [if_pos pending, passed]
      · rw [if_neg other, passed]
    · rw [Binding.length_slotEvents, format.length_slots]
    · rw [Binding.slotEvents_eq]
      simp only [Nat.zero_add]

private theorem bind_noted (scanner : Scanner Recording) (host : Host σ V) (format : Format)
    (args : List V) (s : σ) :
    let bound := ((scanner.bind host format args).run s).1
    ∃ added, bound.2.tracer = scanner.tracer ++ added ∧
      BindNoted format args.length bound.1 added :=
  ⟨_, Tracer.tellAll_recording _ _, bindArgs_noted host format args s⟩

private theorem scan_noted (scanner : Scanner Recording) (host : Host σ V) (text : String)
    (args : List V) (s : σ) :
    let bound := ((scanner.scan host text args).run s).1
    ∃ added, bound.2.tracer = scanner.tracer ++ added ∧
      (Step.scan host text args).Noted (.bound bound.1) added := by
  obtain ⟨first, read, noted⟩ := scanner.shape_noted text
  unfold scan
  cases answer : scanner.shape text with
  | mk result after =>
    rw [answer] at read noted
    cases result with
    | ok format =>
      obtain ⟨others, bound, filled⟩ := after.bind_noted host format args s
      refine ⟨first ++ others, ?_, .ok format, first, others, rfl, noted, filled⟩
      rw [← List.append_assoc, ← read]
      exact bound
    | error e =>
      refine ⟨first, read, .error e, first, [], (List.append_nil first).symm, noted, ?_⟩
      exact ⟨rfl, rfl⟩

private theorem perform_noted (scanner : Scanner Recording) (step : Step σ V) (s : σ) :
    let done := ((scanner.perform step).run s).1
    ∃ added, done.2.tracer = step.kept scanner.tracer ++ added ∧ step.Noted done.1 added := by
  cases step with
  | scan host text args => exact scanner.scan_noted host text args s
  | shape text => exact scanner.shape_noted text
  | bind host format args => exact scanner.bind_noted host format args s
  | clearTrace => exact ⟨[], rfl, rfl⟩

/-- Each step of a run adds to the trace the events that go with its answer. If the record stays
with somebody else the steps answer the same, and the record grows where it is. -/
theorem run_noted (scanner : Scanner Recording) (steps : List (Step σ V)) (s : σ) :
    let done := (scanner.run steps).run s
    let outcomes := done.1
    outcomes.length = steps.length ∧
    (∀ step before answer after, (step, before, answer, after) ∈
        steps.zip ((scanner :: outcomes.map Prod.snd).zip outcomes) →
      ∃ added, after.tracer = step.kept before.tracer ++ added ∧ step.Noted answer added) ∧
    ∀ (ω : Type) (place : Place ω Recording) (owner : ω),
      ((scanner.lend place owner).run steps).run s =
        (outcomes.map fun (answer, after) => (answer, after.lend place owner), done.2) := by
  intro done outcomes
  refine ⟨length_run scanner steps s, fun step before answer after member => ?_,
    fun ω place owner => scanner.lend_run place owner steps s⟩
  obtain ⟨-, t, performed⟩ := mem_run (fun _ => True) (fun _ _ _ _ => trivial) trivial steps s
    step before (answer, after) member
  obtain ⟨added, grown, noted⟩ := before.perform_noted step t
  rw [performed] at grown noted
  exact ⟨added, grown, noted⟩

end Scanner

end NativeCall
