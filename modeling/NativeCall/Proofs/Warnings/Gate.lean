import Mathlib.Data.List.Forall2
import NativeCall.Warnings

/-!
What a run of warnings writes. Each step adds a line or none and leaves the lines before it alone;
whether a warning is shown depends on the level that was set last. Of two runs with the same calls,
the one at the lower levels writes some of the lines of the other: `Warnings.run_gated`.
-/

set_option autoImplicit false
set_option relaxedAutoImplicit false

namespace NativeCall

/-- The place of a level: a verbose one is above a normal one, and that is above a silent one. -/
def Verbosity.rank : Verbosity → Nat
  | silent => 0
  | normal => 1
  | verbose => 2

namespace Warnings

section Emit

variable (warnings : Warnings) (message : String)

private theorem emitIf_eq (shown : Bool) :
    (warnings.emitIf shown message).2 =
      { warnings with
        lines := warnings.lines ++ if shown then ["warning: " ++ message] else [] } := by
  cases shown with
  | true => rfl
  | false => exact congrArg (Warnings.mk _) (List.append_nil _).symm

theorem ordinary_eq :
    (warnings.ordinary message).2 =
      { warnings with
        lines := warnings.lines ++
          if warnings.level ≠ .silent then ["warning: " ++ message] else [] } := by
  rw [ordinary, emitIf_eq]
  cases warnings.level <;> rfl

theorem extra_eq :
    (warnings.extra message).2 =
      { warnings with
        lines := warnings.lines ++
          if warnings.level = .verbose then ["warning: " ++ message] else [] } := by
  rw [extra, emitIf_eq]
  cases warnings.level <;> rfl

end Emit

namespace Step

def answer (level : Verbosity) : Step → Option Bool
  | ordinary _ => some (level ≠ .silent)
  | extra _ => some (level = .verbose)
  | log _ => none
  | setLevel _ => none

def written : Step → Option Bool → List String
  | ordinary message, some true => ["warning: " ++ message]
  | extra message, some true => ["warning: " ++ message]
  | log message, none => ["[ruby] WARNING " ++ message]
  | _, _ => []

def level? : Step → Option Verbosity
  | setLevel level => some level
  | _ => none

private theorem answer_mono {level level' : Verbosity} (lower : level.rank ≤ level'.rank)
    {step : Step} (shown : step.answer level = some true) : step.answer level' = some true := by
  cases step with
  | ordinary message =>
    cases level' with
    | silent =>
      cases level with
      | silent => exact shown
      | _ => cases lower
    | _ => rfl
  | extra message =>
    cases level with
    | verbose =>
      cases level' with
      | verbose => rfl
      | _ => simp [Verbosity.rank] at lower
    | _ => cases shown
  | _ => cases shown

private theorem written_sublist {level level' : Verbosity} (lower : level.rank ≤ level'.rank)
    (step : Step) :
    (step.written (step.answer level)).Sublist (step.written (step.answer level')) := by
  by_cases shown : step.answer level = some true
  · rw [answer_mono lower shown, shown]
  · cases step with
    | ordinary message =>
      simp only [answer, Option.some.injEq, Bool.not_eq_true] at shown
      rw [answer, shown]
      exact List.nil_sublist _
    | extra message =>
      simp only [answer, Option.some.injEq, Bool.not_eq_true] at shown
      rw [answer, shown]
      exact List.nil_sublist _
    | log message => exact List.Sublist.refl _
    | setLevel next => exact List.Sublist.refl _

end Step

private theorem perform_eq (warnings : Warnings) (step : Step) :
    warnings.perform step =
      (step.answer warnings.level,
        { level := step.level?.getD warnings.level,
          lines := warnings.lines ++ step.written (step.answer warnings.level) }) := by
  cases step with
  | ordinary message =>
    have performed : warnings.perform (.ordinary message) =
        (some (warnings.ordinary message).1, (warnings.ordinary message).2) := rfl
    rw [performed, ordinary_eq]
    obtain ⟨level, lines⟩ := warnings
    cases level <;> rfl
  | extra message =>
    have performed : warnings.perform (.extra message) =
        (some (warnings.extra message).1, (warnings.extra message).2) := rfl
    rw [performed, extra_eq]
    obtain ⟨level, lines⟩ := warnings
    cases level <;> rfl
  | log message => rfl
  | setLevel level =>
    have kept : warnings.lines = warnings.lines ++ [] := (List.append_nil _).symm
    exact congrArg (fun lines => (none, Warnings.mk level lines)) kept

def after (warnings : Warnings) (steps : List Step) : Warnings :=
  ((warnings.run steps).getLast?.map Prod.snd).getD warnings

def inForce (start : Verbosity) (steps : List Step) : Verbosity :=
  (steps.filterMap Step.level?).getLast?.getD start

/-- The calls among some steps, each with the level in force at it. -/
def calls (level : Verbosity) : List Step → List (Verbosity × Step)
  | [] => []
  | .setLevel next :: steps => calls next steps
  | step :: steps => (level, step) :: calls level steps

/-- The lines that a history of steps and their answers has written. -/
def record (history : List (Step × Option Bool)) : List String :=
  history.flatMap fun (step, answer) => step.written answer

section Run

variable (warnings : Warnings) (step : Step) (steps earlier later : List Step)

theorem run_cons :
    warnings.run (step :: steps) =
      warnings.perform step :: (warnings.perform step).2.run steps := rfl

private theorem after_cons : warnings.after (step :: steps) =
    (warnings.perform step).2.after steps := by
  rw [after, run_cons, List.getLast?_cons, after]
  cases ((warnings.perform step).2.run steps).getLast? <;> rfl

private theorem after_append :
    warnings.after (earlier ++ later) = (warnings.after earlier).after later := by
  induction earlier generalizing warnings with
  | nil => rfl
  | cons step earlier ih => rw [List.cons_append, after_cons, ih, after_cons]

theorem run_append :
    warnings.run (earlier ++ later) =
      warnings.run earlier ++ (warnings.after earlier).run later := by
  induction earlier generalizing warnings with
  | nil => rfl
  | cons step earlier ih =>
    rw [List.cons_append, run_cons, ih, run_cons, after_cons, List.cons_append]

theorem length_run : (warnings.run steps).length = steps.length := by
  induction steps generalizing warnings with
  | nil => rfl
  | cons step steps ih => rw [run_cons, List.length_cons, ih, List.length_cons]

theorem getElem?_run :
    (warnings.run (earlier ++ step :: later))[earlier.length]? =
      some ((warnings.after earlier).perform step) := by
  rw [run_append, ← length_run warnings earlier,
    List.getElem?_append_right (Nat.le_refl _), Nat.sub_self, run_cons, List.getElem?_cons_zero]

theorem zip_run :
    earlier.zip ((warnings.run (earlier ++ later)).map Prod.fst) =
      earlier.zip ((warnings.run earlier).map Prod.fst) := by
  have lengths : earlier.length = ((warnings.run earlier).map Prod.fst).length := by
    rw [List.length_map, length_run]
  calc earlier.zip ((warnings.run (earlier ++ later)).map Prod.fst)
      = (earlier ++ []).zip ((warnings.run (earlier ++ later)).map Prod.fst) := by
        rw [List.append_nil]
    _ = earlier.zip ((warnings.run earlier).map Prod.fst) := by
        rw [run_append, List.map_append, List.zip_append lengths, List.zip_nil_left,
          List.append_nil]

private theorem inForce_cons (start : Verbosity) :
    inForce start (step :: steps) = inForce (step.level?.getD start) steps := by
  unfold inForce
  cases set : step.level? with
  | none => rw [List.filterMap_cons_none set, Option.getD_none]
  | some level =>
    rw [List.filterMap_cons_some set, List.getLast?_cons, Option.getD_some, Option.getD_some]

private theorem level_after : (warnings.after steps).level = inForce warnings.level steps := by
  induction steps generalizing warnings with
  | nil => rfl
  | cons step steps ih => rw [after_cons, ih, inForce_cons, perform_eq]

private theorem lines_after :
    (warnings.after steps).lines =
      warnings.lines ++ record (steps.zip ((warnings.run steps).map Prod.fst)) := by
  induction steps generalizing warnings with
  | nil => exact (List.append_nil _).symm
  | cons step steps ih =>
    rw [after_cons, ih, run_cons, List.map_cons, List.zip_cons_cons, record, record,
      List.flatMap_cons, perform_eq, List.append_assoc]

/-- What a run writes is settled by its calls and the levels in force at them. -/
theorem lines_after_eq_calls :
    (warnings.after steps).lines = warnings.lines ++
      (calls warnings.level steps).flatMap fun (level, step) => step.written (step.answer level) := by
  induction steps generalizing warnings with
  | nil => exact (List.append_nil _).symm
  | cons step steps ih =>
    rw [after_cons, ih, perform_eq]
    cases step with
    | setLevel level => exact congrArg (· ++ _) (List.append_nil warnings.lines)
    | _ => exact List.append_assoc _ _ _

private theorem lines_prefix_run : ∀ outcome ∈ warnings.run steps, warnings.lines <+:
    outcome.2.lines := by
  induction steps generalizing warnings with
  | nil => simp [run]
  | cons step steps ih =>
    have first : warnings.lines <+: (warnings.perform step).2.lines := by
      rw [perform_eq]
      exact List.prefix_append _ _
    rw [run_cons, List.forall_mem_cons]
    exact ⟨first, fun outcome member => first.trans (ih _ outcome member)⟩

private theorem pairwise_run :
    (warnings.run steps).Pairwise fun outcome next => outcome.2.lines <+: next.2.lines := by
  induction steps generalizing warnings with
  | nil => exact .nil
  | cons step steps ih =>
    rw [run_cons, List.pairwise_cons]
    exact ⟨lines_prefix_run _ steps, ih _⟩

end Run

/-- Calls are made at levels in force that are no higher than those of other calls. -/
def Quieter : List (Verbosity × Step) → List (Verbosity × Step) → Prop :=
  List.Forall₂ fun one other => one.1.rank ≤ other.1.rank ∧ one.2 = other.2

private theorem written_calls_sublist {fewer more : List (Verbosity × Step)}
    (quieter : Quieter fewer more) :
    (fewer.flatMap fun (level, step) => step.written (step.answer level)).Sublist
      (more.flatMap fun (level, step) => step.written (step.answer level)) := by
  induction quieter with
  | nil => exact .slnil
  | @cons one other fewer more first _ ih =>
    obtain ⟨level, step⟩ := one
    obtain ⟨level', step'⟩ := other
    obtain ⟨lower, rfl⟩ := first
    exact (Step.written_sublist lower step).append ih

/-- At any point of a run, a step answers by the level that was set last, and the lines so far are
those at the start and after them, in the order of the calls, one for every entry in the log and for
every warning that was answered to be shown. Lines once written stay. Another run that makes the
same calls at levels that are no higher writes some of the lines, in their order. -/
theorem run_gated (start : Warnings) :
    (∀ earlier step later,
      let outcomes := start.run (earlier ++ step :: later)
      ∃ answer now, outcomes[earlier.length]? = some (answer, now) ∧
        answer = step.answer (inForce start.level earlier) ∧
        now.lines = start.lines ++
          record ((earlier ++ [step]).zip (outcomes.map Prod.fst))) ∧
    (∀ steps, (start.run steps).Pairwise fun outcome next => outcome.2.lines <+: next.2.lines) ∧
    (∀ (quiet : Warnings) steps steps', quiet.lines.Sublist start.lines →
      Quieter (calls quiet.level steps') (calls start.level steps) →
      (quiet.after steps').lines.Sublist (start.after steps).lines) := by
  refine ⟨?_, pairwise_run start, ?_⟩
  · intro earlier step later outcomes
    have reached : outcomes[earlier.length]? = some ((start.after earlier).perform step) :=
      getElem?_run start step earlier later
    have answered : ((start.after earlier).perform step).1 =
        step.answer (inForce start.level earlier) := by
      rw [perform_eq, level_after]
    have history : (earlier ++ [step]).zip (outcomes.map Prod.fst) =
        (earlier ++ [step]).zip ((start.run (earlier ++ [step])).map Prod.fst) := by
      rw [← zip_run start (earlier ++ [step]) later, List.append_assoc, List.singleton_append]
    have written : ((start.after earlier).perform step).2.lines =
        start.lines ++ record ((earlier ++ [step]).zip (outcomes.map Prod.fst)) := by
      rw [history, ← lines_after, after_append]
      rfl
    exact ⟨_, _, reached, answered, written⟩
  · intro quiet steps steps' lines quieter
    rw [lines_after_eq_calls, lines_after_eq_calls]
    exact lines.append (written_calls_sublist quieter)

theorem run_gated_silenced :
    let quiet : Warnings := {}
    let loud : Warnings := { level := .silent }
    let steps : List Step := [.ordinary "a", .setLevel .silent, .extra "b", .log "c"]
    let steps' : List Step := [.setLevel .verbose, .ordinary "a", .extra "b", .log "c"]
    quiet.lines.Sublist loud.lines ∧
      Quieter (calls quiet.level steps) (calls loud.level steps') ∧
      (quiet.after steps).lines.Sublist (loud.after steps').lines := by
  intro quiet loud steps steps'
  have lines : quiet.lines.Sublist loud.lines := List.Sublist.refl []
  have quieter : Quieter (calls quiet.level steps) (calls loud.level steps') :=
    .cons ⟨by decide, rfl⟩ (.cons ⟨by decide, rfl⟩ (.cons ⟨by decide, rfl⟩ .nil))
  exact ⟨lines, quieter, (run_gated loud).2.2 quiet steps' steps lines quieter⟩

end Warnings

end NativeCall
