import Mathlib.Logic.Function.Basic
import NativeCall.Global

/-!
The globals of a runtime are cells that do not touch each other. Each holds what was last put into
it, or what it was configured with, and only the separators of a runtime that can be assigned are
ever changed: `Globals.run_cells`.
-/

set_option autoImplicit false
set_option relaxedAutoImplicit false

namespace NativeCall

/-- The globals that cannot be assigned: the streams and the default record separator. -/
def Global.fixed : List Global :=
  [stdin, stdout, stderr, defaultRecordSeparator]

namespace Globals

/-- What a global holds: a stream by its descriptor, or a text that may be absent. -/
inductive Cell where
  | stream (descriptor : Int32)
  | text (content : Option String)

def Cell.value : Cell → Object
  | stream descriptor => .io descriptor
  | text none => .nil
  | text (some content) => .string content

def cells (globals : Globals) : Global → Cell
  | .stdin => .stream globals.stdin
  | .stdout => .stream globals.stdout
  | .stderr => .stream globals.stderr
  | .fieldSeparator => .text globals.fieldSeparator
  | .outputFieldSeparator => .text globals.outputFieldSeparator
  | .recordSeparator => .text globals.recordSeparator
  | .outputRecordSeparator => .text globals.outputRecordSeparator
  | .defaultRecordSeparator => .text (some globals.defaultRecordSeparator)

theorem resolve_eq (globals : Globals) (global : Global) :
    globals.resolve global = (globals.cells global).value := by
  have separator_eq (content : Option String) : separator content = (Cell.text content).value := by
    cases content <;> rfl
  cases global with
  | fieldSeparator => exact separator_eq _
  | outputFieldSeparator => exact separator_eq _
  | recordSeparator => exact separator_eq _
  | outputRecordSeparator => exact separator_eq _
  | _ => rfl

private theorem assign_cases (globals : Globals) (global : Global) (content : Option String) :
    (global ∈ Global.fixed ∧ globals.assign global content = (false, globals)) ∨
    (global ∉ Global.fixed ∧ ∃ changed, globals.assign global content = (true, changed) ∧
      changed.cells = Function.update globals.cells global (.text content)) := by
  cases global with
  | stdin => exact .inl ⟨by decide, rfl⟩
  | stdout => exact .inl ⟨by decide, rfl⟩
  | stderr => exact .inl ⟨by decide, rfl⟩
  | defaultRecordSeparator => exact .inl ⟨by decide, rfl⟩
  | _ =>
    refine .inr ⟨by decide, _, rfl, ?_⟩
    funext other
    cases other <;> rfl

/-- What a step and its answer put into a global. -/
def put (global : Global) : Step × Answer → Option (Option String)
  | (.assign assigned content, .assigned true) => if assigned = global then some content else none
  | _ => none

/-- What was put into a global last. -/
def latest (global : Global) (history : List (Step × Answer)) : Option (Option String) :=
  (history.filterMap (put global)).getLast?

def holds (start : Global → Cell) (history : List (Step × Answer)) (global : Global) : Cell :=
  ((latest global history).map Cell.text).getD (start global)

private theorem latest_cons (global : Global) (event : Step × Answer)
    (history : List (Step × Answer)) :
    latest global (event :: history) = (latest global history).or (put global event) := by
  unfold latest
  cases added : put global event with
  | none => rw [List.filterMap_cons_none added, Option.or_none]
  | some content =>
    rw [List.filterMap_cons_some added, List.getLast?_cons]
    cases (history.filterMap (put global)).getLast? <;> rfl

private theorem holds_cons (start : Global → Cell) (event : Step × Answer)
    (history : List (Step × Answer)) :
    holds start (event :: history) = holds (holds start [event]) history := by
  funext global
  rw [holds, latest_cons, holds, holds, latest_cons]
  cases latest global history <;> rfl

private theorem cells_perform (globals : Globals) (step : Step) :
    (globals.perform step).2.cells = holds globals.cells [(step, (globals.perform step).1)] := by
  funext global
  cases step with
  | resolve read => rfl
  | assign assigned content =>
    rw [perform]
    rcases assign_cases globals assigned content with ⟨-, refused⟩ | ⟨-, changed, accepted, cells⟩
    · rw [refused]
      rfl
    · rw [accepted]
      dsimp only
      rw [cells, holds, latest_cons]
      by_cases same : assigned = global
      · subst same
        rw [Function.update_self, put, if_pos rfl]
        rfl
      · rw [Function.update_of_ne (Ne.symm same), put, if_neg same]
        rfl

section Run

variable (globals : Globals) (step : Step) (steps earlier later : List Step)

theorem run_cons :
    globals.run (step :: steps) =
      ((globals.perform step).1 :: ((globals.perform step).2.run steps).1,
        ((globals.perform step).2.run steps).2) := rfl

theorem run_append :
    globals.run (earlier ++ later) =
      ((globals.run earlier).1 ++ ((globals.run earlier).2.run later).1,
        ((globals.run earlier).2.run later).2) := by
  induction earlier generalizing globals with
  | nil => rfl
  | cons step earlier ih => rw [List.cons_append, run_cons, ih, run_cons, List.cons_append]

theorem length_run : (globals.run steps).1.length = steps.length := by
  induction steps generalizing globals with
  | nil => rfl
  | cons step steps ih => rw [run_cons, List.length_cons, ih, List.length_cons]

theorem getElem?_run :
    (globals.run (earlier ++ step :: later)).1[earlier.length]? =
      some ((globals.run earlier).2.perform step).1 := by
  rw [run_append, ← length_run globals earlier,
    List.getElem?_append_right (Nat.le_refl _), Nat.sub_self, run_cons, List.getElem?_cons_zero]

/-- The answers to the steps so far do not depend on the steps to come. -/
theorem zip_run :
    earlier.zip (globals.run (earlier ++ later)).1 = earlier.zip (globals.run earlier).1 := by
  calc earlier.zip (globals.run (earlier ++ later)).1
      = (earlier ++ []).zip (globals.run (earlier ++ later)).1 := by rw [List.append_nil]
    _ = earlier.zip (globals.run earlier).1 := by
        rw [run_append, List.zip_append (length_run globals earlier).symm, List.zip_nil_left,
          List.append_nil]

/-- After a run, each cell holds what the run put into it last. -/
theorem cells_run :
    (globals.run steps).2.cells = holds globals.cells (steps.zip (globals.run steps).1) := by
  induction steps generalizing globals with
  | nil => rfl
  | cons step steps ih =>
    rw [run_cons, List.zip_cons_cons, holds_cons, ih, cells_perform]

end Run

/-- At any point of a run, a global reads as what was last put into it with success, or as it was
configured, and reading changes nothing. An assignment is refused exactly for the streams and the
default record separator, and then it changes nothing; it never changes what another global reads
as. -/
theorem run_cells (initial : Globals) (earlier : List Step) (step : Step) (later : List Step) :
    let answers := (initial.run (earlier ++ step :: later)).1
    let before := (initial.run earlier).2
    let after := (initial.run (earlier ++ [step])).2
    ∃ answer, answers[earlier.length]? = some answer ∧
      match step with
      | .resolve global =>
        answer = .value (holds initial.cells (earlier.zip answers) global).value ∧ after = before
      | .assign global _ =>
        ∃ accepted, answer = .assigned accepted ∧ (accepted = false ↔ global ∈ Global.fixed) ∧
          (accepted = false → after = before) ∧
          ∀ other, other ≠ global → after.resolve other = before.resolve other := by
  intro answers before after
  have performed : after = (before.perform step).2 := by
    simp only [after, run_append, run_cons]
    rfl
  have reached : answers[earlier.length]? = some (before.perform step).1 :=
    getElem?_run initial step earlier later
  have history : earlier.zip answers = earlier.zip (initial.run earlier).1 :=
    zip_run initial earlier (step :: later)
  refine ⟨_, reached, ?_⟩
  cases step with
  | resolve global =>
    dsimp only
    rw [history, ← cells_run, ← resolve_eq]
    exact ⟨rfl, performed⟩
  | assign global content =>
    dsimp only
    rw [performed, perform]
    rcases assign_cases before global content with
      ⟨fixed, refused⟩ | ⟨free, changed, accepted, cells⟩
    · rw [refused]
      exact ⟨false, rfl, by simp [fixed], fun _ => rfl, fun _ _ => rfl⟩
    · rw [accepted]
      refine ⟨true, rfl, by simp [free], by simp, fun other apart => ?_⟩
      rw [resolve_eq, resolve_eq, cells, Function.update_of_ne apart]

theorem run_cells_record_separator :
    let initial : Globals := {}
    let earlier : List Step := [.assign .recordSeparator (some "\r\n"),
      .assign .defaultRecordSeparator none, .assign .fieldSeparator none]
    let reads (global : Global) := (initial.run (earlier ++ [.resolve global])).1[3]?
    let reassigned := (initial.run (earlier ++ [.assign .recordSeparator none])).2
    reads .recordSeparator = some (.value (.string "\r\n")) ∧
      reads .defaultRecordSeparator = some (.value (.string "\n")) ∧
      reads .fieldSeparator = some (.value .nil) ∧ reads .stdout = some (.value (.io 1)) ∧
      .defaultRecordSeparator ≠ Global.recordSeparator ∧
      reassigned.resolve .defaultRecordSeparator =
        (initial.run earlier).2.resolve .defaultRecordSeparator := by
  intro initial earlier reads reassigned
  have read (global : Global) : reads global =
      some (.value (holds initial.cells
        (earlier.zip (initial.run (earlier ++ [.resolve global])).1) global).value) := by
    obtain ⟨answer, reached, same, -⟩ := run_cells initial earlier (.resolve global) []
    rw [← same]
    exact reached
  have apart : Global.defaultRecordSeparator ≠ .recordSeparator := by decide
  obtain ⟨-, -, -, -, -, -, kept⟩ := run_cells initial earlier (.assign .recordSeparator none) []
  rw [read, read, read, read]
  exact ⟨rfl, rfl, rfl, rfl, apart, kept _ apart⟩

end Globals

end NativeCall
