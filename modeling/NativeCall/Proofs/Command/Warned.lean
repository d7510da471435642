import NativeCall.Command.Report
import NativeCall.Proofs.Binding.Loops
import NativeCall.Proofs.Warnings.Gate

/-!
What the command warns about. The warnings are made from the shape, the number of arguments passed
and the number that counts as positional. `warn_reports` says that they tell of the binding what its
events tell: how many slots were dropped, and whether the keyword slot stayed empty.
-/

set_option autoImplicit false
set_option relaxedAutoImplicit false

namespace NativeCall

variable {σ V : Type}

def Event.isDropped : Event → Bool
  | slot _ _ stored => !stored
  | _ => false

namespace Binding

private theorem countP_slotEvents (first : Nat) (kinds : List SlotKind) :
    (slotEvents first kinds).countP Event.isDropped =
      first + kinds.length - maxOutputSlots - (first - maxOutputSlots) := by
  induction kinds generalizing first with
  | nil =>
    simp only [slotEvents, List.countP_nil, List.length_nil]
    omega
  | cons kind kinds ih =>
    rw [slotEvents, List.countP_cons, ih, List.length_cons]
    by_cases stored : first < maxOutputSlots
    · simp only [Event.isDropped, stored, decide_true, Bool.not_true, Bool.false_eq_true,
        ↓reduceIte]
      omega
    · simp only [Event.isDropped, stored, decide_false, Bool.not_false, ↓reduceIte]
      omega

private theorem not_mem_slotEvents (state : KeywordState) (first : Nat) (kinds : List SlotKind) :
    .keywords state ∉ slotEvents first kinds := by
  induction kinds generalizing first with
  | nil => exact List.not_mem_nil
  | cons kind kinds ih =>
    rw [slotEvents, List.mem_cons]
    rintro (same | later)
    · cases same
    · exact ih (first + 1) later

section Bound

variable {host : Host σ V} {format : Format} {args : List V} {s : σ} {output : Output V}

/-- A binding has noted the state of the keyword slot, and then every slot. -/
theorem events_of_ok (bound : ((bindArgs host format args).run s).1.result = .ok output) :
    ((bindArgs host format args).run s).1.events =
      .keywords ((KeywordState.resolve host format args).run s).1 ::
        slotEvents 0 format.slots := by
  have enough := ((ok_iff host format args s).1 ⟨output, bound⟩).1
  rw [run_bindArgs host format args s enough]

private theorem resolve_eq_erased_iff
    (bound : ((bindArgs host format args).run s).1.result = .ok output) :
    ((KeywordState.resolve host format args).run s).1 = .erased ↔
      format.keywords = true ∧ output.argc = args.length := by
  have count := (of_ok host format args s bound).1
  have possible := KeywordState.resolve_possible host format args s
  rcases resolve_cases host format args s with ⟨pending, -, passed⟩ | ⟨other, passed⟩
  · rw [pending]
    constructor
    · intro erased
      cases erased
    · rintro ⟨-, all⟩
      omega
  · rw [count, ← passed]
    generalize ((KeywordState.resolve host format args).run s).1 = state at possible other
    cases possible with
    | notAccepted closed => simp [closed]
    | pending => exact absurd rfl other
    | erased accepts => simp [accepts]

end Bound

end Binding

namespace Command

/-- Of the two warnings, that of dropped slots comes first. -/
theorem warn_eq (format : Format) (output : Output Object) (passed : Nat) (warnings : Warnings) :
    warn format output passed warnings =
      { warnings with
        lines := warnings.lines
          ++ (if warnings.level ≠ .silent ∧ 0 < droppedSlots format then
              ["warning: " ++ droppedMessage format] else [])
          ++ (if warnings.level = .verbose ∧ format.keywords = true ∧ output.argc = passed then
              ["warning: " ++ noKeywordsMessage format] else []) } := by
  have first : (if 0 < droppedSlots format then (warnings.ordinary (droppedMessage format)).2
        else warnings) =
      { warnings with
        lines := warnings.lines ++ if warnings.level ≠ .silent ∧ 0 < droppedSlots format then
          ["warning: " ++ droppedMessage format] else [] } := by
    by_cases some : 0 < droppedSlots format
    · simp only [some, ↓reduceIte, and_true, Warnings.ordinary_eq]
    · simp only [some, ↓reduceIte, and_false, List.append_nil]
  have empty : (format.keywords && output.argc == passed) = true ↔
      format.keywords = true ∧ output.argc = passed := by
    rw [Bool.and_eq_true, beq_iff_eq]
  unfold warn
  rw [first]
  dsimp only
  by_cases all : format.keywords = true ∧ output.argc = passed
  · rw [if_pos (empty.2 all), Warnings.extra_eq]
    simp only [all, and_self, and_true]
  · have hidden : ¬ (warnings.level = .verbose ∧ format.keywords = true ∧ output.argc = passed) :=
      fun shown => all shown.2
    rw [if_neg (mt empty.1 all), if_neg hidden, List.append_nil]

open Text in
/-- The command warns of dropped slots when the events of the binding tell of some, and as many as
they tell of. It warns of an empty keyword slot when the state that the binding noted is erased. -/
theorem warn_reports {host : Host σ Object} {format : Format} {args : List Object} {s : σ}
    {output : Output Object}
    (bound : ((bindArgs host format args).run s).1.result = .ok output) (warnings : Warnings) :
    let events := ((bindArgs host format args).run s).1.events
    let dropped := events.countP Event.isDropped
    (∀ state, .keywords state ∈ events ↔
      state = ((KeywordState.resolve host format args).run s).1) ∧
    warn format output args.length warnings =
      { warnings with
        lines := warnings.lines
          ++ (if warnings.level ≠ .silent ∧ 0 < dropped then
              ["warning: " ++ ("format " ++ format.render ++ " describes "
                ++ Decimal.text format.slotCount ++ " slots; the last " ++ Decimal.text dropped
                ++ " were dropped")]
            else [])
          ++ (if warnings.level = .verbose ∧ .keywords .erased ∈ events then
              ["warning: " ++ ("no keyword hash passed to " ++ format.render
                ++ "; keyword slot is nil")]
            else []) } := by
  intro events dropped
  have noted : events = .keywords ((KeywordState.resolve host format args).run s).1 ::
      Binding.slotEvents 0 format.slots := Binding.events_of_ok bound
  have once (state : KeywordState) : .keywords state ∈ events ↔
      state = ((KeywordState.resolve host format args).run s).1 := by
    rw [noted, List.mem_cons, Event.keywords.injEq]
    exact or_iff_left (Binding.not_mem_slotEvents state 0 format.slots)
  have count : droppedSlots format = dropped := by
    simp only [dropped, noted, List.countP_cons, Binding.countP_slotEvents, Event.isDropped,
      format.length_slots, droppedSlots, Nat.zero_add, Nat.zero_sub, Nat.sub_zero,
      Bool.false_eq_true, ↓reduceIte, Nat.add_zero]
  have erased : .keywords .erased ∈ events ↔
      format.keywords = true ∧ output.argc = args.length := by
    rw [once, eq_comm, Binding.resolve_eq_erased_iff bound]
  refine ⟨once, ?_⟩
  simp only [erased, ← count]
  exact warn_eq format output args.length warnings

theorem warn_reports_both :
    let host := Object.host none
    let format : Format := ⟨9, 2, false, 0, true, false⟩
    let args : List Object := List.replicate 11 (.int 5)
    let binding := ((bindArgs host format args).run ()).1
    ∃ output, binding.result = .ok output ∧ binding.events.countP Event.isDropped = 2 ∧
      .keywords .erased ∈ binding.events ∧
      (warn format output args.length { level := .verbose }).lines = [
        "warning: format 92: describes 12 slots; the last 2 were dropped",
        "warning: no keyword hash passed to 92:; keyword slot is nil"] := by
  intro host format args binding
  have bound : binding.result =
      .ok (.store (format.slots.zip (args ++ [.nil])) 11) := rfl
  have lines := congrArg Warnings.lines (warn_reports bound { level := .verbose }).2
  have dropped : binding.events.countP Event.isDropped = 2 := rfl
  have erased : .keywords .erased ∈ binding.events := .head _
  refine ⟨_, bound, dropped, erased, ?_⟩
  rw [lines]
  decide

-- a final nil that fills the keyword slot is no reason to warn
example :
    (inspectScan (.plain Silent.mk) none "1:" [.int 1, .nil]
      { level := .verbose }).warnings.lines = [] := by decide

end Command

end NativeCall
