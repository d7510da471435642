import NativeCall.Proofs.Binding.KeywordSlot
import NativeCall.Proofs.Binding.Loops

/-!
What a binding depends on. Its shadow is what can be seen of it without looking into the values: the
verdict, the number of positional arguments, the kinds of the stored slots, and the events. The
shadow is foreseen from the shape, the number of arguments and the keyword state, and the keyword
state from two answers of the host about the last argument. `bindArgs_shadow_eq` draws the
conclusion for two calls.
-/

set_option autoImplicit false
set_option relaxedAutoImplicit false

namespace NativeCall

variable {σ V : Type}

namespace Binding

/-- A verdict without the values of its slots, and the events before it. -/
abbrev Shadow :=
  Except ScanError (Nat × List SlotKind) × List Event

def shadow (binding : Binding V) : Shadow :=
  (binding.result.map fun output => (output.argc, output.kinds), binding.events)

def foreseen (format : Format) (count : Nat) (state : KeywordState) : Shadow :=
  if count < format.minArgs then (.error (wrongCount format count), [])
  else
    let plan := Plan.make format count (state == .pending)
    (if plan.surplus then .error (wrongCount format plan.argc)
      else .ok (plan.argc, format.slots.take maxOutputSlots),
      .keywords state :: slotEvents 0 format.slots)

private theorem kinds_store (kinds : List SlotKind) (values : List V) (argc : Nat)
    (same : values.length = kinds.length) :
    (Output.store (kinds.zip values) argc).kinds = kinds.take maxOutputSlots := by
  rw [Output.kinds, Output.store, List.map_take, List.map_fst_zip (Nat.le_of_eq same.symm)]

private theorem shadow_bindArgs (host : Host σ V) (format : Format) (args : List V) (s : σ) :
    shadow ((bindArgs host format args).run s).1 =
      foreseen format args.length ((KeywordState.resolve host format args).run s).1 := by
  by_cases few : args.length < format.minArgs
  · rw [bindArgs_few host format args few, foreseen, if_pos few]
    rfl
  · let plan := Plan.make format args.length (isPending host format args s)
    have kinds := kinds_store format.slots (planned host format args s).1 plan.argc
      (length_planned host format args s)
    have result : (verdict format plan (planned host format args s).1).map
          (fun output => (output.argc, output.kinds)) =
        if plan.surplus then .error (wrongCount format plan.argc)
        else .ok (plan.argc, format.slots.take maxOutputSlots) := by
      rw [verdict]
      split
      · rfl
      · rw [Except.map, kinds]
        rfl
    rw [run_bindArgs host format args s (Nat.not_lt.1 few), foreseen, if_neg few]
    exact congrArg (·, _) result

end Binding

namespace KeywordState

/-- The argument that the host is asked about: the last one, if there is a keyword slot and no
mandatory slot needs it. -/
def inQuestion (format : Format) (args : List V) : Option V :=
  if format.keywords = true ∧ format.minArgs < args.length then args.getLast? else none

private theorem resolve_eq_match (host : Host σ V) (format : Format) (args : List V) :
    resolve host format args = match inQuestion format args with
      | some last => classify host format args.length last
      | none => pure (if format.keywords then erased else notAccepted) := by
  unfold resolve inQuestion
  cases format.keywords with
  | false => rfl
  | true =>
    by_cases few : args.length ≤ format.minArgs
    · simp only [few, Nat.not_lt.2 few, and_false, Bool.not_true, Bool.false_eq_true, ↓reduceIte]
    · simp only [few, Nat.not_le.1 few, and_self, Bool.not_true, Bool.false_eq_true, ↓reduceIte]
      cases args.getLast? <;> rfl

def decided (format : Format) (count : Nat) : Bool × Bool → KeywordState
  | (true, _) => if fitsPositionally format count then erased else pending
  | (false, true) => pending
  | (false, false) => erased

end KeywordState

/-- What a host answers about a value: whether it is nil, and whether it can stand for keywords. -/
def Host.answers (host : Host σ V) (s : σ) (v : V) : Bool × Bool :=
  (((host.isNil v).run s).1, ((host.isKeywordLike v true).run s).1)

theorem Host.Steady.classify_eq {host : Host σ V} (steady : host.Steady) (format : Format)
    (count : Nat) (last : V) (s r : σ) :
    ((KeywordState.classify host format count last).run s).1 =
      .decided format count (host.answers r last) := by
  have nil := steady.isNil last s r
  have like := steady.isKeywordLike last true ((host.isNil last).run s).2 r
  rw [KeywordState.classify, run_seq, Host.answers, ← nil, ← like]
  cases ((host.isNil last).run s).1 with
  | true => rfl
  | false =>
    rw [if_neg Bool.false_ne_true, run_seq]
    cases ((host.isKeywordLike last true).run ((host.isNil last).run s).2).1 <;> rfl

theorem Host.Steady.resolve_eq {host : Host σ V} (steady : host.Steady) (format : Format)
    (args : List V) (s r : σ) :
    ((KeywordState.resolve host format args).run s).1 =
      match (KeywordState.inQuestion format args).map (host.answers r) with
      | some answers => .decided format args.length answers
      | none => if format.keywords then .erased else .notAccepted := by
  rw [KeywordState.resolve_eq_match]
  cases KeywordState.inQuestion format args with
  | none => rfl
  | some last => exact steady.classify_eq format args.length last s r

/-- Binding looks at values only through two answers about the last one, and through none where no
keyword hash is possible: calls that agree on these differ only in the values of their slots. -/
theorem bindArgs_shadow_eq (host : Host σ V) (format : Format) (args others : List V)
    (same : args.length = others.length) (s t r : σ) :
    let shadow (args : List V) (s : σ) := ((bindArgs host format args).run s).1.shadow
    (host.Steady → args.getLast?.map (host.answers r) = others.getLast?.map (host.answers r) →
      shadow args s = shadow others t) ∧
    (format.keywords = false ∨ args.length ≤ format.minArgs → shadow args s = shadow others t) := by
  refine ⟨fun steady alike => ?_, fun unasked => ?_⟩
  · have questions : (KeywordState.inQuestion format args).map (host.answers r) =
        (KeywordState.inQuestion format others).map (host.answers r) := by
      simp only [KeywordState.inQuestion, same]
      split
      · exact alike
      · rfl
    simp only [Binding.shadow_bindArgs, steady.resolve_eq format _ _ r, same, questions]
  · have nothing (values : List V) (length : values.length = args.length) :
        KeywordState.inQuestion format values = none := by
      refine if_neg ?_
      rintro ⟨accepts, more⟩
      rcases unasked with closed | few
      · exact Bool.false_ne_true (closed.symm.trans accepts)
      · omega
    simp only [Binding.shadow_bindArgs, KeywordState.resolve_eq_match, nothing args rfl,
      nothing others same.symm, run_pure, same]

theorem bindArgs_shadow_eq_reference_host :
    let host := Object.host none
    let format : Format := ⟨1, 0, false, 0, true, false⟩
    let args : List Object := [.nil, .hash [(.symbol "key", .int 1)]]
    let others : List Object := [.hash [(.symbol "key", .nil)], .hash [(.symbol "other", .array [])]]
    host.Steady ∧
      args.getLast?.map (host.answers ()) = others.getLast?.map (host.answers ()) ∧
      format.plain.keywords = false ∧
      ((bindArgs host format args).run ()).1.shadow =
        ((bindArgs host format others).run ()).1.shadow ∧
      ((bindArgs host format.plain args).run ()).1.shadow =
        ((bindArgs host format.plain others).run ()).1.shadow := by
  intro host format args others
  have steady : host.Steady := Object.host_steady none
  have alike : args.getLast?.map (host.answers ()) = others.getLast?.map (host.answers ()) := rfl
  exact ⟨steady, alike, rfl,
    (bindArgs_shadow_eq host format args others rfl () () ()).1 steady alike,
    (bindArgs_shadow_eq host format.plain args others rfl () () ()).2 (.inl rfl)⟩

end NativeCall
