import NativeCall.Object.Host
import NativeCall.Proofs.Binding.Slicing

/-!
When arguments are accepted, and what a binding then holds. `Binding.verdict_cases` says which of
three ways a call goes: too few arguments, too many, or a binding. `bindArgs_arity` puts this as one
verdict whose errors are true of the bounds that they report, and `bindArgs_slices` says that the
slots of a binding are slices of the arguments.
-/

set_option autoImplicit false
set_option relaxedAutoImplicit false

namespace NativeCall

variable {σ V : Type}

namespace Format

theorem maxArgs_eq_some_iff (format : Format) (max : Nat) :
    format.maxArgs = some max ↔
      format.rest = false ∧ format.minArgs + format.optional.toNat = max := by
  cases hrest : format.rest with
  | true => simp only [maxArgs, hrest, ↓reduceIte, reduceCtorEq, Bool.true_eq_false, false_and]
  | false => simp only [maxArgs, hrest, Bool.false_eq_true, ↓reduceIte, Option.some.injEq, true_and]

end Format

open Binding in
/-- Binding that keeps the slots past the limit as well: the slots with the number of positional
arguments, or why the arguments do not fit. -/
def bindAll (host : Host σ V) (format : Format) (args : List V) :
    StateM σ (Except ScanError (List (SlotKind × V) × Nat)) := do
  if args.length < format.minArgs then
    return .error (wrongCount format args.length)
  let state ← KeywordState.resolve host format args
  let plan := Plan.make format args.length (state == .pending)
  let values ← plan.sources.mapM (Source.value host args)
  return if plan.surplus then .error (wrongCount format plan.argc)
    else .ok (format.slots.zip values, plan.argc)

namespace Binding

variable (host : Host σ V) (format : Format) (args : List V) (s : σ)

def stored (result : Except ScanError (List (SlotKind × V) × Nat)) : Except ScanError (Output V) :=
  result.map fun (slots, argc) => .store slots argc

/-- Binding stores the first slots of all, and otherwise does the same. -/
theorem map_result_bindArgs :
    result <$> bindArgs host format args = stored <$> bindAll host format args := by
  by_cases few : args.length < format.minArgs
  · simp only [bindArgs, bindAll, few, ↓reduceIte, map_pure]
    rfl
  · simp only [bindArgs, bindAll, few, ↓reduceIte, map_bind, map_pure, verdict]
    refine bind_congr fun state => bind_congr fun values => congrArg pure ?_
    split <;> rfl

theorem bindAll_few (few : args.length < format.minArgs) :
    bindAll host format args = pure (.error (wrongCount format args.length)) := by
  simp only [bindAll, few, ↓reduceIte]

def isPending : Bool :=
  ((KeywordState.resolve host format args).run s).1 == .pending

def positionalCount : Nat :=
  args.length - (isPending host format args s).toNat

/-- The keyword hash needs a slot of its own, and is never an argument that a mandatory slot
needs. -/
theorem of_isPending (pending : isPending host format args s = true) :
    format.keywords = true ∧ format.minArgs < args.length := by
  simp only [isPending, KeywordState.resolve, beq_iff_eq] at pending
  cases accepted : format.keywords with
  | false =>
    simp only [accepted, Bool.not_false, ↓reduceIte] at pending
    cases pending
  | true =>
    simp only [accepted, Bool.not_true, Bool.false_eq_true, ↓reduceIte] at pending
    split at pending
    · cases pending
    · exact ⟨rfl, by omega⟩

theorem minArgs_le_positionalCount (enough : format.minArgs ≤ args.length) :
    format.minArgs ≤ positionalCount host format args s := by
  simp only [positionalCount]
  cases pending : isPending host format args s with
  | false => simpa using enough
  | true =>
    have := (of_isPending host format args s pending).2
    simp only [Bool.toNat_true]
    omega

theorem length_eq :
    args.length = positionalCount host format args s + (isPending host format args s).toNat := by
  simp only [positionalCount]
  cases pending : isPending host format args s with
  | false => rfl
  | true =>
    have := (of_isPending host format args s pending).2
    simp only [Bool.toNat_true]
    omega

theorem positionalCount_of_isPending (pending : isPending host format args s = true) :
    positionalCount host format args s = args.length - 1 := by
  rw [positionalCount, pending]
  rfl

theorem make_eq (enough : format.minArgs ≤ args.length) :
    Plan.make format args.length (isPending host format args s) =
      ⟨Plan.layout format (positionalCount host format args s) (isPending host format args s),
        format.trailingStart (positionalCount host format args s) + format.trailing.toNat,
        positionalCount host format args s⟩ := by
  rw [← Plan.make_eq format _ _ (minArgs_le_positionalCount host format args s enough),
    ← length_eq host format args s]

private theorem surplus_iff (enough : format.minArgs ≤ args.length) :
    (Plan.make format args.length (isPending host format args s)).surplus = true ↔
      format.rest = false ∧
        format.minArgs + format.optional.toNat < positionalCount host format args s := by
  rw [← Plan.surplus_make_iff format _ (isPending host format args s)
    (minArgs_le_positionalCount host format args s enough), ← length_eq host format args s]

private theorem run_bindAll (enough : format.minArgs ≤ args.length) :
    (bindAll host format args).run s =
      let plan := Plan.make format args.length (isPending host format args s)
      let values := (plan.sources.mapM (Source.value host args)).run
        ((KeywordState.resolve host format args).run s).2
      (if plan.surplus then .error (wrongCount format (positionalCount host format args s))
        else .ok (format.slots.zip values.1, positionalCount host format args s), values.2) := by
  simp only [bindAll, Nat.not_lt.2 enough, ↓reduceIte, run_seq]
  rfl

theorem run_bindArgs (enough : format.minArgs ≤ args.length) :
    (bindArgs host format args).run s =
      let plan := Plan.make format args.length (isPending host format args s)
      let resolved := (KeywordState.resolve host format args).run s
      let values := (plan.sources.mapM (Source.value host args)).run resolved.2
      (⟨verdict format plan values.1, .keywords resolved.1 :: slotEvents 0 format.slots⟩,
        values.2) := by
  simp only [bindArgs, Nat.not_lt.2 enough, ↓reduceIte, run_seq]
  rfl

theorem bindArgs_few (few : args.length < format.minArgs) :
    bindArgs host format args = pure ⟨.error (wrongCount format args.length), []⟩ := by
  simp only [bindArgs, few, ↓reduceIte]

theorem run_bindAll_fits (enough : format.minArgs ≤ args.length)
    (fits : format.rest = true ∨
      positionalCount host format args s ≤ format.minArgs + format.optional.toNat) :
    (bindAll host format args).run s =
      let argc := positionalCount host format args s
      let filled := (fillSlots host (format.slicing args argc)).run
        ((KeywordState.resolve host format args).run s).2
      (.ok (filled.1, argc), filled.2) := by
  have least := minArgs_le_positionalCount host format args s enough
  have passed := length_eq host format args s
  have full : (Plan.make format args.length (isPending host format args s)).surplus = false := by
    rw [← Bool.not_eq_true, surplus_iff host format args s enough]
    rintro ⟨closed, more⟩
    simp only [closed, Bool.false_eq_true, false_or] at fits
    omega
  rw [make_eq host format args s enough] at full
  -- there are as many sources as slots, so that no value is dropped when they are put together
  have length := Plan.length_sources format args.length (isPending host format args s)
  rw [make_eq host format args s enough, ← Format.length_slots,
    ← List.length_map (Source.filling args)] at length
  have filled := fillSlots_zip host _ _ length.symm
  rw [format.zip_layout args _ _ passed least fits] at filled
  simp only [run_bindAll host format args s enough, full, Bool.false_eq_true, ↓reduceIte,
    make_eq host format args s enough, Source.mapM_value, filled, run_map]

theorem run_bindAll_surplus (enough : format.minArgs ≤ args.length) (closed : format.rest = false)
    (more : format.minArgs + format.optional.toNat < positionalCount host format args s) :
    ((bindAll host format args).run s).1 =
      .error (wrongCount format (positionalCount host format args s)) := by
  have surplus := (surplus_iff host format args s enough).2 ⟨closed, more⟩
  rw [run_bindAll host format args s enough]
  simp only [surplus, ↓reduceIte]

theorem result_bindArgs :
    ((bindArgs host format args).run s).1.result = stored ((bindAll host format args).run s).1 :=
  congrArg Prod.fst (congrArg (fun step => step.run s) (map_result_bindArgs host format args))

/-- The argument that is not counted as positional is the keyword hash. -/
theorem resolve_cases :
    (((KeywordState.resolve host format args).run s).1 = .pending ∧ format.keywords = true ∧
      args.length = positionalCount host format args s + 1) ∨
    (((KeywordState.resolve host format args).run s).1 ≠ .pending ∧
      args.length = positionalCount host format args s) := by
  have passed := length_eq host format args s
  cases pending : isPending host format args s with
  | true =>
    rw [pending] at passed
    exact .inl ⟨beq_iff_eq.1 pending, (of_isPending host format args s pending).1, passed⟩
  | false =>
    rw [pending] at passed
    refine .inr ⟨fun resolved => ?_, passed⟩
    exact Bool.false_ne_true (pending.symm.trans (beq_iff_eq.2 resolved))

private theorem positionalCount_eq :
    positionalCount host format args s =
      if ((KeywordState.resolve host format args).run s).1 = .pending then args.length - 1
      else args.length := by
  rcases resolve_cases host format args s with ⟨pending, -, passed⟩ | ⟨other, passed⟩
  · rw [if_pos pending]
    omega
  · rw [if_neg other, passed]

theorem verdict_cases :
    (args.length < format.minArgs ∧
      ((bindArgs host format args).run s).1.result = .error (wrongCount format args.length)) ∨
    (format.minArgs ≤ args.length ∧ format.rest = false ∧
      format.minArgs + format.optional.toNat < positionalCount host format args s ∧
      ((bindArgs host format args).run s).1.result =
        .error (wrongCount format (positionalCount host format args s))) ∨
    (format.minArgs ≤ args.length ∧
      (format.rest = true ∨
        positionalCount host format args s ≤ format.minArgs + format.optional.toNat) ∧
      ∃ output, ((bindArgs host format args).run s).1.result = .ok output ∧
        output.argc = positionalCount host format args s) := by
  rw [result_bindArgs host format args s]
  by_cases few : args.length < format.minArgs
  · rw [bindAll_few host format args few]
    exact .inl ⟨few, rfl⟩
  · have enough := Nat.not_lt.1 few
    by_cases fits : format.rest = true ∨
        positionalCount host format args s ≤ format.minArgs + format.optional.toNat
    · rw [run_bindAll_fits host format args s enough fits]
      exact .inr (.inr ⟨enough, fits, _, rfl, rfl⟩)
    · rw [not_or, Bool.not_eq_true, Nat.not_le] at fits
      rw [run_bindAll_surplus host format args s enough fits.1 fits.2]
      exact .inr (.inl ⟨enough, fits.1, fits.2, rfl⟩)

theorem ok_iff :
    (∃ output, ((bindArgs host format args).run s).1.result = .ok output) ↔
      format.minArgs ≤ args.length ∧ (format.rest = true ∨
        positionalCount host format args s ≤ format.minArgs + format.optional.toNat) := by
  rcases verdict_cases host format args s with
    ⟨few, failed⟩ | ⟨enough, closed, more, failed⟩ | ⟨enough, fits, output, holds, -⟩
  · simp only [failed, reduceCtorEq, exists_false, false_iff, not_and]
    omega
  · simp only [failed, reduceCtorEq, exists_false, false_iff, not_and, closed, Bool.false_eq_true,
      false_or]
    omega
  · exact ⟨fun _ => ⟨enough, fits⟩, fun _ => ⟨output, holds⟩⟩

/-- The number that an error reports lies outside the bounds of the shape. -/
theorem of_error {e : ScanError}
    (failed : ((bindArgs host format args).run s).1.result = .error e) :
    ∃ actual, e = wrongCount format actual ∧
      actual = (if args.length < format.minArgs then args.length
        else positionalCount host format args s) ∧
      (actual < format.minArgs ∨ ∃ bound, format.maxArgs = some bound ∧ bound < actual) := by
  rcases verdict_cases host format args s with
    ⟨few, refused⟩ | ⟨enough, closed, more, refused⟩ | ⟨-, -, output, holds, -⟩
  · obtain rfl := Except.error.inj (failed.symm.trans refused)
    exact ⟨_, rfl, (if_pos few).symm, .inl few⟩
  · obtain rfl := Except.error.inj (failed.symm.trans refused)
    refine ⟨_, rfl, (if_neg (Nat.not_lt.2 enough)).symm, .inr ⟨_, ?_, more⟩⟩
    exact (format.maxArgs_eq_some_iff _).2 ⟨closed, rfl⟩
  · cases failed.symm.trans holds

theorem of_ok {output : Output V}
    (bound : ((bindArgs host format args).run s).1.result = .ok output) :
    output.argc = positionalCount host format args s ∧ format.minArgs ≤ output.argc ∧
      ∀ max, format.maxArgs = some max → output.argc ≤ max := by
  rcases verdict_cases host format args s with
    ⟨-, refused⟩ | ⟨-, -, -, refused⟩ | ⟨enough, fits, other, holds, count⟩
  · cases bound.symm.trans refused
  · cases bound.symm.trans refused
  · obtain rfl := Except.ok.inj (bound.symm.trans holds)
    rw [count]
    refine ⟨rfl, minArgs_le_positionalCount host format args s enough, fun max limit => ?_⟩
    obtain ⟨closed, rfl⟩ := (format.maxArgs_eq_some_iff max).1 limit
    exact fits.resolve_left (by rw [closed]; exact Bool.false_ne_true)

end Binding

/-- Arguments are accepted exactly when they are enough and, without a rest slot, not more than
there are slots. An error reports a number that really lies outside the bounds that it reports, and
a binding holds a number within them. -/
theorem bindArgs_arity (host : Host σ V) (format : Format) (args : List V) (s : σ) :
    let state := ((KeywordState.resolve host format args).run s).1
    let argc := if state = .pending then args.length - 1 else args.length
    let result := ((bindArgs host format args).run s).1.result
    ((∃ output, result = .ok output) ↔
      format.minArgs ≤ args.length ∧ (format.rest = true ∨
        argc ≤ format.leading.toNat + format.optional.toNat + format.trailing.toNat)) ∧
    (∀ e, result = .error e →
      e = .arity (if args.length < format.minArgs then args.length else argc)
        format.minArgs format.maxArgs) ∧
    (∀ actual min max, result = .error (.arity actual min max) →
      actual < min ∨ ∃ bound, max = some bound ∧ bound < actual) ∧
    (∀ output, result = .ok output → output.argc = argc ∧
      format.minArgs ≤ output.argc ∧ ∀ bound, format.maxArgs = some bound → output.argc ≤ bound) ∧
    (format.rest = true → format.minArgs ≤ args.length → ∃ output, result = .ok output) := by
  intro state argc result
  have total : format.leading.toNat + format.optional.toNat + format.trailing.toNat =
      format.minArgs + format.optional.toNat := Nat.add_right_comm ..
  have count : Binding.positionalCount host format args s = argc :=
    Binding.positionalCount_eq host format args s
  have accepted := Binding.ok_iff host format args s
  rw [total, ← count]
  refine ⟨accepted, fun e failed => ?_, fun actual min max failed => ?_, fun output bound => ?_,
    fun unlimited enough => accepted.2 ⟨enough, .inl unlimited⟩⟩
  · obtain ⟨actual, rfl, rfl, -⟩ := Binding.of_error host format args s failed
    rfl
  · obtain ⟨other, same, -, outside⟩ := Binding.of_error host format args s failed
    obtain ⟨rfl, rfl, rfl⟩ := ScanError.arity.inj same
    exact outside
  · exact Binding.of_ok host format args s bound

/-- A successful binding cuts the positional arguments into consecutive slices. -/
theorem bindArgs_slices (host : Host σ V) (format : Format) (args : List V) {s s' : σ}
    {output : Output V} {events : List Event}
    (bound : (bindArgs host format args).run s = (⟨.ok output, events⟩, s')) :
    ∃ (state : KeywordState) (asked : σ) (produced : List (SlotKind × V)),
      (KeywordState.resolve host format args).run s = (state, asked) ∧
      (state = .pending ∧ format.keywords = true ∧ args.length = output.argc + 1 ∨
        state ≠ .pending ∧ args.length = output.argc) ∧
      (fillSlots host (format.slicing args output.argc)).run asked = (produced, s') ∧
      output.slots = produced.take maxOutputSlots ∧
      takenUp (format.slicing args output.argc) = args.take output.argc ∧
      (format.rest = false →
        format.leading.toNat + format.optionalTaken output.argc + format.trailing.toNat =
          output.argc) := by
  -- the slots past the limit are only there in the binding that keeps all of them
  have agree := congrArg (fun step => step.run s) (Binding.map_result_bindArgs host format args)
  simp only [run_map, bound] at agree
  obtain ⟨result, ended⟩ := Prod.mk.inj agree
  have accepted : ∃ output, ((bindArgs host format args).run s).1.result = .ok output :=
    ⟨output, congrArg (·.1.result) bound⟩
  obtain ⟨enough, fits⟩ := (Binding.ok_iff host format args s).1 accepted
  have filled := Binding.run_bindAll_fits host format args s enough fits
  rw [filled] at result ended
  obtain rfl : output = _ := Except.ok.inj result
  have least := Binding.minArgs_le_positionalCount host format args s enough
  refine ⟨_, _, _, rfl, Binding.resolve_cases host format args s, Prod.ext rfl ended.symm, rfl,
    format.takenUp_slicing args _ least fits, fun closed => ?_⟩
  have ends := format.trailingStart_add_trailing _ least fits
  simp only [Format.trailingStart, closed, Bool.false_eq_true, ↓reduceIte] at ends
  exact ends

theorem bindArgs_slices_every_group :
    let host := Object.host (some (.proc "each"))
    let format : Format := ⟨1, 1, true, 1, true, true⟩
    let args : List Object := [.int 1, .int 2, .int 3, .int 4, .hash [(.symbol "key", .nil)]]
    let slots : List (SlotKind × Object) := [(.leading, .int 1), (.optional, .int 2),
      (.rest, .array [.int 3]), (.trailing, .int 4), (.keywords, .hash [(.symbol "key", .nil)]),
      (.block, .proc "each")]
    (bindArgs host format args).run () =
        (⟨.ok ⟨slots, 4⟩, .keywords .pending :: Binding.slotEvents 0 format.slots⟩, ()) ∧
      (∃ produced, (fillSlots host (format.slicing args 4)).run () = (produced, ()) ∧
        slots = produced.take maxOutputSlots) ∧
      takenUp (format.slicing args 4) = args.take 4 := by
  intro host format args slots
  have bound : (bindArgs host format args).run () =
      (⟨.ok ⟨slots, 4⟩, .keywords .pending :: Binding.slotEvents 0 format.slots⟩, ()) := rfl
  obtain ⟨_, _, produced, _, _, filled, stored, positional, _⟩ :=
    bindArgs_slices host format args bound
  exact ⟨bound, ⟨produced, filled, stored⟩, positional⟩

end NativeCall
