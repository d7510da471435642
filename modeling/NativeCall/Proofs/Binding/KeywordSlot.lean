import NativeCall.Proofs.Binding.Verdict

/-!
What the keyword slot changes. Under a host whose answers do not change, a shape with a keyword slot
binds as the shape without it does: either to all arguments, with an empty keyword slot put in, or
to all but the last, which then is the keyword hash. `bindArgs_keywords` says which of the two it
is.
-/

set_option autoImplicit false
set_option relaxedAutoImplicit false

namespace NativeCall

variable {σ V : Type}

def Constant {α : Type} (step : StateM σ α) : Prop :=
  ∀ s t : σ, (step.run s).1 = (step.run t).1

theorem Constant.pure {α : Type} (a : α) : Constant (pure a : StateM σ α) :=
  fun _ _ => rfl

theorem Constant.bind {α β : Type} {first : StateM σ α} {second : α → StateM σ β}
    (h : Constant first) (g : ∀ a, Constant (second a)) : Constant (first >>= second) := by
  intro s t
  rw [run_seq, run_seq, h s t]
  exact g _ _ _

/-- A host whose answers do not change between calls. -/
structure Host.Steady (host : Host σ V) : Prop where
  nil : Constant host.nil
  isNil : ∀ v, Constant (host.isNil v)
  isKeywordLike : ∀ v strict, Constant (host.isKeywordLike v strict)
  blockGiven : Constant host.blockGiven
  currentBlock : Constant host.currentBlock
  newSequence : Constant host.newSequence
  append : ∀ sequence v, Constant (host.append sequence v)

section Steady

variable {host : Host σ V} (steady : host.Steady)

include steady

theorem Host.Steady.foldlM_append (vs : List V) (sequence : V) :
    Constant (vs.foldlM host.append sequence) := by
  induction vs generalizing sequence with
  | nil => exact Constant.pure sequence
  | cons v vs ih =>
    rw [List.foldlM_cons]
    exact (steady.append sequence v).bind ih

theorem Host.Steady.value (filling : Filling V) : Constant (filling.value host) := by
  cases filling with
  | given v => exact Constant.pure v
  | empty => exact steady.nil
  | collected vs => exact steady.newSequence.bind (steady.foldlM_append vs)
  | block =>
    refine steady.blockGiven.bind fun given => ?_
    cases given with
    | true => exact steady.currentBlock
    | false => exact steady.nil

theorem Host.Steady.fillSlots (slots : List (SlotKind × Filling V)) (s t : σ) :
    ((fillSlots host slots).run s).1 =
      slots.map fun slot => (slot.1, ((slot.2.value host).run t).1) := by
  induction slots generalizing s with
  | nil => rfl
  | cons slot slots ih =>
    have first := steady.value slot.2 s t
    have others := ih (((slot.2.value host).run s).2)
    simp only [NativeCall.fillSlots] at others
    simp only [NativeCall.fillSlots, List.mapM_cons, run_seq, run_map, run_pure, first, others,
      List.map_cons]

end Steady

theorem Object.host_steady (block : Option Object) : (Object.host block).Steady where
  nil _ _ := rfl
  isNil _ _ _ := rfl
  isKeywordLike _ _ _ _ := rfl
  blockGiven _ _ := rfl
  currentBlock _ _ := rfl
  newSequence _ _ := rfl
  append _ _ _ _ := rfl

namespace Format

def plain (format : Format) : Format :=
  { format with keywords := false }

private theorem positional_take (format : Format) (args : List V) (argc : Nat)
    (enough : format.minArgs ≤ argc) :
    format.positional (args.take argc) argc = format.positional args argc := by
  have slice (start stop : Nat) (le : stop ≤ argc) :
      (args.take argc).extract start stop = args.extract start stop := by
    simp only [List.extract_eq_take_drop, List.drop_take, List.take_take]
    rw [Nat.min_eq_left (by omega)]
  have inside := format.leading_add_optionalTaken_le argc enough
  simp only [positional, slice _ _ (Nat.le_refl argc), slice 0 format.leading.toNat (by omega),
    slice _ (format.leading.toNat + format.optionalTaken argc) (by omega),
    slice _ (argc - format.trailing.toNat) (Nat.sub_le ..)]

private theorem positional_kind (format : Format) (args : List V) (argc : Nat) :
    ∀ slot ∈ format.positional args argc, slot.1 ≠ .block := by
  intro slot member same
  simp only [positional, List.mem_append, List.mem_map, List.mem_replicate] at member
  rcases member with ((⟨v, -, rfl⟩ | ⟨v, -, rfl⟩ | ⟨-, rfl⟩) | rest) | ⟨v, -, rfl⟩
  · cases same
  · cases same
  · cases same
  · split at rest
    · rw [List.mem_singleton.1 rest] at same
      cases same
    · cases rest
  · cases same

end Format

/-- Slots with a keyword slot put in, after the positional slots and before the block. -/
def withKeywords (v : V) (slots : List (SlotKind × V)) : List (SlotKind × V) :=
  slots.takeWhile (·.1 != .block) ++ (.keywords, v) :: slots.dropWhile (·.1 != .block)

private theorem withKeywords_append (v : V) (slots more : List (SlotKind × V))
    (before : ∀ slot ∈ slots, slot.1 ≠ .block)
    (after : ∀ slot ∈ more.head?, slot.1 = .block) :
    withKeywords v (slots ++ more) = slots ++ (.keywords, v) :: more := by
  have others : ∀ slot ∈ slots, (slot.1 != .block) = true :=
    fun slot member => bne_iff_ne.2 (before slot member)
  rw [withKeywords, List.takeWhile_append_of_pos others, List.dropWhile_append_of_pos others]
  cases more with
  | nil => simp
  | cons slot more =>
    have block : (slot.1 != .block) = false := bne_eq_false_iff_eq.2 (after slot rfl)
    simp [block]

private theorem Format.map_slicing (format : Format) (args : List V) (argc : Nat)
    (accepts : format.keywords = true) (enough : format.minArgs ≤ argc) (value : Filling V → V) :
    (format.slicing args argc).map (fun slot => (slot.1, value slot.2)) =
      withKeywords (value (.ofOption args[argc]?))
        ((format.plain.slicing (args.take argc) argc).map fun slot => (slot.1, value slot.2)) := by
  have positional : format.plain.positional (args.take argc) argc = format.positional args argc :=
    format.positional_take args argc enough
  have before : ∀ slot ∈ (format.positional args argc).map fun slot => (slot.1, value slot.2),
      slot.1 ≠ .block := by
    intro slot member
    obtain ⟨other, inside, rfl⟩ := List.mem_map.1 member
    exact format.positional_kind args argc other inside
  have after : ∀ slot ∈ ((if format.block then [(SlotKind.block, (.block : Filling V))]
      else []).map fun slot => (slot.1, value slot.2)).head?, slot.1 = .block := by
    intro slot member
    cases accepted : format.block with
    | true =>
      rw [accepted] at member
      obtain rfl := Option.some.inj member
      rfl
    | false =>
      rw [accepted] at member
      cases member
  have closed : format.plain.keywords = false := rfl
  have block : format.plain.block = format.block := rfl
  simp only [slicing, accepts, closed, block, positional, ↓reduceIte, Bool.false_eq_true,
    List.append_nil, List.map_append]
  rw [withKeywords_append _ _ _ before after]
  simp only [List.map_cons, List.map_nil, List.append_assoc, List.singleton_append]

namespace Binding

variable {host : Host σ V} (steady : host.Steady) (format : Format) (args : List V) (s t : σ)

/-- The slots of a successful binding, those past the limit included, with the number of positional
arguments. -/
def outcome (host : Host σ V) (format : Format) (args : List V) (s : σ) :
    Except ScanError (List (SlotKind × V) × Nat) :=
  ((bindAll host format args).run s).1

/-- When the last argument stays positional in spite of the keyword slot: the mandatory slots need
it, the host takes it neither for nil nor for keywords, or it is nil and fits without the keyword
slot. -/
def StaysPositional (host : Host σ V) (format : Format) (args : List V) (t : σ) : Prop :=
  args.length ≤ format.minArgs ∨ ∃ last, args.getLast? = some last ∧
    (((host.isNil last).run t).1 = false ∧ ((host.isKeywordLike last true).run t).1 = false ∨
      ((host.isNil last).run t).1 = true ∧
        ∃ binding, outcome host format.plain args t = .ok binding)

/-- When the last argument is the keyword hash: the host takes it for keywords, or it is nil and one
too many without the keyword slot. -/
def TakenForKeywords (host : Host σ V) (format : Format) (args : List V) (t : σ) (last : V) :
    Prop :=
  format.minArgs < args.length ∧ args.getLast? = some last ∧
    (((host.isNil last).run t).1 = false ∧ ((host.isKeywordLike last true).run t).1 = true ∨
      ((host.isNil last).run t).1 = true ∧ (∃ max, format.maxArgs = some max ∧ max < args.length) ∧
        outcome host format.plain args t = .error (wrongCount format args.length))

theorem fitsPositionally_iff (argc : Nat) :
    KeywordState.fitsPositionally format argc = true ↔
      format.rest = true ∨ argc ≤ format.minArgs + format.optional.toNat := by
  simp only [KeywordState.fitsPositionally, Bool.or_eq_true, decide_eq_true_eq]

include steady

theorem outcome_eq : outcome host format args s =
    if args.length < format.minArgs then .error (wrongCount format args.length)
    else if KeywordState.fitsPositionally format (positionalCount host format args s) = true then
      .ok ((format.slicing args (positionalCount host format args s)).map
        (fun slot => (slot.1, ((slot.2.value host).run t).1)), positionalCount host format args s)
    else .error (wrongCount format (positionalCount host format args s)) := by
  split
  · next few => rw [outcome, bindAll_few host format args few]; rfl
  · next enough =>
    rw [Nat.not_lt] at enough
    split
    · next fits =>
      rw [fitsPositionally_iff] at fits
      rw [outcome, run_bindAll_fits host format args s enough fits]
      simp only [steady.fillSlots _ _ t]
    · next surplus =>
      rw [fitsPositionally_iff, not_or, Bool.not_eq_true, Nat.not_le] at surplus
      exact run_bindAll_surplus host format args s enough surplus.1 surplus.2

private theorem outcome_plain : outcome host format.plain args s =
    if args.length < format.minArgs then .error (wrongCount format args.length)
    else if KeywordState.fitsPositionally format args.length = true then
      .ok ((format.plain.slicing args args.length).map
        (fun slot => (slot.1, ((slot.2.value host).run t).1)), args.length)
    else .error (wrongCount format args.length) :=
  outcome_eq steady format.plain args s t

private theorem outcome_eq_plain (accepts : format.keywords = true)
    (enough : format.minArgs ≤ args.length) :
    outcome host format args s =
      (outcome host format.plain (args.take (positionalCount host format args s)) t).map
        fun (slots, argc) => (withKeywords (((Filling.ofOption
          args[positionalCount host format args s]?).value host).run t).1 slots, argc) := by
  have least := minArgs_le_positionalCount host format args s enough
  have within : (args.take (positionalCount host format args s)).length =
      positionalCount host format args s := by
    rw [List.length_take, length_eq host format args s]
    omega
  rw [outcome_eq steady format args s t, outcome_plain steady format _ t t, within,
    if_neg (Nat.not_lt.2 enough), if_neg (Nat.not_lt.2 least)]
  -- both sides count the same arguments, so that both fit or neither does
  split
  · rw [format.map_slicing args _ accepts least fun filling => ((filling.value host).run t).1]
    rfl
  · rfl

private theorem classify_pending_iff (argc : Nat) (last : V) :
    ((KeywordState.classify host format argc last).run s).1 = .pending ↔
      if ((host.isNil last).run t).1 = true then
        KeywordState.fitsPositionally format argc = false
      else ((host.isKeywordLike last true).run t).1 = true := by
  rw [KeywordState.classify, run_seq, steady.isNil last s t]
  cases ((host.isNil last).run t).1 with
  | true =>
    simp only [↓reduceIte, run_pure]
    cases KeywordState.fitsPositionally format argc with
    | true => decide
    | false => decide
  | false =>
    simp only [Bool.false_eq_true, ↓reduceIte, run_seq, steady.isKeywordLike last true _ t]
    cases ((host.isKeywordLike last true).run t).1 with
    | true => exact ⟨fun _ => rfl, fun _ => rfl⟩
    | false =>
      constructor
      · intro pending
        cases pending
      · intro like
        cases like

theorem isPending_iff (accepts : format.keywords = true) :
    isPending host format args s = true ↔
      format.minArgs < args.length ∧ ∃ last, args.getLast? = some last ∧
        if ((host.isNil last).run t).1 = true then
          KeywordState.fitsPositionally format args.length = false
        else ((host.isKeywordLike last true).run t).1 = true := by
  rw [isPending, KeywordState.resolve, accepts, beq_iff_eq]
  simp only [Bool.not_true, Bool.false_eq_true, ↓reduceIte]
  split
  · next few =>
    constructor
    · intro pending
      cases pending
    · rintro ⟨more, -⟩
      omega
  · next more =>
    cases ending : args.getLast? with
    | none =>
      constructor
      · intro pending
        cases pending
      · rintro ⟨-, last, found, -⟩
        cases found
    | some last =>
      rw [classify_pending_iff steady format s t args.length last]
      constructor
      · exact fun taken => ⟨by omega, last, rfl, taken⟩
      · rintro ⟨-, other, same, taken⟩
        cases same
        exact taken

private theorem takenForKeywords_of_isPending (accepts : format.keywords = true)
    (pending : isPending host format args s = true) :
    ∃ last, TakenForKeywords host format args t last := by
  obtain ⟨more, last, ending, taken⟩ :=
    (isPending_iff steady format args s t accepts).1 pending
  refine ⟨last, more, ending, ?_⟩
  cases nil : ((host.isNil last).run t).1 with
  | false =>
    rw [nil, if_neg Bool.false_ne_true] at taken
    exact .inl ⟨rfl, taken⟩
  | true =>
    rw [nil, if_pos rfl] at taken
    have surplus : ¬ (format.rest = true ∨
        args.length ≤ format.minArgs + format.optional.toNat) := by
      rw [← fitsPositionally_iff, taken]
      exact Bool.false_ne_true
    rw [not_or, Bool.not_eq_true, Nat.not_le] at surplus
    refine .inr ⟨rfl, ⟨_, (format.maxArgs_eq_some_iff _).2 ⟨surplus.1, rfl⟩, surplus.2⟩, ?_⟩
    rw [outcome_plain steady format args t t, if_neg (Nat.lt_asymm more), taken]
    rfl

private theorem not_isPending_iff (accepts : format.keywords = true) :
    isPending host format args s = false ↔ StaysPositional host format args t := by
  rw [← Bool.not_eq_true, isPending_iff steady format args s t accepts]
  constructor
  · intro positional
    by_cases more : format.minArgs < args.length
    · cases ending : args.getLast? with
      | none =>
        rw [List.getLast?_eq_none_iff.1 ending] at more
        exact absurd more (Nat.not_lt_zero _)
      | some last =>
        refine .inr ⟨last, ending, ?_⟩
        cases nil : ((host.isNil last).run t).1 with
        | false =>
          cases keywords : ((host.isKeywordLike last true).run t).1 with
          | false => exact .inl ⟨rfl, rfl⟩
          | true => exact absurd ⟨more, last, ending, by rw [nil]; exact keywords⟩ positional
        | true =>
          cases fits : KeywordState.fitsPositionally format args.length with
          | false => exact absurd ⟨more, last, ending, by rw [nil]; exact fits⟩ positional
          | true =>
            rw [outcome_plain steady format args t t, if_neg (Nat.lt_asymm more), if_pos fits]
            exact .inr ⟨rfl, _, rfl⟩
    · exact .inl (Nat.not_lt.1 more)
  · rintro (few | ⟨other, found, stays⟩) ⟨more, last, ending, taken⟩
    · omega
    · cases ending.symm.trans found
      rcases stays with ⟨nil, keywords⟩ | ⟨nil, binding, holds⟩
      · rw [nil, if_neg Bool.false_ne_true, keywords] at taken
        cases taken
      · rw [nil, if_pos rfl] at taken
        rw [outcome_plain steady format args t t, if_neg (Nat.lt_asymm more), taken] at holds
        cases holds

private theorem outcome_of_not_isPending (accepts : format.keywords = true)
    (positional : isPending host format args s = false) :
    outcome host format args s = (outcome host format.plain args t).map
      fun (slots, argc) => (withKeywords (host.nil.run t).1 slots, argc) := by
  have count : positionalCount host format args s = args.length := by
    rw [positionalCount, positional]
    rfl
  by_cases few : args.length < format.minArgs
  · rw [outcome_eq steady format args s t, outcome_plain steady format args t t, if_pos few,
      if_pos few]
    rfl
  · rw [outcome_eq_plain steady format args s t accepts (Nat.not_lt.1 few), count,
      List.take_length, List.getElem?_eq_none (Nat.le_refl _)]
    rfl

private theorem outcome_of_isPending (accepts : format.keywords = true) {last : V}
    (ending : args.getLast? = some last) (pending : isPending host format args s = true) :
    outcome host format args s = (outcome host format.plain args.dropLast t).map
      fun (slots, argc) => (withKeywords last slots, argc) := by
  have more := (of_isPending host format args s pending).2
  have count := positionalCount_of_isPending host format args s pending
  have found : args[args.length - 1]? = some last := by
    rw [← List.getLast?_eq_getElem?, ending]
  rw [outcome_eq_plain steady format args s t accepts (Nat.le_of_lt more), count, found,
    List.dropLast_eq_take]
  rfl

private theorem count_of_isPending (pending : isPending host format args s = true) :
    (∀ e, outcome host format args s = .error e → e = wrongCount format (args.length - 1)) ∧
      (∀ slots argc, outcome host format args s = .ok (slots, argc) → argc = args.length - 1) := by
  have more := (of_isPending host format args s pending).2
  have count := positionalCount_of_isPending host format args s pending
  rw [outcome_eq steady format args s s, if_neg (Nat.lt_asymm more), count]
  split
  · refine ⟨fun e failed => ?_, fun slots argc bound => ?_⟩
    · cases failed
    · exact (Prod.mk.inj (Except.ok.inj bound)).2.symm
  · refine ⟨fun e failed => ?_, fun slots argc bound => ?_⟩
    · exact (Except.error.inj failed).symm
    · cases bound

end Binding

open Binding in
/-- What a keyword slot means. Arguments whose last one stays positional are bound as without the
slot, which is put in empty. Otherwise the last argument is put in, and the others are bound as
without the slot. -/
theorem bindArgs_keywords (host : Host σ V) (steady : host.Steady) (format : Format)
    (accepts : format.keywords = true) (args : List V) (s t : σ) :
    (∀ format args s, ((bindArgs host format args).run s).1.result =
      stored (outcome host format args s)) ∧
    (StaysPositional host format args t →
      outcome host format args s = (outcome host format.plain args t).map
        fun (slots, argc) => (withKeywords (host.nil.run t).1 slots, argc)) ∧
    (¬ StaysPositional host format args t → ∃ last, TakenForKeywords host format args t last ∧
      outcome host format args s = (outcome host format.plain args.dropLast t).map
        (fun (slots, argc) => (withKeywords last slots, argc)) ∧
      (∀ e, outcome host format args s = .error e → e = wrongCount format (args.length - 1)) ∧
      (∀ slots argc, outcome host format args s = .ok (slots, argc) → argc = args.length - 1)) := by
  have positional := not_isPending_iff steady format args s t accepts
  refine ⟨result_bindArgs host, fun stays => ?_, fun goes => ?_⟩
  · exact outcome_of_not_isPending steady format args s t accepts (positional.2 stays)
  · have pending : isPending host format args s = true := by
      rw [← Bool.not_eq_false]
      exact mt positional.1 goes
    obtain ⟨last, taken⟩ := takenForKeywords_of_isPending steady format args s t accepts pending
    exact ⟨last, taken, outcome_of_isPending steady format args s t accepts taken.2.1 pending,
      count_of_isPending steady format args s pending⟩

theorem bindArgs_keywords_reference_host :
    let host := Object.host none
    let format : Format := ⟨1, 0, false, 0, true, false⟩
    let last : Object := .hash [(.symbol "key", .nil)]
    host.Steady ∧ format.keywords = true ∧
      Binding.TakenForKeywords host format [.int 1, last] () last ∧
      ((bindArgs host format [.int 1, last]).run ()).1.result =
        .ok ⟨[(.leading, .int 1), (.keywords, last)], 1⟩ := by
  intro host format last
  have steady : host.Steady := Object.host_steady none
  obtain ⟨bound, -, goes⟩ := bindArgs_keywords host steady format rfl [.int 1, last] () ()
  have surplus : ¬ Binding.StaysPositional host format [.int 1, last] () := by
    rintro (few | ⟨_, ending, ⟨-, keywords⟩ | ⟨nil, -⟩⟩)
    · exact absurd few (by decide)
    · cases ending
      cases keywords
    · cases ending
      cases nil
  obtain ⟨other, taken, same, -⟩ := goes surplus
  obtain rfl : last = other := Option.some.inj taken.2.1
  refine ⟨steady, rfl, taken, ?_⟩
  rw [bound, same]
  rfl

end NativeCall
