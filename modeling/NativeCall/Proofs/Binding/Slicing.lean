import NativeCall.Binding
import NativeCall.Proofs.Binding.Layout

/-!
What the slots of a shape are filled with. The positional arguments are cut into consecutive
slices, one for each group of slots; a slot that no argument fills, the rest slot and the block slot
get what the host answers. `Format.zip_layout` says that the plan of a call is such a slicing, and
`Format.takenUp_slicing` that no argument is lost or taken twice.
-/

set_option autoImplicit false
set_option relaxedAutoImplicit false

namespace NativeCall

variable {σ V : Type}

/-- What a slot is filled with. -/
inductive Filling (V : Type) where
  | given (v : V)
  | empty
  | collected (vs : List V)
  /-- The block of the call, or the empty value when there is none. -/
  | block

namespace Filling

def arguments : Filling V → List V
  | given v => [v]
  | collected vs => vs
  | empty => []
  | block => []

def ofOption : Option V → Filling V
  | some v => given v
  | none => empty

def value (host : Host σ V) : Filling V → StateM σ V
  | given v => pure v
  | empty => host.nil
  | collected vs => do
    let sequence ← host.newSequence
    vs.foldlM host.append sequence
  | block => do if ← host.blockGiven then host.currentBlock else host.nil

end Filling

def fillSlots (host : Host σ V) (slots : List (SlotKind × Filling V)) :
    StateM σ (List (SlotKind × V)) :=
  slots.mapM fun (kind, filling) => (kind, ·) <$> filling.value host

def SlotKind.isPositional : SlotKind → Bool
  | leading | optional | rest | trailing => true
  | keywords | block => false

namespace Format

def positional (format : Format) (args : List V) (argc : Nat) : List (SlotKind × Filling V) :=
  let taken := format.optionalTaken argc
  (args.extract 0 format.leading.toNat).map (.leading, .given ·)
    ++ ((args.extract format.leading.toNat (format.leading.toNat + taken)).map (.optional, .given ·)
      ++ List.replicate (format.optional.toNat - taken) (.optional, .empty))
    ++ (if format.rest then
        [(.rest, .collected
          (args.extract (format.leading.toNat + taken) (argc - format.trailing.toNat)))]
      else [])
    ++ (args.extract (argc - format.trailing.toNat) argc).map (.trailing, .given ·)

/-- All slots, when the first so many arguments are positional. An argument past them is the keyword
hash. -/
def slicing (format : Format) (args : List V) (argc : Nat) : List (SlotKind × Filling V) :=
  format.positional args argc
    ++ (if format.keywords then [(.keywords, .ofOption args[argc]?)] else [])
    ++ (if format.block then [(.block, .block)] else [])

end Format

namespace Source

def filling (args : List V) : Source → Filling V
  | argument position => .ofOption args[position]?
  | absent => .empty
  | gathered first count => .collected ((args.drop first).take count)
  | block => .block

private theorem value_eq (host : Host σ V) (args : List V) (source : Source) :
    source.value host args = (source.filling args).value host := by
  cases source with
  | argument position =>
    simp only [value, filling]
    cases args[position]? <;> rfl
  | absent => rfl
  | gathered first count => rfl
  | block => rfl

theorem mapM_value (host : Host σ V) (args : List V) (sources : List Source) :
    sources.mapM (value host args) = (sources.map (filling args)).mapM (Filling.value host) := by
  have agree : value host args = Filling.value host ∘ filling args := funext (value_eq host args)
  rw [List.mapM_map, agree]

private theorem map_filling_run (args : List V) (first count : Nat)
    (inside : first + count ≤ args.length) :
    (run first count).map (filling args) =
      (args.extract first (first + count)).map .given := by
  induction count generalizing first with
  | zero => simp [run]
  | succ count ih =>
    -- the slice is opened at its front, where the run takes its first argument
    have bound : first < args.length := by omega
    have slice : args.extract first (first + (count + 1)) =
        args[first] :: args.extract (first + 1) (first + 1 + count) := by
      simp only [List.extract_eq_take_drop, List.drop_eq_getElem_cons bound,
        Nat.add_sub_cancel_left, List.take_succ_cons]
    rw [run_succ, List.map_cons, ih (first + 1) (by omega), slice, List.map_cons, filling,
      List.getElem?_eq_getElem bound]
    rfl

end Source

namespace Format

variable (format : Format) (args : List V) (argc : Nat)

theorem leading_add_optionalTaken_le (enough : format.minArgs ≤ argc) :
    format.leading.toNat + format.optionalTaken argc + format.trailing.toNat ≤ argc := by
  simp only [optionalTaken, minArgs] at enough ⊢
  omega

theorem map_fst_slicing (enough : format.minArgs ≤ argc) (passed : argc ≤ args.length) :
    (format.slicing args argc).map Prod.fst = format.slots := by
  have inside := format.leading_add_optionalTaken_le argc enough
  have taken : format.optionalTaken argc ≤ format.optional.toNat := Nat.min_le_left ..
  have constant (kind : SlotKind) (vs : List V) :
      (vs.map fun v => (kind, Filling.given v)).map Prod.fst = List.replicate vs.length kind := by
    rw [List.map_map]
    exact List.map_const' ..
  have leading : (args.extract 0 format.leading.toNat).length = format.leading.toNat := by
    simp only [List.extract_eq_take_drop, List.length_take, List.length_drop]
    omega
  have optional : (args.extract format.leading.toNat
      (format.leading.toNat + format.optionalTaken argc)).length = format.optionalTaken argc := by
    simp only [List.extract_eq_take_drop, List.length_take, List.length_drop]
    omega
  have trailing : (args.extract (argc - format.trailing.toNat) argc).length =
      format.trailing.toNat := by
    simp only [List.extract_eq_take_drop, List.length_take, List.length_drop]
    omega
  simp only [slicing, positional, slots, List.map_append, constant, leading, optional, trailing,
    List.map_replicate, List.replicate_append_replicate, Nat.add_sub_cancel' taken]
  cases format.rest <;> cases format.keywords <;> cases format.block <;> rfl

theorem map_filling_layout (pending : Bool) (passed : args.length = argc + pending.toNat)
    (enough : format.minArgs ≤ argc) :
    (Plan.layout format argc pending).map (Source.filling args) =
      (args.extract 0 format.leading.toNat).map .given
        ++ ((args.extract format.leading.toNat
            (format.leading.toNat + format.optionalTaken argc)).map .given
          ++ List.replicate (format.optional.toNat - format.optionalTaken argc) .empty)
        ++ (if format.rest then
            [.collected (args.extract (format.leading.toNat + format.optionalTaken argc)
              (argc - format.trailing.toNat))]
          else [])
        ++ (args.extract (format.trailingStart argc)
          (format.trailingStart argc + format.trailing.toNat)).map .given
        ++ (if format.keywords then [.ofOption args[argc]?] else [])
        ++ (if format.block then [.block] else []) := by
  have inside := format.leading_add_optionalTaken_le argc enough
  have stop : format.trailingStart argc + format.trailing.toNat ≤ argc := by
    simp only [trailingStart]
    split
    · omega
    · omega
  have leading := Source.map_filling_run args 0 format.leading.toNat (by omega)
  have optional := Source.map_filling_run args format.leading.toNat
    (format.optionalTaken argc) (by omega)
  have trailing := Source.map_filling_run args (format.trailingStart argc)
    format.trailing.toNat (by omega)
  have last : Filling.ofOption args[argc]? =
      (if pending then Source.argument argc else .absent).filling args := by
    cases pending with
    | true => rfl
    | false => rw [List.getElem?_eq_none (by simp [passed])]; rfl
  rw [Nat.zero_add] at leading
  simp only [Plan.layout, List.map_append, leading, optional, trailing, last, List.map_replicate]
  cases hrest : format.rest with
  | true =>
    have start : format.trailingStart argc = argc - format.trailing.toNat := by
      simp only [trailingStart, hrest, ↓reduceIte]
    simp only [start]
    cases format.keywords <;> cases format.block <;> rfl
  | false => cases format.keywords <;> cases format.block <;> rfl

private theorem map_snd_slicing (pending : Bool) (passed : args.length = argc + pending.toNat)
    (enough : format.minArgs ≤ argc)
    (fits : format.rest = true ∨ argc ≤ format.minArgs + format.optional.toNat) :
    (format.slicing args argc).map Prod.snd =
      (Plan.layout format argc pending).map (Source.filling args) := by
  have ends := format.trailingStart_add_trailing argc enough fits
  have start : format.trailingStart argc = argc - format.trailing.toNat := by omega
  rw [format.map_filling_layout args argc pending passed enough, ends, start]
  simp only [slicing, positional, List.map_append, List.map_map, List.map_replicate]
  cases format.rest <;> cases format.keywords <;> cases format.block <;> rfl

theorem zip_layout (pending : Bool) (passed : args.length = argc + pending.toNat)
    (enough : format.minArgs ≤ argc)
    (fits : format.rest = true ∨ argc ≤ format.minArgs + format.optional.toNat) :
    format.slots.zip ((Plan.layout format argc pending).map (Source.filling args)) =
      format.slicing args argc := by
  rw [← format.map_fst_slicing args argc enough (by omega),
    ← format.map_snd_slicing args argc pending passed enough fits]
  exact (List.zip_of_prod rfl rfl).symm

end Format

theorem run_seq {α β : Type} (first : StateM σ α) (second : α → StateM σ β) (s : σ) :
    (first >>= second).run s = (second (first.run s).1).run (first.run s).2 := rfl

theorem run_map {α β : Type} (f : α → β) (step : StateM σ α) (s : σ) :
    (f <$> step).run s = (f (step.run s).1, (step.run s).2) := rfl

theorem run_pure {α : Type} (a : α) (s : σ) : (pure a : StateM σ α).run s = (a, s) := rfl

theorem fillSlots_zip (host : Host σ V) (kinds : List SlotKind) (fillings : List (Filling V))
    (same : kinds.length = fillings.length) :
    fillSlots host (kinds.zip fillings) =
      (kinds.zip ·) <$> fillings.mapM (Filling.value host) := by
  induction fillings generalizing kinds with
  | nil =>
    rw [List.length_nil, List.length_eq_zero_iff] at same
    rw [same]
    rfl
  | cons filling fillings ih =>
    cases kinds with
    | nil => cases same
    | cons kind kinds =>
      have tail := ih kinds (Nat.succ.inj same)
      simp only [fillSlots] at tail
      simp only [fillSlots, List.zip_cons_cons, List.mapM_cons, tail, map_bind, bind_map_left,
        map_pure]

private theorem extract_append_extract (args : List V) {first second third : Nat}
    (le : first ≤ second) (le' : second ≤ third) :
    args.extract first second ++ args.extract second third = args.extract first third := by
  have reach : third - first = second - first + (third - second) := by omega
  have skip : second = first + (second - first) := by omega
  simp only [List.extract_eq_take_drop, reach, List.take_add, List.drop_drop]
  rw [← skip]

/-- The positional arguments that slots take up, in slot order. -/
def takenUp (slots : List (SlotKind × Filling V)) : List V :=
  (slots.filter (·.1.isPositional)).flatMap (·.2.arguments)

private theorem takenUp_append (slots more : List (SlotKind × Filling V)) :
    takenUp (slots ++ more) = takenUp slots ++ takenUp more := by
  simp only [takenUp, List.filter_append, List.flatMap_append]

private theorem takenUp_given (kind : SlotKind) (vs : List V)
    (positional : kind.isPositional = true) : takenUp (vs.map fun v => (kind, .given v)) = vs := by
  induction vs with
  | nil => rfl
  | cons v vs ih =>
    simp only [takenUp] at ih
    simp only [takenUp, List.map_cons, List.filter_cons, positional, ↓reduceIte,
      List.flatMap_cons]
    exact congrArg (v :: ·) ih

private theorem takenUp_empty (kind : SlotKind) (count : Nat) :
    takenUp (List.replicate count (kind, (.empty : Filling V))) = [] := by
  induction count with
  | zero => rfl
  | succ count ih =>
    simp only [takenUp] at ih
    simp only [takenUp, List.replicate_succ, List.filter_cons]
    split
    · exact ih
    · exact ih

theorem Format.takenUp_slicing (format : Format) (args : List V) (argc : Nat)
    (enough : format.minArgs ≤ argc)
    (fits : format.rest = true ∨ argc ≤ format.minArgs + format.optional.toNat) :
    takenUp (format.slicing args argc) = args.take argc := by
  have inside := format.leading_add_optionalTaken_le argc enough
  have ends := format.trailingStart_add_trailing argc enough fits
  have rest : takenUp (if format.rest then [(.rest, .collected (args.extract
        (format.leading.toNat + format.optionalTaken argc) (argc - format.trailing.toNat)))]
      else []) =
      args.extract (format.leading.toNat + format.optionalTaken argc)
        (argc - format.trailing.toNat) := by
    cases hrest : format.rest with
    | true => exact List.append_nil _
    | false =>
      simp only [trailingStart, hrest, Bool.false_eq_true, ↓reduceIte] at ends
      have nothing : argc - format.trailing.toNat
          - (format.leading.toNat + format.optionalTaken argc) = 0 := by omega
      simp only [List.extract_eq_take_drop, nothing, List.take_zero]
      rfl
  have keywords : takenUp (if format.keywords then
      [(.keywords, Filling.ofOption args[argc]?)] else []) = [] := by
    cases format.keywords <;> rfl
  have block : takenUp (if format.block then [(.block, (.block : Filling V))] else []) = [] := by
    cases format.block <;> rfl
  simp only [slicing, positional, takenUp_append, takenUp_empty, keywords, block, rest,
    List.append_nil, takenUp_given .leading _ rfl, takenUp_given .optional _ rfl,
    takenUp_given .trailing _ rfl]
  rw [extract_append_extract args (by omega) (by omega),
    extract_append_extract args (by omega) (by omega),
    extract_append_extract args (by omega) (by omega)]
  simp only [List.extract_eq_take_drop, List.drop_zero, Nat.sub_zero]

end NativeCall
