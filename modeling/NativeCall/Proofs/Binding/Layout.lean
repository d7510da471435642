import NativeCall.Plan

/-!
Where the arguments of a call go. When so many arguments count as positional, the shape cuts them
into runs: leading, optional, surplus, trailing. `Plan.make_eq` gives the whole plan in this form,
and `Plan.surplus_make_iff` says when arguments are left over.
-/

set_option autoImplicit false
set_option relaxedAutoImplicit false

namespace NativeCall

namespace Format

def optionalTaken (format : Format) (argc : Nat) : Nat :=
  min format.optional.toNat (argc - format.minArgs)

/-- The position of the first trailing argument. A rest slot moves it to the end. -/
def trailingStart (format : Format) (argc : Nat) : Nat :=
  if format.rest then argc - format.trailing.toNat
  else format.leading.toNat + format.optionalTaken argc

/-- Mandatory and optional slots together give every positional argument a place, unless there are
more arguments than slots and no rest slot. -/
theorem trailingStart_add_trailing (format : Format) (argc : Nat) (enough : format.minArgs ≤ argc)
    (fits : format.rest = true ∨ argc ≤ format.minArgs + format.optional.toNat) :
    format.trailingStart argc + format.trailing.toNat = argc := by
  simp only [minArgs] at enough fits
  simp only [trailingStart, optionalTaken, minArgs]
  split
  · omega
  · have short := fits.resolve_left (by assumption)
    omega

private theorem trailingStart_add_trailing_lt (format : Format) (argc : Nat)
    (closed : format.rest = false) (more : format.minArgs + format.optional.toNat < argc) :
    format.trailingStart argc + format.trailing.toNat < argc := by
  simp only [minArgs] at more
  simp only [trailingStart, optionalTaken, minArgs, closed, Bool.false_eq_true, ↓reduceIte]
  omega

end Format

namespace Source

def run (first count : Nat) : List Source :=
  (List.range' first count).map .argument

theorem run_succ (first count : Nat) :
    run first (count + 1) = .argument first :: run (first + 1) count := by
  simp only [run, List.range'_succ, List.map_cons]

end Source

namespace Cursor

def room (cursor : Cursor) : Nat :=
  cursor.argc - cursor.reserved - cursor.next

private theorem advance_zero (cursor : Cursor) : cursor.advance 0 = cursor := rfl

theorem advance_advance (cursor : Cursor) (first second : Nat) :
    (cursor.advance first).advance second = cursor.advance (first + second) := by
  simp only [advance, Nat.add_assoc]

theorem fillAll_cons (pending : Bool) (cursor : Cursor) (kind : SlotKind)
    (kinds : List SlotKind) :
    cursor.fillAll pending (kind :: kinds) =
      ((cursor.fill pending kind).1 :: ((cursor.fill pending kind).2.fillAll pending kinds).1,
        ((cursor.fill pending kind).2.fillAll pending kinds).2) := rfl

/-- Two groups of slots, each with its sources and the cursor it leaves. -/
theorem fillAll_append_eq {pending : Bool} {first second third : Cursor}
    {kinds more : List SlotKind} {sources others : List Source}
    (h : first.fillAll pending kinds = (sources, second))
    (g : second.fillAll pending more = (others, third)) :
    first.fillAll pending (kinds ++ more) = (sources ++ others, third) := by
  rw [fillAll_append, h, g]

theorem fillAll_replicate (pending : Bool) (kind : SlotKind) (cursor : Cursor) (count : Nat)
    (takes : ∀ c : Cursor, c.fill pending kind = (.argument c.next, c.advance 1)) :
    cursor.fillAll pending (List.replicate count kind) =
      (Source.run cursor.next count, cursor.advance count) := by
  induction count generalizing cursor with
  | zero => rfl
  | succ count ih =>
    rw [List.replicate_succ, fillAll_cons, takes, ih, Source.run_succ, advance_advance,
      Nat.add_comm 1 count]
    rfl

private theorem fillAll_optional (pending : Bool) (cursor : Cursor) (count : Nat) :
    cursor.fillAll pending (List.replicate count .optional) =
      (Source.run cursor.next (min count cursor.room)
          ++ List.replicate (count - min count cursor.room) .absent,
        cursor.advance (min count cursor.room)) := by
  induction count generalizing cursor with
  | zero => simp [fillAll, Source.run, advance]
  | succ count ih =>
    rw [List.replicate_succ, fillAll_cons]
    by_cases hfree : cursor.free = true
    · -- one argument goes to this slot, and the others see one less
      have hroom : cursor.room = (cursor.advance 1).room + 1 := by
        simp only [free, decide_eq_true_eq] at hfree
        simp only [room, advance]
        omega
      have htake : min (count + 1) cursor.room = min count (cursor.advance 1).room + 1 := by
        omega
      simp only [fill, hfree, ↓reduceIte, ih, htake, Source.run_succ, advance_advance,
        List.cons_append, Nat.add_sub_add_right, Nat.add_comm 1]
      rfl
    · have hroom : cursor.room = 0 := by
        simp only [free, decide_eq_true_eq] at hfree
        simp only [room]
        omega
      simp [fill, hfree, ih, hroom, Source.run, advance_zero, List.replicate_succ]

variable (format : Format) (argc : Nat) (pending : Bool)

/-- The cursor of a call of which so many arguments are given out. One argument more than the
positional ones was passed if the keyword hash is pending. -/
def along (next : Nat) : Cursor :=
  ⟨next, argc + pending.toNat, format.trailing.toNat + pending.toNat⟩

private theorem start_eq :
    start format (argc + pending.toNat) pending = along format argc pending 0 := rfl

private theorem fillAll_mandatory (kind : SlotKind) (next count : Nat)
    (takes : ∀ c : Cursor, c.fill pending kind = (.argument c.next, c.advance 1)) :
    (along format argc pending next).fillAll pending (List.replicate count kind) =
      (Source.run next count, along format argc pending (next + count)) :=
  fillAll_replicate pending kind _ count takes

private theorem fillAll_optionals :
    (along format argc pending format.leading.toNat).fillAll pending
        (List.replicate format.optional.toNat .optional) =
      (Source.run format.leading.toNat (format.optionalTaken argc)
          ++ List.replicate (format.optional.toNat - format.optionalTaken argc) .absent,
        along format argc pending (format.leading.toNat + format.optionalTaken argc)) := by
  have room : (along format argc pending format.leading.toNat).room = argc - format.minArgs := by
    simp only [Cursor.room, along, Format.minArgs]
    omega
  rw [fillAll_optional, room]
  rfl

private theorem fillAll_rest (enough : format.minArgs ≤ argc) :
    (along format argc pending (format.leading.toNat + format.optionalTaken argc)).fillAll pending
        (if format.rest then [.rest] else []) =
      (if format.rest then
          [.gathered (format.leading.toNat + format.optionalTaken argc)
            (format.trailingStart argc - (format.leading.toNat + format.optionalTaken argc))]
        else [],
        along format argc pending (format.trailingStart argc)) := by
  simp only [Format.minArgs] at enough
  cases hrest : format.rest with
  | false => simp only [Bool.false_eq_true, ↓reduceIte, fillAll, Format.trailingStart, hrest]
  | true =>
    have start : format.trailingStart argc = argc - format.trailing.toNat := by
      simp only [Format.trailingStart, hrest, ↓reduceIte]
    have count : argc + pending.toNat - (format.trailing.toNat + pending.toNat)
          - (format.leading.toNat + format.optionalTaken argc) =
        format.trailingStart argc - (format.leading.toNat + format.optionalTaken argc) := by
      omega
    have stop : format.leading.toNat + format.optionalTaken argc
          + (format.trailingStart argc - (format.leading.toNat + format.optionalTaken argc)) =
        format.trailingStart argc := by
      have taken : format.optionalTaken argc ≤ argc - format.minArgs := Nat.min_le_right ..
      simp only [Format.minArgs] at taken
      omega
    simp only [↓reduceIte, fillAll, fill, advance, along, count, stop]

private theorem fillAll_keywords (next : Nat) :
    (along format argc pending next).fillAll pending
        (if format.keywords then [.keywords] else []) =
      (if format.keywords then [if pending then .argument argc else .absent] else [],
        along format argc pending next) := by
  cases format.keywords <;> cases pending <;> rfl

private theorem fillAll_block (next : Nat) :
    (along format argc pending next).fillAll pending (if format.block then [.block] else []) =
      (if format.block then [.block] else [], along format argc pending next) := by
  cases format.block <;> rfl

end Cursor

namespace Plan

/-- The sources of the slots of a shape, when so many arguments count as positional and the next
one is the keyword hash if it is pending. -/
def layout (format : Format) (argc : Nat) (pending : Bool) : List Source :=
  Source.run 0 format.leading.toNat
    ++ (Source.run format.leading.toNat (format.optionalTaken argc)
      ++ List.replicate (format.optional.toNat - format.optionalTaken argc) .absent)
    ++ (if format.rest then
        [.gathered (format.leading.toNat + format.optionalTaken argc)
          (format.trailingStart argc - (format.leading.toNat + format.optionalTaken argc))]
      else [])
    ++ Source.run (format.trailingStart argc) format.trailing.toNat
    ++ (if format.keywords then [if pending then .argument argc else .absent] else [])
    ++ (if format.block then [.block] else [])

/-- A plan gives each group of slots the next run of arguments, provided that the mandatory slots
find one each. -/
theorem make_eq (format : Format) (argc : Nat) (pending : Bool)
    (enough : format.minArgs ≤ argc) :
    make format (argc + pending.toNat) pending =
      ⟨layout format argc pending, format.trailingStart argc + format.trailing.toNat, argc⟩ := by
  have leading := Cursor.fillAll_mandatory format argc pending .leading 0 format.leading.toNat
    fun _ => rfl
  have trailing := Cursor.fillAll_mandatory format argc pending .trailing
    (format.trailingStart argc) format.trailing.toNat fun _ => rfl
  rw [Nat.zero_add] at leading
  have positional := Cursor.fillAll_append_eq (Cursor.fillAll_append_eq (Cursor.fillAll_append_eq
    leading (Cursor.fillAll_optionals format argc pending))
    (Cursor.fillAll_rest format argc pending enough)) trailing
  have all := Cursor.fillAll_append_eq (Cursor.fillAll_append_eq positional
    (Cursor.fillAll_keywords format argc pending _)) (Cursor.fillAll_block format argc pending _)
  simp only [make, Cursor.start_eq, Format.slots, all, Nat.add_sub_cancel]
  rfl

theorem surplus_make_iff (format : Format) (argc : Nat) (pending : Bool)
    (enough : format.minArgs ≤ argc) :
    (make format (argc + pending.toNat) pending).surplus = true ↔
      format.rest = false ∧ format.minArgs + format.optional.toNat < argc := by
  rw [make_eq format argc pending enough]
  simp only [surplus, decide_eq_true_eq]
  by_cases fits : format.rest = true ∨ argc ≤ format.minArgs + format.optional.toNat
  · have full := format.trailingStart_add_trailing argc enough fits
    constructor
    · intro short
      omega
    · rintro ⟨closed, more⟩
      simp only [closed, Bool.false_eq_true, false_or] at fits
      omega
  · simp only [not_or, Bool.not_eq_true, Nat.not_le] at fits
    exact ⟨fun _ => fits, fun _ => format.trailingStart_add_trailing_lt argc fits.1 fits.2⟩

end Plan

end NativeCall
