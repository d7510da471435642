import NativeCall.Proofs.Scanner.Trace

/-!
Binding loop by loop. The loops move a cursor along the arguments, read them by position, and push
every slot to a writer that keeps kinds and values in two rows. A position past the end would stop
them: `bindArgs_eq_bindInLoops` says that this never happens, and that they bind as the plan of a
call does. `bindArgs_layout` compares what they push with the slots that a shape describes.
-/

set_option autoImplicit false
set_option relaxedAutoImplicit false

namespace NativeCall

variable {σ V : Type}

/-- The slots that are pushed in the course of a call: how many, the rows of those that are stored,
and an event for each. -/
structure Writer (V : Type) where
  kinds : List SlotKind := []
  values : List V := []
  produced : Nat := 0
  events : List Event := []

namespace Writer

def push (writer : Writer V) (kind : SlotKind) (v : V) : Writer V :=
  let stored : Bool := writer.produced < maxOutputSlots
  { kinds := if stored then writer.kinds ++ [kind] else writer.kinds
    values := if stored then writer.values ++ [v] else writer.values
    produced := writer.produced + 1
    events := writer.events ++ [.slot writer.produced kind stored] }

def after (slots : List (SlotKind × V)) : Writer V where
  kinds := (slots.map Prod.fst).take maxOutputSlots
  values := (slots.map Prod.snd).take maxOutputSlots
  produced := slots.length
  events := Binding.slotEvents 0 (slots.map Prod.fst)

private theorem take_concat {α : Type} (xs : List α) (x : α) (limit : Nat) :
    (xs ++ [x]).take limit = if xs.length < limit then xs.take limit ++ [x] else xs.take limit := by
  split
  · next room =>
    have all : (xs ++ [x]).length ≤ limit := by
      rw [List.length_append, List.length_singleton]
      omega
    rw [List.take_of_length_le all, List.take_of_length_le (Nat.le_of_lt room)]
  · next full => exact List.take_append_of_le_length (Nat.not_lt.1 full)

private theorem slotEvents_concat (first : Nat) (kinds : List SlotKind) (kind : SlotKind) :
    Binding.slotEvents first (kinds ++ [kind]) =
      Binding.slotEvents first kinds ++
        [.slot (first + kinds.length) kind (first + kinds.length < maxOutputSlots)] := by
  rw [Binding.slotEvents_eq, Binding.slotEvents_eq, List.mapIdx_append]
  simp only [List.mapIdx_cons, List.mapIdx_nil, Nat.zero_add]

private theorem push_after (slots : List (SlotKind × V)) (kind : SlotKind) (v : V) :
    (after slots).push kind v = after (slots ++ [(kind, v)]) := by
  have kinds := take_concat (slots.map Prod.fst) kind maxOutputSlots
  have values := take_concat (slots.map Prod.snd) v maxOutputSlots
  have events := slotEvents_concat 0 (slots.map Prod.fst) kind
  rw [List.length_map] at kinds values events
  rw [Nat.zero_add] at events
  simp only [push, after, List.map_append, List.map_cons, List.map_nil, kinds, values, events,
    List.length_append, List.length_singleton]
  by_cases room : slots.length < maxOutputSlots
  · simp only [room, decide_true, ↓reduceIte]
  · simp only [room, decide_false, Bool.false_eq_true, ↓reduceIte]

end Writer

/-- A binder at work: the state of the host, the arguments given out, and the slots pushed. -/
structure Work (σ V : Type) where
  state : σ
  cursor : Cursor
  writer : Writer V

namespace Work

def produce (work : Work σ V) (kind : SlotKind) (step : StateM σ V) : Work σ V :=
  { work with
    state := (step.run work.state).2
    writer := work.writer.push kind (step.run work.state).1 }

def advance (work : Work σ V) (count : Nat) : Work σ V :=
  { work with cursor := work.cursor.advance count }

variable (host : Host σ V) (args : List V)

def takeEach (kind : SlotKind) : Nat → Work σ V → Option (Work σ V)
  | 0, work => some work
  | count + 1, work => do
    let v ← args[work.cursor.next]?
    takeEach kind count ((work.produce kind (pure v)).advance 1)

def takeFree : Nat → Work σ V → Option (Work σ V)
  | 0, work => some work
  | count + 1, work =>
    if work.cursor.free then do
      let v ← args[work.cursor.next]?
      takeFree count ((work.produce .optional (pure v)).advance 1)
    else takeFree count (work.produce .optional host.nil)

def gather (sequence : V) (work : Work σ V) : Option (V × Work σ V) :=
  if work.cursor.free then do
    let v ← args[work.cursor.next]?
    let longer := (host.append sequence v).run work.state
    gather longer.1 { work.advance 1 with state := longer.2 }
  else some (sequence, work)
termination_by work.cursor.argc - work.cursor.next
decreasing_by
  rename_i unreserved
  simp only [Cursor.free, decide_eq_true_eq] at unreserved
  simp only [advance, Cursor.advance]
  omega

def takeRest (rest : Bool) (work : Work σ V) : Option (Work σ V) :=
  if rest then do
    let start := host.newSequence.run work.state
    let (sequence, work) ← gather host args start.1 { work with state := start.2 }
    some (work.produce .rest (pure sequence))
  else some work

def takeKeywords : KeywordState → Work σ V → Option (KeywordState × Work σ V)
  | .pending, work => do
    let v ← args[args.length - 1]?
    some (.consumed, work.produce .keywords (pure v))
  | .erased, work => some (.erased, work.produce .keywords host.nil)
  | .notAccepted, work => some (.notAccepted, work)
  | .consumed, work => some (.consumed, work)

def takeBlock (block : Bool) (work : Work σ V) : Work σ V :=
  if block then work.produce .block do if ← host.blockGiven then host.currentBlock else host.nil
  else work

def takeAll (format : Format) (state : KeywordState) (work : Work σ V) :
    Option (KeywordState × Work σ V) := do
  let work ← takeEach args .leading format.leading.toNat work
  let work ← takeFree host args format.optional.toNat work
  let work ← takeRest host args format.rest work
  let work ← takeEach args .trailing format.trailing.toNat work
  let (state, work) ← takeKeywords host args state work
  some (state, takeBlock host format.block work)

end Work

structure Rows (V : Type) where
  kinds : List SlotKind
  values : List V
  argc : Nat

def Rows.output (rows : Rows V) : Output V :=
  ⟨rows.kinds.zip rows.values, rows.argc⟩

structure Looped (V : Type) where
  result : Except ScanError (Rows V)
  events : List Event

def Looped.binding (looped : Looped V) : Binding V :=
  ⟨looped.result.map Rows.output, looped.events⟩

open Binding Work in
/-- Binds arguments to the slots of a shape, loop by loop. -/
def bindInLoops (host : Host σ V) (format : Format) (args : List V) (s : σ) :
    Option (Looped V × σ) :=
  if args.length < format.minArgs then
    some (⟨.error (wrongCount format args.length), []⟩, s)
  else do
    let resolved := (KeywordState.resolve host format args).run s
    let cursor := Cursor.start format args.length (resolved.1 == .pending)
    let (state, work) ← takeAll host args format resolved.1 ⟨resolved.2, cursor, {}⟩
    let argc := if state = .consumed then args.length - 1 else args.length
    let result := if work.cursor.next < argc then .error (wrongCount format argc)
      else .ok ⟨work.writer.kinds, work.writer.values, argc⟩
    some (⟨result, .keywords resolved.1 :: work.writer.events⟩, work.state)

namespace Cursor

/-- A cursor over so many arguments that has given out none of the reserved ones. -/
structure Keeps (argc reserved : Nat) (cursor : Cursor) : Prop where
  argc_eq : cursor.argc = argc
  reserved_eq : cursor.reserved = reserved
  inside : cursor.next + reserved ≤ argc

theorem Keeps.fill {argc reserved : Nat} {cursor : Cursor} (keeps : cursor.Keeps argc reserved)
    (pending : Bool) {kind : SlotKind} (between : kind = .optional ∨ kind = .rest) :
    (cursor.fill pending kind).2.Keeps argc reserved := by
  obtain ⟨rfl, rfl, inside⟩ := keeps
  rcases between with rfl | rfl
  · simp only [Cursor.fill]
    split
    · next unreserved =>
      simp only [free, decide_eq_true_eq] at unreserved
      exact ⟨rfl, rfl, by simp only [advance]; omega⟩
    · exact ⟨rfl, rfl, inside⟩
  · exact ⟨rfl, rfl, by simp only [Cursor.fill, advance]; omega⟩

theorem Keeps.fillAll {argc reserved : Nat} {cursor : Cursor} (keeps : cursor.Keeps argc reserved)
    (pending : Bool) {kinds : List SlotKind}
    (between : ∀ kind ∈ kinds, kind = .optional ∨ kind = .rest) :
    (cursor.fillAll pending kinds).2.Keeps argc reserved := by
  induction kinds generalizing cursor with
  | nil => exact keeps
  | cons kind kinds ih =>
    have first := keeps.fill pending (between kind List.mem_cons_self)
    exact ih first fun other member => between other (List.mem_cons_of_mem _ member)

private theorem Keeps.optionals {argc reserved : Nat} {cursor : Cursor}
    (keeps : cursor.Keeps argc reserved) (pending : Bool) (count : Nat) :
    (cursor.fillAll pending (List.replicate count .optional)).2.Keeps argc reserved :=
  keeps.fillAll pending fun _ member => .inl (List.eq_of_mem_replicate member)

theorem Keeps.rest {argc reserved : Nat} {cursor : Cursor} (keeps : cursor.Keeps argc reserved)
    (pending rest : Bool) :
    (cursor.fillAll pending (if rest then [.rest] else [])).2.Keeps argc reserved := by
  cases rest with
  | false => exact keeps
  | true => exact keeps.fillAll pending fun _ member => .inr (List.mem_singleton.1 member)

private theorem keeps_leading (format : Format) (argc : Nat) (pending : Bool)
    (room : format.minArgs + pending.toNat ≤ argc) :
    ((start format argc pending).fillAll pending
      (List.replicate format.leading.toNat .leading)).2.Keeps argc
        (format.trailing.toNat + pending.toNat) := by
  rw [fillAll_replicate _ _ _ _ fun _ => rfl]
  refine ⟨rfl, rfl, ?_⟩
  simp only [advance, start, Nat.zero_add]
  rwa [Format.minArgs, Nat.add_assoc] at room

end Cursor

namespace KeywordState

/-- The states that the keyword slot of a call with so many arguments can begin in. -/
inductive Possible (format : Format) (argc : Nat) : KeywordState → Prop where
  | notAccepted (closed : format.keywords = false) : Possible format argc notAccepted
  | pending (accepts : format.keywords = true) (more : format.minArgs < argc) :
    Possible format argc pending
  | erased (accepts : format.keywords = true) : Possible format argc erased

def settled : KeywordState → KeywordState
  | pending => consumed
  | state => state

theorem resolve_possible (host : Host σ V) (format : Format) (args : List V) (s : σ) :
    Possible format args.length ((resolve host format args).run s).1 := by
  rcases resolve_eq host format args s with ⟨closed, state⟩ | ⟨accepts, state | state⟩
  · rw [state]
    exact .notAccepted closed
  · have more := (Binding.of_isPending host format args s (beq_iff_eq.2 state)).2
    rw [state]
    exact .pending accepts more
  · rw [state]
    exact .erased accepts

variable {format : Format} {argc : Nat} {state : KeywordState}

theorem Possible.room (possible : Possible format argc state) (enough : format.minArgs ≤ argc) :
    format.minArgs + (state == .pending).toNat ≤ argc := by
  cases possible with
  | notAccepted => exact enough
  | pending _ more => exact more
  | erased => exact enough

private theorem Possible.settled_eq (possible : Possible format argc state) :
    (if state.settled = consumed then argc - 1 else argc) = argc - (state == .pending).toNat := by
  cases possible with
  | notAccepted => rfl
  | pending => rfl
  | erased => rfl

end KeywordState

namespace Work

variable (host : Host σ V) (args : List V) (pending : Bool)

def fill (work : Work σ V) (kind : SlotKind) : Work σ V :=
  { work.produce kind ((work.cursor.fill pending kind).1.value host args) with
    cursor := (work.cursor.fill pending kind).2 }

def fillAll (work : Work σ V) (kinds : List SlotKind) : Work σ V :=
  kinds.foldl (fill host args pending) work

private theorem cursor_fillAll (work : Work σ V) (kinds : List SlotKind) :
    (work.fillAll host args pending kinds).cursor = (work.cursor.fillAll pending kinds).2 := by
  induction kinds generalizing work with
  | nil => rfl
  | cons kind kinds ih => exact ih (work.fill host args pending kind)

theorem fillAll_append (work : Work σ V) (kinds more : List SlotKind) :
    work.fillAll host args pending (kinds ++ more) =
      (work.fillAll host args pending kinds).fillAll host args pending more :=
  List.foldl_append

private theorem fillAll_eq (s : σ) (cursor : Cursor) (slots : List (SlotKind × V))
    (kinds : List SlotKind) :
    (Work.mk s cursor (.after slots)).fillAll host args pending kinds =
      let filled := cursor.fillAll pending kinds
      let values := (filled.1.mapM (Source.value host args)).run s
      ⟨values.2, filled.2, .after (slots ++ kinds.zip values.1)⟩ := by
  induction kinds generalizing s cursor slots with
  | nil =>
    simp only [Cursor.fillAll, List.mapM_nil, run_pure, List.zip_nil_left, List.append_nil]
    rfl
  | cons kind kinds ih =>
    have step : (Work.mk s cursor (.after slots)).fill host args pending kind =
        let value := ((cursor.fill pending kind).1.value host args).run s
        ⟨value.2, (cursor.fill pending kind).2, .after (slots ++ [(kind, value.1)])⟩ := by
      simp only [fill, produce, Writer.push_after]
    rw [fillAll, List.foldl_cons, step]
    refine (ih _ _ _).trans ?_
    simp only [Cursor.fillAll_cons, List.mapM_cons, run_seq, run_pure, List.zip_cons_cons,
      List.append_assoc, List.singleton_append]

variable {args}

private theorem fill_argument {work : Work σ V} {kind : SlotKind} {position : Nat} {cursor : Cursor}
    (source : work.cursor.fill pending kind = (.argument position, cursor))
    (bound : position < args.length) :
    work.fill host args pending kind =
      { work.produce kind (pure args[position]) with cursor := cursor } := by
  simp only [fill, source, Source.value, List.getElem?_eq_getElem bound]

private theorem takeEach_eq (kind : SlotKind)
    (takes : ∀ c : Cursor, c.fill pending kind = (.argument c.next, c.advance 1)) (count : Nat)
    (work : Work σ V) (inside : work.cursor.next + count ≤ args.length) :
    takeEach args kind count work =
      some (work.fillAll host args pending (List.replicate count kind)) := by
  induction count generalizing work with
  | zero => rfl
  | succ count ih =>
    have bound : work.cursor.next < args.length := by omega
    have step : work.fill host args pending kind =
        (work.produce kind (pure args[work.cursor.next])).advance 1 :=
      fill_argument host pending (takes work.cursor) bound
    have rest := ih (work.fill host args pending kind) (by
      simp only [fill, takes, Cursor.advance]
      omega)
    rw [step] at rest
    rw [takeEach, List.getElem?_eq_getElem bound, Option.bind_eq_bind, Option.bind_some, rest,
      ← step, List.replicate_succ]
    rfl

private theorem takeFree_eq (count : Nat) (work : Work σ V)
    (whole : work.cursor.argc = args.length) : takeFree host args count work =
      some (work.fillAll host args pending (List.replicate count .optional)) := by
  induction count generalizing work with
  | zero => rfl
  | succ count ih =>
    have rest := ih (work.fill host args pending .optional)
    rw [takeFree]
    by_cases unreserved : work.cursor.free = true
    · have bound : work.cursor.next < args.length := by
        simp only [Cursor.free, decide_eq_true_eq] at unreserved
        omega
      have source : work.cursor.fill pending .optional =
          (.argument work.cursor.next, work.cursor.advance 1) := by
        simp only [Cursor.fill, unreserved, ↓reduceIte]
      have step : work.fill host args pending .optional =
          (work.produce .optional (pure args[work.cursor.next])).advance 1 :=
        fill_argument host pending source bound
      rw [step] at rest
      rw [if_pos unreserved, List.getElem?_eq_getElem bound, Option.bind_eq_bind,
        Option.bind_some, rest whole, ← step]
      rfl
    · have step : work.fill host args pending .optional = work.produce .optional host.nil := by
        simp only [fill, Cursor.fill, unreserved, Bool.false_eq_true, ↓reduceIte, Source.value]
        rfl
      rw [step] at rest
      rw [if_neg unreserved, rest whole, ← step]
      rfl

private theorem gather_eq (count : Nat) (sequence : V) (work : Work σ V)
    (whole : work.cursor.argc = args.length) (room : work.cursor.room = count) :
    gather host args sequence work =
      let made := (((args.drop work.cursor.next).take count).foldlM host.append sequence).run
        work.state
      some (made.1, { work.advance count with state := made.2 }) := by
  induction count generalizing sequence work with
  | zero =>
    have reserved : ¬ work.cursor.free = true := by
      simp only [Cursor.room] at room
      simp only [Cursor.free, decide_eq_true_eq]
      omega
    rw [gather, if_neg reserved]
    rfl
  | succ count ih =>
    simp only [Cursor.room] at room
    have bound : work.cursor.next < args.length := by omega
    have unreserved : work.cursor.free = true := by
      simp only [Cursor.free, decide_eq_true_eq]
      omega
    have fewer : (work.cursor.advance 1).room = count := by
      simp only [Cursor.room, Cursor.advance]
      omega
    rw [gather, if_pos unreserved, List.getElem?_eq_getElem bound, Option.bind_eq_bind,
      Option.bind_some]
    refine (ih _ { work.advance 1 with state := _ } whole fewer).trans ?_
    simp only [List.drop_eq_getElem_cons bound, List.take_succ_cons, List.foldlM_cons, run_seq,
      advance, Cursor.advance_advance, Nat.add_comm 1 count]
    rfl

private theorem takeRest_eq (rest : Bool) (work : Work σ V)
    (whole : work.cursor.argc = args.length) : takeRest host args rest work =
      some (work.fillAll host args pending (if rest then [.rest] else [])) := by
  cases rest with
  | false => rfl
  | true =>
    have gathered := gather_eq host work.cursor.room (host.newSequence.run work.state).1
      { work with state := (host.newSequence.run work.state).2 } whole rfl
    have step : takeRest host args true work = some (work.fill host args pending .rest) := by
      simp only [takeRest, gathered, ↓reduceIte, Option.bind_eq_bind, Option.bind_some, fill,
        Cursor.fill, Source.value]
      rfl
    exact step

private theorem takeKeywords_eq {format : Format} {state : KeywordState} (work : Work σ V)
    (whole : work.cursor.argc = args.length)
    (possible : KeywordState.Possible format args.length state) :
    takeKeywords host args state work =
      some (state.settled, work.fillAll host args (state == .pending)
        (if format.keywords then [.keywords] else [])) := by
  cases possible with
  | notAccepted closed =>
    rw [closed]
    rfl
  | erased accepts =>
    rw [accepts]
    rfl
  | pending accepts more =>
    have bound : args.length - 1 < args.length :=
      Nat.sub_one_lt_of_lt (Nat.lt_of_le_of_lt (Nat.zero_le _) more)
    have source : work.cursor.fill true .keywords =
        (.argument (args.length - 1), work.cursor) := by
      simp only [Cursor.fill, ↓reduceIte, whole]
    have step : work.fill host args true .keywords =
        work.produce .keywords (pure args[args.length - 1]) :=
      fill_argument host true source bound
    rw [accepts, takeKeywords, List.getElem?_eq_getElem bound, Option.bind_eq_bind,
      Option.bind_some, ← step]
    rfl

private theorem takeBlock_eq (args : List V) (block : Bool) (work : Work σ V) :
    takeBlock host block work =
      work.fillAll host args pending (if block then [.block] else []) := by
  cases block <;> rfl

theorem takeAll_eq {format : Format} {state : KeywordState} (work : Work σ V)
    (start : work.cursor = .start format args.length (state == .pending))
    (enough : format.minArgs ≤ args.length)
    (possible : KeywordState.Possible format args.length state) :
    takeAll host args format state work =
      some (state.settled, work.fillAll host args (state == .pending) format.slots) := by
  let fillAll := fillAll host args (state == .pending)
  let leading := fillAll work (List.replicate format.leading.toNat .leading)
  let optional := fillAll leading (List.replicate format.optional.toNat .optional)
  let rest := fillAll optional (if format.rest then [.rest] else [])
  let trailing := fillAll rest (List.replicate format.trailing.toNat .trailing)
  let reserved := format.trailing.toNat + (state == .pending).toNat
  have room := possible.room enough
  -- from the first optional slot to the last trailing one, the reserved arguments are still there
  have afterLeading : leading.cursor.Keeps args.length reserved := by
    rw [cursor_fillAll, start]
    exact Cursor.keeps_leading format args.length _ room
  have afterOptional : optional.cursor.Keeps args.length reserved := by
    rw [cursor_fillAll]
    exact afterLeading.optionals _ _
  have afterRest : rest.cursor.Keeps args.length reserved := by
    rw [cursor_fillAll]
    exact afterOptional.rest _ _
  have afterTrailing : trailing.cursor.argc = args.length := by
    rw [cursor_fillAll, Cursor.fillAll_replicate _ _ _ _ fun _ => rfl]
    exact afterRest.argc_eq
  have first : takeEach args .leading format.leading.toNat work = some leading := by
    refine takeEach_eq host _ .leading (fun _ => rfl) _ work ?_
    rw [start, Cursor.start, Nat.zero_add]
    exact Nat.le_trans (Nat.le_add_right ..) enough
  have second : takeFree host args format.optional.toNat leading = some optional :=
    takeFree_eq host _ _ leading afterLeading.argc_eq
  have third : takeRest host args format.rest optional = some rest :=
    takeRest_eq host _ _ optional afterOptional.argc_eq
  have fourth : takeEach args .trailing format.trailing.toNat rest = some trailing := by
    refine takeEach_eq host _ .trailing (fun _ => rfl) _ rest ?_
    exact Nat.le_trans (by omega) afterRest.inside
  have fifth := takeKeywords_eq host trailing afterTrailing possible
  have last := takeBlock_eq host (state == .pending) args format.block
    (fillAll trailing (if format.keywords then [.keywords] else []))
  simp only [takeAll, first, second, third, fourth, fifth, Option.bind_eq_bind, Option.bind_some,
    Format.slots, fillAll_append]
  exact congrArg (fun filled => some (state.settled, filled)) last

end Work

private theorem length_run_mapM {α β : Type} (f : α → StateM σ β) (xs : List α) (s : σ) :
    ((xs.mapM f).run s).1.length = xs.length := by
  induction xs generalizing s with
  | nil => rfl
  | cons x xs ih =>
    simp only [List.mapM_cons, run_seq, run_pure, List.length_cons, ih]

namespace Writer

variable {kinds : List SlotKind} {values : List V}

private theorem after_zip (same : values.length = kinds.length) :
    after (kinds.zip values) =
      { kinds := kinds.take maxOutputSlots
        values := values.take maxOutputSlots
        produced := kinds.length
        events := Binding.slotEvents 0 kinds } := by
  have fst : (kinds.zip values).map Prod.fst = kinds := List.map_fst_zip (Nat.le_of_eq same.symm)
  have snd : (kinds.zip values).map Prod.snd = values := List.map_snd_zip (Nat.le_of_eq same)
  have length : (kinds.zip values).length = kinds.length := by
    rw [List.length_zip, same, Nat.min_self]
  rw [after, fst, snd, length]

end Writer

section Loops

variable (host : Host σ V) (format : Format) (args : List V) (s : σ)

def planned : List V × σ :=
  let plan := Plan.make format args.length (Binding.isPending host format args s)
  (plan.sources.mapM (Source.value host args)).run ((KeywordState.resolve host format args).run s).2

theorem length_planned : (planned host format args s).1.length = format.slots.length := by
  rw [planned, length_run_mapM, Plan.length_sources, Format.length_slots]

theorem bindInLoops_eq (enough : format.minArgs ≤ args.length) :
    bindInLoops host format args s =
      let state := ((KeywordState.resolve host format args).run s).1
      let plan := Plan.make format args.length (Binding.isPending host format args s)
      let values := planned host format args s
      some (⟨if plan.surplus then .error (Binding.wrongCount format plan.argc)
          else .ok ⟨format.slots.take maxOutputSlots, values.1.take maxOutputSlots, plan.argc⟩,
        .keywords state :: Binding.slotEvents 0 format.slots⟩, values.2) := by
  let resolved := (KeywordState.resolve host format args).run s
  let cursor := Cursor.start format args.length (resolved.1 == .pending)
  have possible : KeywordState.Possible format args.length resolved.1 :=
    KeywordState.resolve_possible host format args s
  have taken := Work.takeAll_eq host (Work.mk resolved.2 cursor {}) rfl enough possible
  have filled : (Work.mk resolved.2 cursor {}).fillAll host args (resolved.1 == .pending)
        format.slots =
      ⟨(planned host format args s).2,
        (cursor.fillAll (resolved.1 == .pending) format.slots).2,
        .after (format.slots.zip (planned host format args s).1)⟩ :=
    Work.fillAll_eq host args (resolved.1 == .pending) resolved.2 cursor [] format.slots
  rw [filled, Writer.after_zip (length_planned host format args s)] at taken
  rw [bindInLoops, if_neg (Nat.not_lt.2 enough)]
  change (Work.takeAll host args format resolved.1 ⟨resolved.2, cursor, {}⟩).bind _ = _
  simp only [taken, Option.bind_some, possible.settled_eq, Plan.surplus, decide_eq_true_eq]
  rfl

theorem bindInLoops_few (few : args.length < format.minArgs) :
    bindInLoops host format args s =
      some (⟨.error (Binding.wrongCount format args.length), []⟩, s) := by
  rw [bindInLoops, if_pos few]

theorem bindArgs_eq_bindInLoops :
    some ((bindArgs host format args).run s) =
      (bindInLoops host format args s).map fun (looped, t) => (looped.binding, t) := by
  by_cases few : args.length < format.minArgs
  · rw [bindInLoops_few host format args s few, Binding.bindArgs_few host format args few]
    rfl
  · have enough := Nat.not_lt.1 few
    rw [bindInLoops_eq host format args s enough, Binding.run_bindArgs host format args s enough]
    have cut (values : List V) : (format.slots.zip values).take maxOutputSlots =
        (format.slots.take maxOutputSlots).zip (values.take maxOutputSlots) := List.take_zipWith
    simp only [Option.map_some, Looped.binding, Binding.verdict, Output.store, cut]
    split
    · rfl
    · rfl

end Loops

def Event.slot? : Event → Option (Nat × SlotKind × Bool)
  | slot index kind stored => some (index, kind, stored)
  | _ => none

private theorem Binding.filterMap_slotEvents (first : Nat) (kinds : List SlotKind) :
    (slotEvents first kinds).filterMap Event.slot? =
      kinds.mapIdx fun i kind => (first + i, kind, decide (first + i < maxOutputSlots)) := by
  induction kinds generalizing first with
  | nil => rfl
  | cons kind kinds ih =>
    have noted : (Event.slot first kind (first < maxOutputSlots)).slot? =
        some (first, kind, decide (first < maxOutputSlots)) := rfl
    rw [slotEvents, List.filterMap_cons_some noted, ih, List.mapIdx_cons]
    simp only [Nat.add_zero, Nat.add_assoc, Nat.add_comm 1]

/-- The slots that a shape describes are the slots that are filled, whatever the verdict: each of
them is noted once, in order, and the first of them are stored. Too few arguments fill none. -/
theorem bindArgs_layout (host : Host σ V) (format : Format) (args : List V) (s : σ) :
    ∃ looped t, bindInLoops host format args s = some (looped, t) ∧
      (bindArgs host format args).run s = (looped.binding, t) ∧
      format.slotCount = format.slots.length ∧
      (format.minArgs ≤ args.length →
        looped.events.filterMap Event.slot? =
          format.slots.mapIdx (fun i kind => (i, kind, decide (i < maxOutputSlots))) ∧
        ∀ rows, looped.result = .ok rows →
          rows.kinds = format.slots.take (min maxOutputSlots format.slotCount) ∧
          rows.values.length = rows.kinds.length ∧
          rows.output.kinds = rows.kinds ∧ rows.output.values = rows.values) ∧
      (args.length < format.minArgs → looped.events.filterMap Event.slot? = []) := by
  have agree := bindArgs_eq_bindInLoops host format args s
  by_cases few : args.length < format.minArgs
  · rw [bindInLoops_few host format args s few] at agree ⊢
    refine ⟨_, _, rfl, Option.some.inj agree, format.length_slots.symm,
      fun enough => absurd enough (Nat.not_le.2 few), fun _ => rfl⟩
  · have enough := Nat.not_lt.1 few
    have made := length_planned host format args s
    rw [bindInLoops_eq host format args s enough] at agree ⊢
    refine ⟨_, _, rfl, Option.some.inj agree, format.length_slots.symm, fun _ => ⟨?_, ?_⟩,
      fun short => absurd short few⟩
    · have other : (Event.keywords ((KeywordState.resolve host format args).run s).1).slot? =
          none := rfl
      rw [List.filterMap_cons_none other, Binding.filterMap_slotEvents]
      simp only [Nat.zero_add]
    · intro rows filled
      have all : format.slots.take (min maxOutputSlots format.slotCount) =
          format.slots.take maxOutputSlots := by
        rw [← List.take_take, ← format.length_slots, List.take_length]
      have same : ((planned host format args s).1.take maxOutputSlots).length =
          (format.slots.take maxOutputSlots).length := by
        rw [List.length_take, List.length_take, made]
      split at filled
      · cases filled
      · obtain rfl := Except.ok.inj filled
        exact ⟨all.symm, same, List.map_fst_zip (Nat.le_of_eq same.symm),
          List.map_snd_zip (Nat.le_of_eq same)⟩

end NativeCall
