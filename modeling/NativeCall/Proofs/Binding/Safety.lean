import Mathlib.Logic.Relation
import NativeCall.Proofs.Binding.Loops

/-!
Binding one step at a time. A step reads at most one argument, and stops where the argument is not
there or where a number below zero would be needed. `Binder.Sound` is what holds between any two
steps: the position in the arguments, together with what is still owed to the tail, never exceeds
their number. `bindArgs_inside` draws the conclusions for every call.
-/

set_option autoImplicit false
set_option relaxedAutoImplicit false

namespace NativeCall

variable {σ V : Type}

inductive Fault where
  | outOfBounds (position length : Nat)
  | underflow
  deriving DecidableEq, Repr

def Fault.before : Nat → Except Fault Nat
  | 0 => .error underflow
  | n + 1 => .ok n

private theorem Fault.before_of_pos {n : Nat} (pos : 0 < n) : Fault.before n = .ok (n - 1) := by
  cases n with
  | zero => exact absurd pos (Nat.lt_irrefl 0)
  | succ n => rfl

/-- How far a binder has come. Where slots are filled in turn, it is known how many are left. -/
inductive Stage (V : Type) where
  | leading (left : Nat)
  | optional (left : Nat)
  | rest
  | gathering (sequence : V)
  | trailing (left : Nat)
  | keywords
  | block
  | verdict

def Stage.isOpen : Stage V → Bool
  | optional _ | rest | gathering _ => true
  | leading _ | trailing _ | keywords | block | verdict => false

/-- A binder between two steps: with its work goes a record of the positions that it has read, and
of the kind of slot each was read for. -/
structure Binder (σ V : Type) where
  stage : Stage V
  keywords : KeywordState
  work : Work σ V
  reads : List (SlotKind × Nat) := []

namespace Binder

inductive Next (σ V : Type) where
  | working (binder : Binder σ V)
  | done (result : Except ScanError (Rows V))
  | stopped (fault : Fault)

def read (binder : Binder σ V) (args : List V) (kind : SlotKind) (position : Nat)
    (use : V → Binder σ V → Binder σ V) : Next σ V :=
  match args[position]? with
  | some v => .working (use v { binder with reads := binder.reads ++ [(kind, position)] })
  | none => .stopped (.outOfBounds position args.length)

def takeNext (binder : Binder σ V) (args : List V) (kind : SlotKind) (stage : Stage V) :
    Next σ V :=
  binder.read args kind binder.work.cursor.next fun v binder =>
    { binder with stage, work := (binder.work.produce kind (pure v)).advance 1 }

def make (binder : Binder σ V) (kind : SlotKind) (value : StateM σ V) (stage : Stage V) :
    Next σ V :=
  .working { binder with stage, work := binder.work.produce kind value }

section Steps

variable (host : Host σ V) (format : Format) (args : List V)

def step (binder : Binder σ V) : Next σ V :=
  match binder.stage with
  | .leading 0 => .working { binder with stage := .optional format.optional.toNat }
  | .leading (left + 1) => binder.takeNext args .leading (.leading left)
  | .optional 0 => .working { binder with stage := .rest }
  | .optional (left + 1) =>
    if binder.work.cursor.free then binder.takeNext args .optional (.optional left)
    else binder.make .optional host.nil (.optional left)
  | .rest =>
    if format.rest then
      let start := host.newSequence.run binder.work.state
      .working { binder with
        stage := .gathering start.1
        work := { binder.work with state := start.2 } }
    else .working { binder with stage := .trailing format.trailing.toNat }
  | .gathering sequence =>
    if binder.work.cursor.free then
      binder.read args .rest binder.work.cursor.next fun v binder =>
        let longer := (host.append sequence v).run binder.work.state
        { binder with
          stage := .gathering longer.1
          work := { binder.work.advance 1 with state := longer.2 } }
    else binder.make .rest (pure sequence) (.trailing format.trailing.toNat)
  | .trailing 0 => .working { binder with stage := .keywords }
  | .trailing (left + 1) => binder.takeNext args .trailing (.trailing left)
  | .keywords =>
    match binder.keywords with
    | .pending =>
      match Fault.before args.length with
      | .ok last =>
        binder.read args .keywords last fun v binder =>
          { binder with
            stage := .block
            keywords := .consumed
            work := binder.work.produce .keywords (pure v) }
      | .error fault => .stopped fault
    | .erased => binder.make .keywords host.nil .block
    | .notAccepted | .consumed => .working { binder with stage := .block }
  | .block =>
    .working { binder with
      stage := .verdict
      work := Work.takeBlock host format.block binder.work }
  | .verdict =>
    match if binder.keywords = .consumed then Fault.before args.length else .ok args.length with
    | .ok argc =>
      .done (if binder.work.cursor.next < argc then .error (Binding.wrongCount format argc)
        else .ok ⟨binder.work.writer.kinds, binder.work.writer.values, argc⟩)
    | .error fault => .stopped fault

def Reaches : Binder σ V → Binder σ V → Prop :=
  Relation.ReflTransGen fun before after => before.step host format args = .working after

def start (state : KeywordState) (s : σ) : Binder σ V where
  stage := .leading format.leading.toNat
  keywords := state
  work := ⟨s, .start format args.length (state == .pending), {}⟩

end Steps

/-- How much of the arguments must still be there at a stage: what the slots that are left take, and
up to the trailing slots what is reserved. -/
def Within (count reserved next : Nat) : Stage V → Prop
  | .leading left => next + left + reserved ≤ count
  | .optional _ | .rest | .gathering _ => next + reserved ≤ count
  | .trailing left => next + left ≤ count
  | .keywords | .block | .verdict => next ≤ count

/-- A position that may be read for a slot: only trailing slots and the keyword slot get reserved
arguments. -/
def Allowed (count reserved : Nat) (kind : SlotKind) (position : Nat) : Prop :=
  position < count ∧
    (kind = .leading ∨ kind = .optional ∨ kind = .rest → position + reserved < count)

/-- A binder that has read no argument it must not read, and finds those that it still needs. -/
structure Sound (format : Format) (count reserved : Nat) (binder : Binder σ V) : Prop where
  argc_eq : binder.work.cursor.argc = count
  reserved_eq : binder.work.cursor.reserved = reserved
  owed : format.trailing.toNat ≤ reserved
  within : Within count reserved binder.work.cursor.next binder.stage
  passed : binder.keywords = .pending ∨ binder.keywords = .consumed → 0 < count
  allowed : ∀ kind position, (kind, position) ∈ binder.reads →
    Allowed count reserved kind position

section Sound

variable {format : Format} {args : List V} {reserved : Nat} {binder : Binder σ V}

theorem Sound.note (sound : Sound format args.length reserved binder) {kind : SlotKind}
    {position : Nat} (allowed : Allowed args.length reserved kind position) :
    Sound format args.length reserved
      { binder with reads := binder.reads ++ [(kind, position)] } where
  argc_eq := sound.argc_eq
  reserved_eq := sound.reserved_eq
  owed := sound.owed
  within := sound.within
  passed := sound.passed
  allowed := by
    intro other place listed
    rcases List.mem_append.1 listed with old | new
    · exact sound.allowed other place old
    · obtain ⟨rfl, rfl⟩ := Prod.mk.inj (List.mem_singleton.1 new)
      exact allowed

def Next.Safe (format : Format) (count reserved : Nat) : Next σ V → Prop
  | .working binder => Sound format count reserved binder
  | .done _ => True
  | .stopped _ => False

theorem Sound.read (sound : Sound format args.length reserved binder) {kind : SlotKind}
    {position : Nat} {use : V → Binder σ V → Binder σ V}
    (allowed : Allowed args.length reserved kind position)
    (kept : ∀ v, let noted := { binder with reads := binder.reads ++ [(kind, position)] }
      Sound format args.length reserved noted → Sound format args.length reserved (use v noted)) :
    (binder.read args kind position use).Safe format args.length reserved := by
  rw [Binder.read, List.getElem?_eq_getElem allowed.1]
  exact kept _ (sound.note allowed)

private theorem Sound.takeNext (sound : Sound format args.length reserved binder) {kind : SlotKind}
    {stage : Stage V}
    (allowed : Allowed args.length reserved kind binder.work.cursor.next)
    (within : Within args.length reserved (binder.work.cursor.next + 1) stage) :
    (binder.takeNext args kind stage).Safe format args.length reserved :=
  sound.read allowed fun _ noted => { noted with within }

theorem Sound.make (sound : Sound format args.length reserved binder) (kind : SlotKind)
    (value : StateM σ V) {stage : Stage V}
    (within : Within args.length reserved binder.work.cursor.next stage) :
    (binder.make kind value stage).Safe format args.length reserved :=
  { sound with within }

private theorem sound_start (state : KeywordState) (s : σ)
    (possible : KeywordState.Possible format args.length state)
    (enough : format.minArgs ≤ args.length) :
    Sound format args.length (format.trailing.toNat + (state == .pending).toNat)
      (start format args state s) where
  argc_eq := rfl
  reserved_eq := rfl
  owed := Nat.le_add_right ..
  within := by
    have room := possible.room enough
    simp only [Format.minArgs] at room
    simp only [start, Cursor.start, Within]
    omega
  passed := by
    intro consumes
    cases possible with
    | notAccepted => simp [start] at consumes
    | pending _ more => exact Nat.lt_of_le_of_lt (Nat.zero_le _) more
    | erased => simp [start] at consumes
  allowed := by
    intro kind position listed
    cases listed

variable (host : Host σ V)

-- One lemma for each stage: a step from there does not stop, and what it leads to is sound.

private theorem Sound.step_leading (sound : Sound format args.length reserved binder) {left : Nat}
    (stage : binder.stage = .leading left) :
    (binder.step host format args).Safe format args.length reserved := by
  have within := sound.within
  rw [stage, Within] at within
  unfold Binder.step
  rw [stage]
  cases left with
  | zero => exact { sound with within := by simpa only [Within, Nat.add_zero] using within }
  | succ left =>
    apply sound.takeNext
    · exact ⟨by omega, fun _ => by omega⟩
    · simp only [Within]
      omega

private theorem Sound.step_optional (sound : Sound format args.length reserved binder) {left : Nat}
    (stage : binder.stage = .optional left) :
    (binder.step host format args).Safe format args.length reserved := by
  have argc := sound.argc_eq
  have kept := sound.reserved_eq
  have within := sound.within
  rw [stage, Within] at within
  unfold Binder.step
  rw [stage]
  cases left with
  | zero => exact { sound with within }
  | succ left =>
    dsimp only
    split
    · next unreserved =>
      simp only [Cursor.free, decide_eq_true_eq] at unreserved
      apply sound.takeNext
      · exact ⟨by omega, fun _ => by omega⟩
      · simp only [Within]
        omega
    · exact sound.make _ _ within

private theorem Sound.step_rest (sound : Sound format args.length reserved binder)
    (stage : binder.stage = .rest) :
    (binder.step host format args).Safe format args.length reserved := by
  have owed := sound.owed
  have within := sound.within
  rw [stage, Within] at within
  unfold Binder.step
  rw [stage]
  dsimp only
  split
  · exact { sound with within }
  · exact { sound with within := by simp only [Within]; omega }

private theorem Sound.step_gathering (sound : Sound format args.length reserved binder)
    {sequence : V} (stage : binder.stage = .gathering sequence) :
    (binder.step host format args).Safe format args.length reserved := by
  have argc := sound.argc_eq
  have kept := sound.reserved_eq
  have owed := sound.owed
  have within := sound.within
  rw [stage, Within] at within
  unfold Binder.step
  rw [stage]
  dsimp only
  split
  · next unreserved =>
    simp only [Cursor.free, decide_eq_true_eq] at unreserved
    apply sound.read
    · exact ⟨by omega, fun _ => by omega⟩
    · intro v noted sound
      exact { sound with
        within := by
          simp only [noted, Within, Work.advance, Cursor.advance]
          omega }
  · apply sound.make
    simp only [Within]
    omega

private theorem Sound.step_trailing (sound : Sound format args.length reserved binder) {left : Nat}
    (stage : binder.stage = .trailing left) :
    (binder.step host format args).Safe format args.length reserved := by
  have within := sound.within
  rw [stage, Within] at within
  unfold Binder.step
  rw [stage]
  cases left with
  | zero => exact { sound with within }
  | succ left =>
    apply sound.takeNext
    · refine ⟨by omega, ?_⟩
      rintro (other | other | other) <;> cases other
    · simp only [Within]
      omega

private theorem Sound.step_keywords (sound : Sound format args.length reserved binder)
    (stage : binder.stage = .keywords) :
    (binder.step host format args).Safe format args.length reserved := by
  have within := sound.within
  rw [stage, Within] at within
  unfold Binder.step
  rw [stage]
  dsimp only
  split
  · next state =>
    have passed := sound.passed (.inl state)
    rw [Fault.before_of_pos passed]
    apply sound.read
    · refine ⟨by omega, ?_⟩
      rintro (other | other | other) <;> cases other
    · intro v noted sound
      exact { sound with within, passed := fun _ => passed }
  · exact sound.make _ _ within
  · exact { sound with within }
  · exact { sound with within }

private theorem Sound.step_block (sound : Sound format args.length reserved binder)
    (stage : binder.stage = .block) :
    (binder.step host format args).Safe format args.length reserved := by
  have within := sound.within
  rw [stage, Within] at within
  unfold Binder.step
  rw [stage]
  dsimp only
  cases format.block with
  | true => exact { sound with within }
  | false => exact { sound with within }

private theorem Sound.step_verdict (sound : Sound format args.length reserved binder)
    (stage : binder.stage = .verdict) :
    (binder.step host format args).Safe format args.length reserved := by
  unfold Binder.step
  rw [stage]
  dsimp only
  split
  · exact trivial
  · next fault refused =>
    split at refused
    · next state =>
      rw [Fault.before_of_pos (sound.passed (.inr state))] at refused
      cases refused
    · cases refused

/-- No step stops, and each keeps the reserved arguments for the slots that they are owed to. -/
theorem Sound.step (sound : Sound format args.length reserved binder) :
    (binder.step host format args).Safe format args.length reserved := by
  cases stage : binder.stage with
  | leading left => exact sound.step_leading host stage
  | optional left => exact sound.step_optional host stage
  | rest => exact sound.step_rest host stage
  | gathering sequence => exact sound.step_gathering host stage
  | trailing left => exact sound.step_trailing host stage
  | keywords => exact sound.step_keywords host stage
  | block => exact sound.step_block host stage
  | verdict => exact sound.step_verdict host stage

theorem Sound.reaches (sound : Sound format args.length reserved binder) {later : Binder σ V}
    (reaches : binder.Reaches host format args later) :
    Sound format args.length reserved later := by
  induction reaches with
  | refl => exact sound
  | tail _ working ih =>
    have next := ih.step host
    rw [working] at next
    exact next

end Sound

section Runs

variable (host : Host σ V) (format : Format) {args : List V} {work after : Work σ V}
  (state : KeywordState) (reads : List (SlotKind × Nat))

private theorem reaches_takeEach {kind : SlotKind} (stage : Nat → Stage V)
    (steps : ∀ (binder : Binder σ V) (left : Nat), binder.stage = stage (left + 1) →
      binder.step host format args = binder.takeNext args kind (stage left))
    {count : Nat} (taken : Work.takeEach args kind count work = some after) :
    ∃ more, Reaches host format args ⟨stage count, state, work, reads⟩
      ⟨stage 0, state, after, more⟩ := by
  induction count generalizing work reads with
  | zero =>
    cases taken
    exact ⟨reads, .refl⟩
  | succ count ih =>
    rw [Work.takeEach] at taken
    obtain ⟨v, found, others⟩ := Option.bind_eq_some_iff.1 taken
    obtain ⟨more, reaches⟩ := ih (reads ++ [(kind, work.cursor.next)]) others
    refine ⟨more, .head ?_ reaches⟩
    rw [steps _ count rfl]
    simp only [takeNext, read, found]

private theorem reaches_takeFree {count : Nat}
    (taken : Work.takeFree host args count work = some after) :
    ∃ more, Reaches host format args ⟨.optional count, state, work, reads⟩
      ⟨.optional 0, state, after, more⟩ := by
  induction count generalizing work reads with
  | zero =>
    cases taken
    exact ⟨reads, .refl⟩
  | succ count ih =>
    rw [Work.takeFree] at taken
    split at taken
    · next unreserved =>
      obtain ⟨v, found, others⟩ := Option.bind_eq_some_iff.1 taken
      obtain ⟨more, reaches⟩ := ih (reads ++ [(.optional, work.cursor.next)]) others
      refine ⟨more, .head ?_ reaches⟩
      simp only [step, unreserved, ↓reduceIte, takeNext, read, found]
    · next reserved =>
      obtain ⟨more, reaches⟩ := ih reads taken
      refine ⟨more, .head ?_ reaches⟩
      simp only [step, reserved, Bool.false_eq_true, ↓reduceIte, make]

private theorem reaches_gather {sequence longest : V}
    (gathered : Work.gather host args sequence work = some (longest, after)) :
    ∃ more, Reaches host format args ⟨.gathering sequence, state, work, reads⟩
      ⟨.trailing format.trailing.toNat, state, after.produce .rest (pure longest), more⟩ := by
  induction sequence, work using Work.gather.induct host generalizing reads with
  | case1 sequence work unreserved ih =>
    rw [Work.gather, if_pos unreserved] at gathered
    obtain ⟨v, found, others⟩ := Option.bind_eq_some_iff.1 gathered
    obtain ⟨more, reaches⟩ := ih v (reads ++ [(.rest, work.cursor.next)]) others
    refine ⟨more, .head ?_ reaches⟩
    simp only [step, unreserved, ↓reduceIte, read, found]
  | case2 sequence work reserved =>
    rw [Work.gather, if_neg reserved] at gathered
    cases gathered
    refine ⟨reads, .single ?_⟩
    simp only [step, reserved, Bool.false_eq_true, ↓reduceIte, make]

private theorem reaches_takeRest (taken : Work.takeRest host args format.rest work = some after) :
    ∃ more, Reaches host format args ⟨.rest, state, work, reads⟩
      ⟨.trailing format.trailing.toNat, state, after, more⟩ := by
  cases rest : format.rest with
  | false =>
    rw [rest] at taken
    cases taken
    refine ⟨reads, .single ?_⟩
    simp only [step, rest, Bool.false_eq_true, ↓reduceIte]
  | true =>
    rw [rest, Work.takeRest, if_pos rfl] at taken
    obtain ⟨⟨longest, last⟩, gathered, made⟩ := Option.bind_eq_some_iff.1 taken
    cases made
    obtain ⟨more, reaches⟩ := reaches_gather host format state reads gathered
    refine ⟨more, .head ?_ reaches⟩
    simp only [step, rest, ↓reduceIte]

private theorem reaches_takeKeywords {settled : KeywordState}
    (taken : Work.takeKeywords host args state work = some (settled, after)) :
    ∃ more, Reaches host format args ⟨.keywords, state, work, reads⟩
      ⟨.block, settled, after, more⟩ := by
  cases state with
  | pending =>
    obtain ⟨v, found, made⟩ := Option.bind_eq_some_iff.1 taken
    cases made
    have passed : 0 < args.length := by
      have bound := (List.getElem?_eq_some_iff.1 found).1
      omega
    refine ⟨reads ++ [(.keywords, args.length - 1)], .single ?_⟩
    simp only [step, Fault.before_of_pos passed, read, found]
  | erased | notAccepted | consumed =>
    cases taken
    exact ⟨reads, .single rfl⟩

private theorem reaches_takeAll {settled : KeywordState}
    (taken : Work.takeAll host args format state work = some (settled, after)) :
    ∃ more, Reaches host format args ⟨.leading format.leading.toNat, state, work, reads⟩
      ⟨.verdict, settled, after, more⟩ := by
  obtain ⟨first, leading, taken⟩ := Option.bind_eq_some_iff.1 taken
  obtain ⟨second, optional, taken⟩ := Option.bind_eq_some_iff.1 taken
  obtain ⟨third, rest, taken⟩ := Option.bind_eq_some_iff.1 taken
  obtain ⟨fourth, trailing, taken⟩ := Option.bind_eq_some_iff.1 taken
  obtain ⟨⟨_, fifth⟩, keywords, taken⟩ := Option.bind_eq_some_iff.1 taken
  cases taken
  obtain ⟨reads, toLeading⟩ := reaches_takeEach host format state reads .leading
    (fun binder left stage => by simp only [step, stage]) leading
  obtain ⟨reads, toOptional⟩ := reaches_takeFree host format state reads optional
  obtain ⟨reads, toRest⟩ := reaches_takeRest host format state reads rest
  obtain ⟨reads, toTrailing⟩ := reaches_takeEach host format state reads .trailing
    (fun binder left stage => by simp only [step, stage]) trailing
  obtain ⟨reads, toKeywords⟩ := reaches_takeKeywords host format state reads keywords
  -- a loop that is over makes room for the next one
  have optional := (toLeading.tail rfl).trans toOptional
  have rest := (optional.tail rfl).trans toRest
  have trailing := rest.trans toTrailing
  have keywords := (trailing.tail rfl).trans toKeywords
  exact ⟨reads, keywords.tail rfl⟩

private theorem before_of_possible {count : Nat}
    (possible : KeywordState.Possible format count state) :
    (if state.settled = .consumed then Fault.before count else .ok count) =
      .ok (if state.settled = .consumed then count - 1 else count) := by
  cases possible with
  | notAccepted => rfl
  | erased => rfl
  | pending _ more => exact Fault.before_of_pos (Nat.lt_of_le_of_lt (Nat.zero_le _) more)

/-- With enough arguments, the steps of a binder come to an end, and leave what binding leaves. -/
theorem start_completes (args : List V) (s : σ) (enough : format.minArgs ≤ args.length) :
    let resolved := (KeywordState.resolve host format args).run s
    ∃ last result, Reaches host format args (start format args resolved.1 resolved.2) last ∧
      last.step host format args = .done result ∧
      (bindArgs host format args).run s =
        (⟨result.map Rows.output, .keywords resolved.1 :: last.work.writer.events⟩,
          last.work.state) := by
  intro resolved
  have possible := KeywordState.resolve_possible host format args s
  have taken := Work.takeAll_eq host (start format args resolved.1 resolved.2).work rfl enough
    possible
  obtain ⟨reads, reaches⟩ := reaches_takeAll host format resolved.1 [] taken
  have counted := before_of_possible format resolved.1 possible
  have agree := bindArgs_eq_bindInLoops host format args s
  rw [bindInLoops, if_neg (Nat.not_lt.2 enough)] at agree
  change _ = ((Work.takeAll host args format resolved.1
    (start format args resolved.1 resolved.2).work).bind _).map _ at agree
  rw [taken] at agree
  refine ⟨_, _, reaches, ?_, Option.some.inj agree⟩
  simp only [step, counted]

end Runs

end Binder

/-- No call stops a binder. Too few arguments are refused before any is read. Otherwise the steps of
the binder come to an end as binding does, and between any two of them the next step does not stop,
every position that was read lies inside the arguments, and the reserved tail is intact: no slot
before the trailing ones has taken an argument of it, and the position is not past it while optional
slots and the rest slot are filled. -/
theorem bindArgs_inside (host : Host σ V) (format : Format) (args : List V) (s : σ) :
    (args.length < format.minArgs →
      (bindArgs host format args).run s =
        (⟨.error (Binding.wrongCount format args.length), []⟩, s)) ∧
    (format.minArgs ≤ args.length →
      let resolved := (KeywordState.resolve host format args).run s
      let reserved := format.trailing.toNat + (resolved.1 == .pending).toNat
      let start := Binder.start format args resolved.1 resolved.2
      (∃ last result, start.Reaches host format args last ∧
        last.step host format args = .done result ∧
        (bindArgs host format args).run s =
          (⟨result.map Rows.output, .keywords resolved.1 :: last.work.writer.events⟩,
            last.work.state)) ∧
      ∀ binder, start.Reaches host format args binder →
        (∀ fault, binder.step host format args ≠ .stopped fault) ∧
        (∀ kind position, (kind, position) ∈ binder.reads →
          position < args.length ∧
          (kind = .leading ∨ kind = .optional ∨ kind = .rest →
            position + reserved < args.length)) ∧
        (binder.stage = .leading 0 ∨ binder.stage.isOpen = true →
          binder.work.cursor.next + reserved ≤ args.length)) := by
  refine ⟨fun few => ?_, fun enough => ?_⟩
  · rw [Binding.bindArgs_few host format args few, run_pure]
  · intro resolved reserved start
    refine ⟨Binder.start_completes host format args s enough, ?_⟩
    intro binder reaches
    have possible := KeywordState.resolve_possible host format args s
    have sound := (Binder.sound_start resolved.1 resolved.2 possible enough).reaches host reaches
    refine ⟨?_, sound.allowed, ?_⟩
    · intro fault stopped
      have safe := sound.step host
      rw [stopped] at safe
      exact safe
    · have within := sound.within
      rintro (ended | unfilled)
      · rw [ended] at within
        exact within
      · cases stage : binder.stage with
        | optional | rest | gathering =>
          rw [stage] at within
          exact within
        | leading | trailing | keywords | block | verdict =>
          rw [stage] at unfilled
          cases unfilled

end NativeCall
