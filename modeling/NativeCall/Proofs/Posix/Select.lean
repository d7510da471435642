import Mathlib.Data.List.Dedup
import NativeCall.Posix.Select

/-!
Waiting for descriptors leaves the three lists as they are, or rewrites each of them by what is
ready. `gather_cases` says what putting a list into a set yields, `prepare_cases` what the system is
asked, and `selectWith_rewrites` what becomes of the lists with a system of any kind that answers
for a part of each set.
-/

set_option autoImplicit false
set_option relaxedAutoImplicit false

namespace NativeCall.Posix

inductive Way where
  | read
  | write
  | except
  deriving DecidableEq

def Triple.of {α : Type} (t : Triple α) : Way → α
  | .read => t.read
  | .write => t.write
  | .except => t.except

namespace Select

def Fits (descriptor : Int32) : Prop :=
  0 ≤ descriptor.toInt ∧ descriptor.toInt < setSize

private theorem inRange_iff (descriptor : Int32) : inRange descriptor = true ↔ Fits descriptor := by
  rw [inRange, Bool.and_eq_true, decide_eq_true_iff, decide_eq_true_iff, Fits]

private theorem toInt_max (a b : Int32) : (max a b).toInt = max a.toInt b.toInt := by
  change (if a ≤ b then b else a).toInt = _
  rw [Int.max_def, apply_ite Int32.toInt]
  simp only [Int32.le_iff_toInt_le]

/-- What a list adds to a set and to the greatest descriptor before it. -/
structure Gathered (set : List Int32) (greatest : Int32) (list set' : List Int32)
    (greatest' : Int32) : Prop where
  mem_iff : ∀ d, d ∈ set' ↔ d ∈ set ∨ d ∈ list
  raised : greatest.toInt ≤ greatest'.toInt
  covers : ∀ d ∈ list, d.toInt ≤ greatest'.toInt
  source : greatest' = greatest ∨ greatest' ∈ list

theorem Gathered.nil (set : List Int32) (greatest : Int32) :
    Gathered set greatest [] set greatest where
  mem_iff := fun d => by simp only [List.not_mem_nil, or_false]
  raised := Int.le_refl _
  covers := List.forall_mem_nil _
  source := .inl rfl

theorem Gathered.cons {set set' : List Int32} {greatest greatest' descriptor : Int32}
    {list : List Int32}
    (others : Gathered (set.insert descriptor) (max greatest descriptor) list set' greatest') :
    Gathered set greatest (descriptor :: list) set' greatest' where
  mem_iff := by
    intro d
    rw [others.mem_iff, List.mem_insert_iff, List.mem_cons]
    constructor
    · rintro ((first | before) | later)
      · exact .inr (.inl first)
      · exact .inl before
      · exact .inr (.inr later)
    · rintro (before | first | later)
      · exact .inl (.inr before)
      · exact .inl (.inl first)
      · exact .inr later
  raised := by
    have raised := others.raised
    rw [toInt_max] at raised
    exact Int.le_trans (Int.le_max_left _ _) raised
  covers := by
    have raised := others.raised
    rw [toInt_max] at raised
    exact List.forall_mem_cons.2 ⟨Int.le_trans (Int.le_max_right _ _) raised, others.covers⟩
  source := by
    rcases others.source with same | later
    · by_cases less : greatest ≤ descriptor
      · have first : max greatest descriptor = descriptor := if_pos less
        exact .inr (List.mem_cons.2 (.inl (same.trans first)))
      · have before : max greatest descriptor = greatest := if_neg less
        exact .inl (same.trans before)
    · exact .inr (List.mem_cons_of_mem _ later)

theorem Gathered.fits {set list set' : List Int32} {greatest greatest' : Int32}
    (gathered : Gathered set greatest list set' greatest') (all : ∀ d ∈ list, Fits d)
    (before : Fits greatest) : Fits greatest' := by
  rcases gathered.source with same | listed
  · rw [same]
    exact before
  · exact all greatest' listed

private theorem gather_cases (set : List Int32) (greatest : Int32) (list : List Int32) :
    ((∃ d ∈ list, ¬ Fits d) ∧ gather set greatest list = .error .invalidArgument) ∨
    ((∀ d ∈ list, Fits d) ∧ ∃ set' greatest', gather set greatest list = .ok (set', greatest') ∧
      Gathered set greatest list set' greatest') := by
  induction list generalizing set greatest with
  | nil => exact .inr ⟨List.forall_mem_nil _, set, greatest, rfl, .nil set greatest⟩
  | cons descriptor list ih =>
    rw [gather]
    by_cases fits : Fits descriptor
    · rw [if_pos ((inRange_iff descriptor).2 fits)]
      rcases ih (set.insert descriptor) (max greatest descriptor) with
        ⟨⟨d, listed, bad⟩, refused⟩ | ⟨all, set', greatest', gathered, others⟩
      · exact .inl ⟨⟨d, List.mem_cons_of_mem _ listed, bad⟩, refused⟩
      · exact .inr ⟨List.forall_mem_cons.2 ⟨fits, all⟩, set', greatest', gathered, others.cons⟩
    · have refused : ¬ inRange descriptor = true := fun fit => fits ((inRange_iff descriptor).1 fit)
      rw [if_neg refused]
      exact .inl ⟨⟨descriptor, List.mem_cons_self, fits⟩, rfl⟩

/-- The system is asked for exactly the listed descriptors, about a range that covers them all, and
to wait no longer than it should. -/
structure Request.Asks (request : Request) (lists : Descriptors) (micros : Int) : Prop where
  mem_iff : ∀ way d, d ∈ request.sets.of way ↔ d ∈ lists.of way
  covers : ∀ way, ∀ d ∈ lists.of way, 0 ≤ d.toInt ∧ d.toInt < request.limit.toInt
  limit_pos : 0 < request.limit.toInt
  limit_le : request.limit.toInt ≤ setSize
  endless : request.timeout = none ↔ micros < 0
  timed : ∀ t, request.timeout = some t →
    t.seconds * 1000000 + t.micros = micros ∧ 0 ≤ t.micros ∧ t.micros < 1000000

private theorem timeout_eq_none_iff (micros : Int) : timeout micros = none ↔ micros < 0 := by
  rw [timeout]
  split
  · next given =>
    simp only [reduceCtorEq, false_iff]
    omega
  · next negative =>
    simp only [true_iff]
    omega

private theorem timeout_eq_some {micros : Int} {t : Timeout} (given : timeout micros = some t) :
    t.seconds * 1000000 + t.micros = micros ∧ 0 ≤ t.micros ∧ t.micros < 1000000 := by
  rw [timeout] at given
  split at given
  · obtain rfl := Option.some.inj given
    dsimp only
    omega
  · cases given

private theorem toInt_add_one {greatest : Int32} (fits : Fits greatest) :
    (greatest + 1).toInt = greatest.toInt + 1 := by
  obtain ⟨nonneg, less⟩ := fits
  have one : (1 : Int32).toInt = 1 := rfl
  rw [setSize] at less
  rw [Int32.toInt_add, one]
  exact Int.bmod_eq_of_le (by omega) (by omega)

private theorem asks_of_gathered {lists sets : Descriptors} {first second third : Int32}
    (fits : ∀ way, ∀ d ∈ lists.of way, Fits d)
    (reads : Gathered [] 0 lists.read sets.read first)
    (writes : Gathered [] first lists.write sets.write second)
    (excepts : Gathered [] second lists.except sets.except third) (micros : Int) :
    Request.Asks ⟨third + 1, sets, timeout micros⟩ lists micros := by
  have zero : Fits 0 := ⟨by decide, by decide⟩
  have greatest : Fits third :=
    excepts.fits (fits .except) (writes.fits (fits .write) (reads.fits (fits .read) zero))
  have limit := toInt_add_one greatest
  obtain ⟨nonneg, less⟩ := greatest
  have writesRaised := writes.raised
  have exceptsRaised := excepts.raised
  refine ⟨?_, ?_, ?_, ?_, timeout_eq_none_iff micros, fun t => timeout_eq_some⟩
  · intro way d
    cases way
    · exact (reads.mem_iff d).trans (or_iff_right List.not_mem_nil)
    · exact (writes.mem_iff d).trans (or_iff_right List.not_mem_nil)
    · exact (excepts.mem_iff d).trans (or_iff_right List.not_mem_nil)
  · intro way d listed
    have below : d.toInt ≤ third.toInt := by
      cases way with
      | read =>
        have covered := reads.covers d listed
        omega
      | write =>
        have covered := writes.covers d listed
        omega
      | except => exact excepts.covers d listed
    refine ⟨(fits way d listed).1, ?_⟩
    rw [limit]
    omega
  · rw [limit]
    omega
  · rw [limit]
    omega

private theorem prepare_cases (lists : Descriptors) (micros : Int) :
    ((∃ way, ∃ d ∈ lists.of way, ¬ Fits d) ∧
      prepare lists micros = .error .invalidArgument) ∨
    ((∀ way, ∀ d ∈ lists.of way, Fits d) ∧ ∃ request, prepare lists micros = .ok request ∧
      request.Asks lists micros) := by
  rw [prepare]
  rcases gather_cases [] 0 lists.read with
    ⟨⟨d, listed, bad⟩, refused⟩ | ⟨readFits, read, first, readOk, reads⟩
  · refine .inl ⟨⟨.read, d, listed, bad⟩, ?_⟩
    rw [refused]
    rfl
  rcases gather_cases [] first lists.write with
    ⟨⟨d, listed, bad⟩, refused⟩ | ⟨writeFits, write, second, writeOk, writes⟩
  · refine .inl ⟨⟨.write, d, listed, bad⟩, ?_⟩
    simp only [readOk, refused, bind, Except.bind]
  rcases gather_cases [] second lists.except with
    ⟨⟨d, listed, bad⟩, refused⟩ | ⟨exceptFits, except, third, exceptOk, excepts⟩
  · refine .inl ⟨⟨.except, d, listed, bad⟩, ?_⟩
    simp only [readOk, writeOk, refused, bind, Except.bind]
  have fits : ∀ way, ∀ d ∈ lists.of way, Fits d := by
    intro way
    cases way
    · exact readFits
    · exact writeFits
    · exact exceptFits
  refine .inr ⟨fits, ⟨third + 1, ⟨read, write, except⟩, timeout micros⟩, ?_,
    asks_of_gathered fits reads writes excepts micros⟩
  simp only [readOk, writeOk, exceptOk, bind, Except.bind]
  rfl

/-- A list in which a descriptor keeps its place if it is in the set, and has a mark there if
not. -/
structure Marked (list set list' : List Int32) : Prop where
  length_eq : list'.length = list.length
  kept : ∀ (i : Nat) (d : Int32), list[i]? = some d → d ∈ set → list'[i]? = some d
  marked : ∀ (i : Nat) (d : Int32), list[i]? = some d → d ∉ set → list'[i]? = some notReady

private theorem marked_markReady (list set : List Int32) :
    Marked list set (markReady list set) where
  length_eq := List.length_map _
  kept := by
    intro i d listed ready
    rw [markReady, List.getElem?_map, listed]
    simp only [Option.map_some, List.contains_eq_mem, ready, decide_true, if_true]
  marked := by
    intro i d listed waiting
    rw [markReady, List.getElem?_map, listed]
    simp only [Option.map_some, List.contains_eq_mem, waiting, decide_false, Bool.false_eq_true,
      if_false]

def unmarked (list : List Int32) : Nat :=
  list.countP (· != notReady)

private theorem Fits.ne_notReady {d : Int32} (fits : Fits d) : d ≠ notReady := by
  rintro rfl
  exact absurd fits.1 (by decide)

private theorem unmarked_markReady {list set : List Int32} (fits : ∀ d ∈ list, Fits d)
    (distinct : list.Nodup) (inside : ∀ d ∈ set, d ∈ list) :
    unmarked (markReady list set) = set.dedup.length := by
  have same : ∀ d ∈ list, ((· != notReady) ∘ fun d => if set.contains d then d else notReady) d =
      set.contains d := by
    intro d listed
    have real := (fits d listed).ne_notReady
    by_cases ready : d ∈ set
    · simp only [Function.comp_apply, List.contains_eq_mem, ready, decide_true, if_true, bne_iff_ne,
        ne_eq, real, not_false_eq_true]
    · simp only [Function.comp_apply, List.contains_eq_mem, ready, decide_false,
        Bool.false_eq_true, if_false, bne_self_eq_false]
  have perm : (list.filter set.contains).Perm set.dedup := by
    rw [List.perm_ext_iff_of_nodup (distinct.filter _) set.nodup_dedup]
    intro d
    rw [List.mem_filter, List.contains_iff_mem, List.mem_dedup]
    exact ⟨fun both => both.2, fun ready => ⟨inside d ready, ready⟩⟩
  rw [unmarked, markReady, List.countP_map, List.countP_congr fun d listed => by rw [same d listed],
    List.countP_eq_length_filter]
  exact perm.length_eq

def remaining (sets : Descriptors) : Nat :=
  sets.read.dedup.length + sets.write.dedup.length + sets.except.dedup.length

/-- An answer of a system that takes descriptors away from the sets it was given and counts what it
leaves in them. -/
structure Ready.Honest (ready : Ready) (request : Request) : Prop where
  inside : ∀ way, ∀ d ∈ ready.sets.of way, d ∈ request.sets.of way
  counted : ready.count = remaining ready.sets

private theorem unmarked_settled {lists : Descriptors} {micros : Int} {request : Request}
    {ready : Ready} (fits : ∀ way, ∀ d ∈ lists.of way, Fits d) (asks : request.Asks lists micros)
    (honest : ready.Honest request) (distinct : ∀ way, (lists.of way).Nodup) (way : Way) :
    unmarked (markReady (lists.of way) (ready.sets.of way)) = (ready.sets.of way).dedup.length := by
  apply unmarked_markReady (fits way) (distinct way)
  intro d ready
  exact (asks.mem_iff way d).1 (honest.inside way d ready)

variable {σ : Type}

private theorem run_selectWith (ask : Request → StateM σ (Except Errno Ready)) {lists : Descriptors}
    {micros : Int} {request : Request} (prepared : prepare lists micros = .ok request) (s : σ) :
    (selectWith ask lists micros).run s =
      (settle lists ((ask request).run s).1, ((ask request).run s).2) := by
  rw [selectWith, prepared]
  rfl

/-- A descriptor that does not fit in a set is refused before the system is asked. Otherwise the
system is asked once, about all listed descriptors. If it fails or finds nothing ready, the lists
stay as they are; if not, every list keeps the descriptors that remain in its own set and has marks
in the other places, and without repeats as many places hold no mark as the system has counted. -/
theorem selectWith_rewrites (ask : Request → StateM σ (Except Errno Ready)) (lists : Descriptors)
    (micros : Int) (s : σ) :
    ((∃ way, ∃ d ∈ lists.of way, ¬ Fits d) →
      (selectWith ask lists micros).run s = ((.error .invalidArgument, lists), s)) ∧
    ((∀ way, ∀ d ∈ lists.of way, Fits d) → ∃ request : Request, request.Asks lists micros ∧
      (∀ e s', (ask request).run s = (.error e, s') →
        (selectWith ask lists micros).run s = ((.error e, lists), s')) ∧
      (∀ ready s', (ask request).run s = (.ok ready, s') →
        (ready.count = 0 → (selectWith ask lists micros).run s = ((.ok 0, lists), s')) ∧
        (0 < ready.count → ∃ lists' : Descriptors,
          (selectWith ask lists micros).run s = ((.ok ready.count, lists'), s') ∧
          (∀ way, Marked (lists.of way) (ready.sets.of way) (lists'.of way)) ∧
          (ready.Honest request → (∀ way, (lists.of way).Nodup) →
            ready.count =
              unmarked lists'.read + unmarked lists'.write + unmarked lists'.except)))) ∧
    (∀ system : System, (∀ request, ask request = pure (system request)) →
      ((selectWith ask lists micros).run s).1 = select system lists micros) := by
  refine ⟨?_, ?_, ?_⟩
  · rintro ⟨way, d, listed, bad⟩
    rcases prepare_cases lists micros with ⟨-, refused⟩ | ⟨fits, -⟩
    · rw [selectWith, refused]
      rfl
    · exact absurd (fits way d listed) bad
  · intro fits
    rcases prepare_cases lists micros with ⟨⟨way, d, listed, bad⟩, -⟩ | ⟨-, request, prepared, asks⟩
    · exact absurd (fits way d listed) bad
    have run := run_selectWith ask prepared s
    refine ⟨request, asks, ?_, ?_⟩
    · intro e s' failed
      rw [run, failed]
      rfl
    · intro ready s' answered
      rw [run, answered]
      refine ⟨?_, ?_⟩
      · intro none
        simp only [settle, none, Nat.lt_irrefl, if_false]
      · intro some
        refine ⟨lists.zipWith markReady ready.sets, ?_, ?_, ?_⟩
        · simp only [settle, some, if_true]
        · intro way
          cases way <;> exact marked_markReady _ _
        · intro honest distinct
          have places := unmarked_settled fits asks honest distinct
          have read := places .read
          have write := places .write
          have except := places .except
          rw [honest.counted, remaining]
          exact (congrArg₂ _ (congrArg₂ _ read write) except).symm
  · intro system pure_ask
    rw [select, selectWith, selectWith]
    cases prepare lists micros with
    | error e => rfl
    | ok request =>
      dsimp only
      rw [pure_ask]
      rfl

theorem selectWith_rewrites_two_ready :
    let lists : Descriptors := ⟨[1, 0], [0], [2]⟩
    let ready : Ready := ⟨2, ⟨[1], [], [2]⟩⟩
    let ask : Request → StateM Nat (Except Errno Ready) := fun _ calls => (.ok ready, calls + 1)
    (∃ request, ready.Honest request ∧ request.Asks lists (-1)) ∧
      (∀ way, (lists.of way).Nodup) ∧
      ∃ lists' : Descriptors, (selectWith ask lists (-1)).run 0 = ((.ok 2, lists'), 1) ∧
        (∀ way, Marked (lists.of way) (ready.sets.of way) (lists'.of way)) ∧
        2 = unmarked lists'.read + unmarked lists'.write + unmarked lists'.except := by
  intro lists ready ask
  have fits : ∀ way, ∀ d ∈ lists.of way, Fits d := by
    intro way
    cases way <;> simp [lists, Triple.of, Fits, setSize]
  have distinct : ∀ way, (lists.of way).Nodup := by
    intro way
    cases way <;> decide
  obtain ⟨request, asks, -, answered⟩ := (selectWith_rewrites ask lists (-1) 0).2.1 fits
  have honest : ready.Honest request := by
    refine ⟨fun way d held => (asks.mem_iff way d).2 ?_, rfl⟩
    cases way with
    | read => exact List.mem_cons.2 (.inl (List.mem_singleton.1 held))
    | write => cases held
    | except => exact held
  obtain ⟨lists', run, marked, count⟩ := (answered ready 1 rfl).2 (by decide)
  exact ⟨⟨request, honest, asks⟩, distinct, lists', run, marked, count honest distinct⟩

end Select

private theorem nodup_eraseDups (list : List Int32) : list.eraseDups.Nodup := by
  -- the tail is filtered before its own repeats are erased, so that the induction is on the length
  induction length : list.length using Nat.strongRecOn generalizing list with
  | ind count ih =>
    cases list with
    | nil => exact List.nodup_nil
    | cons d list =>
      have shorter : (list.filter fun other => !other == d).length < count := by
        have filtered := List.length_filter_le (fun other => !other == d) list
        rw [List.length_cons] at length
        omega
      rw [List.eraseDups_cons, List.nodup_cons]
      refine ⟨?_, ih _ shorter _ rfl⟩
      simp only [List.mem_eraseDups, List.mem_filter, beq_self_eq_true, Bool.not_true,
        Bool.false_eq_true, and_false, not_false_eq_true]

/-- Sockets answer for what they were asked. -/
theorem Socket.honest_system {sockets : List Socket} {request : Select.Request}
    {ready : Select.Ready} (answered : Socket.system sockets request = .ok ready) :
    Select.Ready.Honest ready request := by
  unfold system at answered
  dsimp only at answered
  split at answered
  · obtain rfl := Except.ok.inj answered
    refine ⟨?_, ?_⟩
    · intro way d held
      cases way with
      | read => exact List.mem_eraseDups.1 (List.mem_filter.1 held).1
      | write => exact List.mem_eraseDups.1 (List.mem_filter.1 held).1
      | except => cases held
    · have distinct (set : List Int32) (p : Int32 → Bool) :
          (set.eraseDups.filter p).dedup = set.eraseDups.filter p :=
        ((nodup_eraseDups set).filter p).dedup
      simp only [Select.remaining, distinct, List.dedup_nil]
  · cases answered

example : select (Socket.system [.idle, .data, .full]) ⟨[1, 0, 1], [2, 0], [1]⟩ (-1) =
    (.ok 2, ⟨[1, -1, 1], [-1, 0], [-1]⟩) := by decide

end NativeCall.Posix
