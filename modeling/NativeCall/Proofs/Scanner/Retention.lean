import Mathlib.Data.List.DropRight
import Mathlib.Data.List.ReduceOption
import NativeCall.Proofs.Scanner.Memoization

/-!
What a memo holds at any point of a run. Since it last forgot everything, it has kept the first
distinct texts that are formats, as many as it has room for, and nothing else: `Memo.run_retains`
says so, together with how each request is answered and counted.
-/

set_option autoImplicit false
set_option relaxedAutoImplicit false

namespace NativeCall.Memo

def sinceGap {α : Type} (items : List (Option α)) : List α :=
  (items.rtakeWhile Option.isSome).reduceOption

private theorem sinceGap_concat_some {α : Type} (items : List (Option α)) (a : α) :
    sinceGap (items ++ [some a]) = sinceGap items ++ [a] := by
  rw [sinceGap, List.rtakeWhile_concat, Option.isSome_some, if_pos rfl,
    List.reduceOption_append]
  rfl

private theorem sinceGap_concat_none {α : Type} (items : List (Option α)) :
    sinceGap (items ++ [none]) = [] := by
  rw [sinceGap, List.rtakeWhile_concat, Option.isSome_none, if_neg Bool.false_ne_true]
  rfl

abbrev Reply := Except ScanError (Format × Bool)

def served : Reply → Bool
  | .ok (_, cached) => cached
  | .error _ => false

def Step.text? : Step → Option String
  | request text => some text
  | clear => none

def requested (steps : List Step) : List String :=
  sinceGap (steps.map Step.text?)

def isFormat (text : String) : Bool :=
  (Format.parse text).isOk

/-- The distinct formats among the requested texts, in the order in which they first came. -/
def formats (steps : List Step) : List String :=
  ((requested steps).filter isFormat).eraseDups

private theorem requested_request (steps : List Step) (text : String) :
    requested (steps ++ [.request text]) = requested steps ++ [text] := by
  rw [requested, List.map_append]
  exact sinceGap_concat_some ..

private theorem requested_clear (steps : List Step) : requested (steps ++ [.clear]) = [] := by
  rw [requested, List.map_append]
  exact sinceGap_concat_none _

private theorem mem_formats (steps : List Step) (text : String) :
    text ∈ formats steps ↔ text ∈ requested steps ∧ isFormat text = true := by
  rw [formats, List.mem_eraseDups, List.mem_filter]

private theorem formats_request (steps : List Step) (text : String) :
    formats (steps ++ [.request text]) =
      if isFormat text = true ∧ text ∉ formats steps then formats steps ++ [text]
      else formats steps := by
  have grown : formats (steps ++ [.request text]) =
      formats steps ++
        (([text].filter isFormat).removeAll ((requested steps).filter isFormat)).eraseDups := by
    rw [formats, requested_request, List.filter_append, List.eraseDups_append]
    rfl
  have member := mem_formats steps text
  rw [grown]
  by_cases valid : isFormat text = true
  · by_cases known : text ∈ requested steps
    · simp [member, valid, known, List.removeAll]
    · simp [member, valid, known, List.removeAll, List.eraseDups_cons]
  · simp [valid, List.removeAll]

private theorem formats_clear (steps : List Step) : formats (steps ++ [.clear]) = [] := by
  rw [formats, requested_clear]
  rfl

private theorem take_concat_new {α : Type} [DecidableEq α] (capacity : Nat) (items : List α)
    (a : α) : (if a ∉ items then items ++ [a] else items).take capacity =
      if a ∉ items.take capacity ∧ (items.take capacity).length < capacity then
        items.take capacity ++ [a]
      else items.take capacity := by
  by_cases room : items.length < capacity
  · have whole : items.take capacity = items := List.take_of_length_le (Nat.le_of_lt room)
    rw [whole]
    by_cases known : a ∈ items
    · simp only [known, not_true_eq_false, ↓reduceIte, false_and, whole]
    · have short : (items ++ [a]).length ≤ capacity := by
        rw [List.length_append, List.length_singleton]
        omega
      simp only [known, not_false_eq_true, ↓reduceIte, room, and_self]
      exact List.take_of_length_le short
  · have full : ¬ (items.take capacity).length < capacity := by
      rw [List.length_take]
      omega
    have cut : (items ++ [a]).take capacity = items.take capacity :=
      List.take_append_of_le_length (by omega)
    simp only [full, and_false, ↓reduceIte]
    split
    · exact cut
    · rfl

section Remember

variable (memo : Memo) (text : String) (format : Format)

private theorem entries_remember :
    (memo.remember text format).entries =
      if memo.size < memo.capacity then Dictionary.insert text format memo.entries
      else memo.entries := by
  unfold remember
  split <;> rfl

private theorem capacity_remember : (memo.remember text format).capacity = memo.capacity := by
  unfold remember
  split <;> rfl

private theorem hits_remember : (memo.remember text format).hits = memo.hits := by
  unfold remember
  split <;> rfl

end Remember

private theorem capacity_request (memo : Memo) (text : String) :
    (memo.request text).2.capacity = memo.capacity := by
  unfold request
  cases Dictionary.find? text memo.entries with
  | some format => rfl
  | none =>
    cases Format.parse text with
    | ok format => exact capacity_remember ..
    | error e => rfl

private theorem entries_request_of_new (memo : Memo) {text : String} {format : Format}
    (new : Dictionary.find? text memo.entries = none) (read : Format.parse text = .ok format) :
    (memo.request text).2.entries =
      if memo.size < memo.capacity then Dictionary.insert text format memo.entries
      else memo.entries := by
  simp only [request, new, read]
  exact entries_remember ..

private theorem entries_request_of_known (memo : Memo) {text : String}
    (known : text ∈ memo.entries.map Prod.fst) :
    (memo.request text).2.entries = memo.entries := by
  cases found : Dictionary.find? text memo.entries with
  | none => exact absurd known ((Dictionary.find?_eq_none_iff text memo.entries).1 found)
  | some format => simp only [request, found]

private theorem entries_request_of_error (memo : Memo) {text : String} {e : ScanError}
    (refused : Format.parse text = .error e) :
    (memo.request text).2.entries = memo.entries := by
  unfold request
  cases Dictionary.find? text memo.entries with
  | some format => rfl
  | none => simp only [refused]

/-- A request brings in its text if it is a new format and there is room. -/
theorem keys_request (memo : Memo) (text : String) :
    (memo.request text).2.entries.map Prod.fst =
      if isFormat text = true ∧ text ∉ memo.entries.map Prod.fst ∧ memo.size < memo.capacity then
        memo.entries.map Prod.fst ++ [text]
      else memo.entries.map Prod.fst := by
  by_cases known : text ∈ memo.entries.map Prod.fst
  · rw [entries_request_of_known memo known, if_neg fun new => new.2.1 known]
  · cases read : Format.parse text with
    | error e =>
      have invalid : ¬ isFormat text = true := by
        rw [isFormat, read]
        exact Bool.false_ne_true
      rw [entries_request_of_error memo read, if_neg fun new => invalid new.1]
    | ok format =>
      have valid : isFormat text = true := by
        rw [isFormat, read]
        rfl
      have new := (Dictionary.find?_eq_none_iff text memo.entries).2 known
      rw [entries_request_of_new memo new read]
      by_cases room : memo.size < memo.capacity
      · rw [if_pos room, if_pos ⟨valid, known, room⟩, Dictionary.map_fst_insert, if_neg known]
      · rw [if_neg room, if_neg fun all => room all.2.2]

private theorem hits_request (memo : Memo) (text : String) :
    (memo.request text).2.hits = memo.hits + (served (memo.request text).1).toNat := by
  unfold request
  cases Dictionary.find? text memo.entries with
  | some format => rfl
  | none =>
    cases Format.parse text with
    | ok format => exact hits_remember ..
    | error e => rfl

private theorem reply_request (memo : Memo) (faithful : memo.Faithful) (text : String) :
    (memo.request text).1 =
      (·, decide (text ∈ memo.entries.map Prod.fst)) <$> Format.parse text := by
  by_cases known : text ∈ memo.entries.map Prod.fst
  · cases found : Dictionary.find? text memo.entries with
    | none => exact absurd known ((Dictionary.find?_eq_none_iff text memo.entries).1 found)
    | some format =>
      simp only [request, found, faithful text format found, known, decide_true]
      rfl
  · have unknown := (Dictionary.find?_eq_none_iff text memo.entries).2 known
    simp only [request, unknown, known, decide_false]
    cases Format.parse text with
    | ok format => rfl
    | error e => rfl

/-- A memo after some steps that were answered in this way. -/
structure Account (capacity : Nat) (steps : List Step) (replies : List (Option Reply))
    (memo : Memo) : Prop where
  room : memo.capacity = capacity
  keys : memo.entries.map Prod.fst = (formats steps).take capacity
  faithful : memo.Faithful
  hits : memo.hits = (sinceGap replies).countP served
  requests : memo.requests = (requested steps).length

theorem Account.start (capacity : Nat) : Account capacity [] [] (empty capacity) where
  room := rfl
  keys := List.take_nil.symm
  faithful := faithful_empty capacity
  hits := rfl
  requests := rfl

section Account

variable {capacity : Nat} {steps : List Step} {replies : List (Option Reply)} {memo : Memo}

private theorem Account.keys_request (account : Account capacity steps replies memo)
    (text : String) : (memo.request text).2.entries.map Prod.fst =
      (formats (steps ++ [.request text])).take capacity := by
  have size : memo.size = ((formats steps).take capacity).length := by
    rw [← account.keys, List.length_map]
    rfl
  rw [Memo.keys_request, account.keys, account.room, size, formats_request]
  by_cases valid : isFormat text = true
  · simp only [valid, true_and]
    exact (take_concat_new capacity (formats steps) text).symm
  · rw [if_neg fun new => valid new.1, if_neg fun new => valid new.1]

theorem Account.request (account : Account capacity steps replies memo) (text : String) :
    Account capacity (steps ++ [.request text]) (replies ++ [some (memo.request text).1])
      (memo.request text).2 where
  room := (memo.capacity_request text).trans account.room
  keys := account.keys_request text
  faithful := account.faithful.request text
  hits := by
    rw [hits_request, account.hits, sinceGap_concat_some, List.countP_append,
      List.countP_singleton]
    cases served (memo.request text).1 <;> rfl
  requests := by
    rw [requests_request, account.requests, requested_request, List.length_append,
      List.length_singleton]

theorem Account.clear (account : Account capacity steps replies memo) :
    Account capacity (steps ++ [.clear]) (replies ++ [none]) memo.clear where
  room := account.room
  keys := by
    rw [formats_clear, List.take_nil]
    rfl
  faithful := faithful_empty memo.capacity
  hits := by
    rw [sinceGap_concat_none]
    rfl
  requests := by
    rw [requested_clear]
    rfl

theorem Account.perform (account : Account capacity steps replies memo) (step : Step) :
    Account capacity (steps ++ [step]) (replies ++ [(memo.perform step).1])
      (memo.perform step).2 := by
  cases step with
  | request text => exact account.request text
  | clear => exact account.clear

theorem Account.run (account : Account capacity steps replies memo) (earlier : List Step)
    (step : Step) (later : List Step) :
    ∃ before reply after, (memo.run (earlier ++ step :: later))[earlier.length]? =
        some (reply, after) ∧
      Account capacity (steps ++ earlier)
        (replies ++ ((memo.run (earlier ++ step :: later)).take earlier.length).map Prod.fst)
        before ∧
      before.perform step = (reply, after) := by
  induction earlier generalizing steps replies memo with
  | nil =>
    refine ⟨memo, _, _, rfl, ?_, rfl⟩
    simpa using account
  | cons first earlier ih =>
    obtain ⟨before, reply, after, reached, kept, performed⟩ := ih (account.perform first)
    refine ⟨before, reply, after, reached, ?_, performed⟩
    simp only [List.append_assoc, List.singleton_append] at kept
    exact kept

theorem Account.find?_eq_some_iff (account : Account capacity steps replies memo) (text : String)
    (format : Format) :
    Dictionary.find? text memo.entries = some format ↔
      text ∈ (formats steps).take capacity ∧ Format.parse text = .ok format := by
  have unknown := Dictionary.find?_eq_none_iff text memo.entries
  rw [account.keys] at unknown
  constructor
  · intro found
    refine ⟨?_, account.faithful text format found⟩
    by_contra missing
    rw [unknown.2 missing] at found
    cases found
  · rintro ⟨known, read⟩
    cases found : Dictionary.find? text memo.entries with
    | none => exact absurd known (unknown.1 found)
    | some other =>
      have same := (account.faithful text other found).symm.trans read
      rw [Except.ok.inj same]

private theorem Account.size_eq (account : Account capacity steps replies memo) :
    memo.size = min capacity (formats steps).length := by
  have length := congrArg List.length account.keys
  rwa [List.length_map, List.length_take] at length

private theorem Account.reply_eq (account : Account capacity steps replies memo) (step : Step) :
    (memo.perform step).1 = step.text?.map fun text =>
      (·, decide (text ∈ (formats steps).take capacity)) <$> Format.parse text := by
  cases step with
  | request text =>
    rw [← account.keys]
    exact congrArg some (reply_request memo account.faithful text)
  | clear => rfl

end Account

/-- At any point of a run, the memo holds the first distinct formats that were asked for since it
last forgot everything, up to its capacity. A request is served exactly when its text was held
before, and each request since then counts as a hit if it was served and as a miss if not. -/
theorem run_retains (capacity : Nat) (earlier : List Step) (step : Step) (later : List Step) :
    let outcomes := (empty capacity).run (earlier ++ step :: later)
    let replies := (outcomes.take (earlier.length + 1)).map Prod.fst
    let known := formats (earlier ++ [step])
    ∃ reply memo, outcomes[earlier.length]? = some (reply, memo) ∧
      reply = step.text?.map (fun text =>
        (·, decide (text ∈ (formats earlier).take capacity)) <$> Format.parse text) ∧
      memo.entries.map Prod.fst = known.take capacity ∧
      (∀ text format, Dictionary.find? text memo.entries = some format ↔
        text ∈ known.take capacity ∧ Format.parse text = .ok format) ∧
      memo.size = min capacity known.length ∧
      memo.hits = (sinceGap replies).countP served ∧
      memo.hits + memo.misses = (requested (earlier ++ [step])).length := by
  intro outcomes replies known
  obtain ⟨before, reply, memo, reached, kept, performed⟩ :=
    (Account.start capacity).run earlier step later
  have account := kept.perform step
  have answered := kept.reply_eq step
  rw [performed] at account answered
  -- the reply to the last step is the last of the replies so far
  have last : replies = (outcomes.take earlier.length).map Prod.fst ++ [reply] := by
    simp only [replies, outcomes, List.take_add_one, reached, Option.toList_some,
      List.map_append, List.map_cons, List.map_nil]
  refine ⟨reply, memo, reached, answered, account.keys, account.find?_eq_some_iff,
    account.size_eq, ?_, account.requests⟩
  rw [last]
  exact account.hits

end NativeCall.Memo
