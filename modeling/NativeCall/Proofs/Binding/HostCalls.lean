import NativeCall.Proofs.Scanner.Memoization
import NativeCall.Proofs.Binding.Verdict

/-!
What binding asks of the host, call by call. A transcript keeps every call with its answer; keeping
it does not change what is bound. `bindArgs_calls` gives the transcript of a binding as a sequence
of short exchanges: about the last argument, for empty optional slots, for the rest slot, for an
empty keyword slot, and about the block.
-/

set_option autoImplicit false
set_option relaxedAutoImplicit false

namespace NativeCall

variable {σ τ V : Type}

namespace Host

inductive Exchange (V : Type) where
  | nil (answer : V)
  | isNil (value : V) (answer : Bool)
  | isKeywordLike (value : V) (strict answer : Bool)
  | blockGiven (answer : Bool)
  | currentBlock (answer : V)
  | newSequence (answer : V)
  | append (sequence value answer : V)

def Exchange.call : Exchange V → Call V
  | nil _ => .nil
  | isNil value _ => .isNil value
  | isKeywordLike value strict _ => .isKeywordLike value strict
  | blockGiven _ => .blockGiven
  | currentBlock _ => .currentBlock
  | newSequence _ => .newSequence
  | append sequence value _ => .append sequence value

def keeping {α : Type} (exchange : α → Exchange V) (step : StateM σ α) :
    StateM (σ × List (Exchange V)) α :=
  fun (s, said) => ((step.run s).1, (step.run s).2, said ++ [exchange (step.run s).1])

def transcribed (host : Host σ V) : Host (σ × List (Exchange V)) V where
  nil := keeping .nil host.nil
  isNil v := keeping (.isNil v) (host.isNil v)
  isKeywordLike v strict := keeping (.isKeywordLike v strict) (host.isKeywordLike v strict)
  blockGiven := keeping .blockGiven host.blockGiven
  currentBlock := keeping .currentBlock host.currentBlock
  newSequence := keeping .newSequence host.newSequence
  append sequence v := keeping (.append sequence v) (host.append sequence v)

end Host

open Host (Exchange)

def Follows {α : Type} (view : τ → σ) (fine : StateM τ α) (coarse : StateM σ α) : Prop :=
  ∀ t, coarse.run (view t) = ((fine.run t).1, view (fine.run t).2)

theorem Follows.pure {α : Type} (view : τ → σ) (a : α) :
    Follows view (pure a : StateM τ α) (pure a) :=
  fun _ => rfl

theorem Follows.bind {α β : Type} {view : τ → σ} {fine : StateM τ α} {coarse : StateM σ α}
    {next : α → StateM τ β} {next' : α → StateM σ β} (h : Follows view fine coarse)
    (g : ∀ a, Follows view (next a) (next' a)) :
    Follows view (fine >>= next) (coarse >>= next') := by
  intro t
  rw [run_seq, run_seq, h t]
  exact g _ _

/-- A host whose capabilities do on the visible part of the state what those of another host do. -/
structure Host.Watches (view : τ → σ) (fine : Host τ V) (coarse : Host σ V) : Prop where
  nil : Follows view fine.nil coarse.nil
  isNil : ∀ v, Follows view (fine.isNil v) (coarse.isNil v)
  isKeywordLike : ∀ v strict,
    Follows view (fine.isKeywordLike v strict) (coarse.isKeywordLike v strict)
  blockGiven : Follows view fine.blockGiven coarse.blockGiven
  currentBlock : Follows view fine.currentBlock coarse.currentBlock
  newSequence : Follows view fine.newSequence coarse.newSequence
  append : ∀ sequence v, Follows view (fine.append sequence v) (coarse.append sequence v)

private theorem Host.transcribed_watches (host : Host σ V) :
    Watches Prod.fst host.transcribed host where
  nil _ := rfl
  isNil _ _ := rfl
  isKeywordLike _ _ _ := rfl
  blockGiven _ := rfl
  currentBlock _ := rfl
  newSequence _ := rfl
  append _ _ _ := rfl

private theorem Host.transcribed_watches_logged (host : Host σ V) :
    Watches (fun (s, said) => (s, said.map Exchange.call)) host.transcribed host.logged := by
  have noted {α : Type} (exchange : α → Exchange V) (call : Call V) (step : StateM σ α)
      (same : ∀ a, (exchange a).call = call) :
      Follows (fun (s, said) => (s, said.map Exchange.call)) (keeping exchange step)
        (noting call step) := by
    rintro ⟨s, said⟩
    have last : [call] = [exchange (step.run s).1].map Exchange.call := by
      rw [List.map_singleton, same]
    change ((step.run s).1, (step.run s).2, said.map Exchange.call ++ [call]) =
      ((step.run s).1, (step.run s).2, (said ++ [exchange (step.run s).1]).map Exchange.call)
    rw [List.map_append, last]
  exact {
    nil := noted _ _ _ fun _ => rfl
    isNil := fun _ => noted _ _ _ fun _ => rfl
    isKeywordLike := fun _ _ => noted _ _ _ fun _ => rfl
    blockGiven := noted _ _ _ fun _ => rfl
    currentBlock := noted _ _ _ fun _ => rfl
    newSequence := noted _ _ _ fun _ => rfl
    append := fun _ _ => noted _ _ _ fun _ => rfl }

section Watches

variable {view : τ → σ} {fine : Host τ V} {coarse : Host σ V} (watches : fine.Watches view coarse)

include watches

theorem Host.Watches.foldlM_append (vs : List V) (sequence : V) :
    Follows view (vs.foldlM fine.append sequence) (vs.foldlM coarse.append sequence) := by
  induction vs generalizing sequence with
  | nil => exact Follows.pure view sequence
  | cons v vs ih =>
    rw [List.foldlM_cons, List.foldlM_cons]
    exact (watches.append sequence v).bind ih

theorem Host.Watches.value (filling : Filling V) :
    Follows view (filling.value fine) (filling.value coarse) := by
  cases filling with
  | given v => exact Follows.pure view v
  | empty => exact watches.nil
  | collected vs => exact watches.newSequence.bind (watches.foldlM_append vs)
  | block =>
    refine watches.blockGiven.bind fun given => ?_
    cases given with
    | true => exact watches.currentBlock
    | false => exact watches.nil

theorem Host.Watches.mapM_value (fillings : List (Filling V)) :
    Follows view (fillings.mapM (Filling.value fine)) (fillings.mapM (Filling.value coarse)) := by
  induction fillings with
  | nil => exact Follows.pure view []
  | cons filling fillings ih =>
    rw [List.mapM_cons, List.mapM_cons]
    exact (watches.value filling).bind fun v => ih.bind fun vs => Follows.pure view (v :: vs)

theorem Host.Watches.resolve (format : Format) (args : List V) :
    Follows view (KeywordState.resolve fine format args)
      (KeywordState.resolve coarse format args) := by
  unfold KeywordState.resolve
  split
  · exact Follows.pure view _
  · split
    · exact Follows.pure view _
    · split
      · exact Follows.pure view _
      · next last _ =>
        refine (watches.isNil last).bind fun nil => ?_
        cases nil with
        | true => exact Follows.pure view _
        | false =>
          refine (watches.isKeywordLike last true).bind fun like => ?_
          cases like with
          | true => exact Follows.pure view _
          | false => exact Follows.pure view _

theorem Host.Watches.bindArgs (format : Format) (args : List V) :
    Follows view (bindArgs fine format args) (bindArgs coarse format args) := by
  unfold NativeCall.bindArgs
  split
  · exact Follows.pure view _
  · refine (watches.resolve format args).bind fun state => ?_
    simp only [Source.mapM_value]
    exact (watches.mapM_value _).bind fun values => Follows.pure view _

end Watches

/-- A step adds to the transcript, and its answer and what it adds are related so. -/
def Says {α : Type} (step : StateM (σ × List (Exchange V)) α)
    (spec : α → List (Exchange V) → Prop) : Prop :=
  ∀ s before, ∃ said, (step.run (s, before)).2.2 = before ++ said ∧
    spec (step.run (s, before)).1 said

theorem Says.pure {α : Type} {spec : α → List (Exchange V) → Prop} (a : α) (holds : spec a []) :
    Says (pure a : StateM (σ × List (Exchange V)) α) spec :=
  fun _ before => ⟨[], (List.append_nil before).symm, holds⟩

private theorem Says.keeping {α : Type} (exchange : α → Exchange V) (step : StateM σ α)
    {spec : α → List (Exchange V) → Prop} (holds : ∀ a, spec a [exchange a]) :
    Says (Host.keeping exchange step) spec :=
  fun _ _ => ⟨_, rfl, holds _⟩

theorem Says.bind {α β : Type} {first : StateM (σ × List (Exchange V)) α}
    {second : α → StateM (σ × List (Exchange V)) β} {spec : β → List (Exchange V) → Prop}
    (middle : α → List (Exchange V) → Prop) (h : Says first middle)
    (g : ∀ a said, middle a said → Says (second a) fun b more => spec b (said ++ more)) :
    Says (first >>= second) spec := by
  rintro s log
  obtain ⟨said, grown, holds⟩ := h s log
  obtain ⟨more, others, ends⟩ :=
    g _ said holds ((first.run (s, log)).2.1) ((first.run (s, log)).2.2)
  refine ⟨said ++ more, ?_, ends⟩
  rw [run_seq, ← List.append_assoc, ← grown]
  exact others

inductive Asked (last : V) : List (Exchange V) → Prop where
  | isNil : Asked last [.isNil last true]
  | other (like : Bool) : Asked last [.isNil last false, .isKeywordLike last true like]

inductive Appended : V → List V → List (Exchange V) → Prop where
  | done (sequence : V) : Appended sequence [] []
  | next {sequence longer v : V} {vs : List V} {said : List (Exchange V)} :
    Appended longer vs said → Appended sequence (v :: vs) (.append sequence v longer :: said)

inductive Gathered (vs : List V) : List (Exchange V) → Prop where
  | start {sequence : V} {said : List (Exchange V)} :
    Appended sequence vs said → Gathered vs (.newSequence sequence :: said)

inductive BlockTaken : List (Exchange V) → Prop where
  | given (v : V) : BlockTaken [.blockGiven true, .currentBlock v]
  | missing (v : V) : BlockTaken [.blockGiven false, .nil v]

def Filling.Said : Filling V → List (Exchange V) → Prop
  | given _, said => said = []
  | empty, said => ∃ v, said = [.nil v]
  | collected vs, said => Gathered vs said
  | block, said => BlockTaken said

/-- What is said to fill slots one after the other. -/
inductive AllSaid : List (Filling V) → List (Exchange V) → Prop where
  | nil : AllSaid [] []
  | cons {filling : Filling V} {fillings : List (Filling V)} {said more : List (Exchange V)} :
    filling.Said said → AllSaid fillings more → AllSaid (filling :: fillings) (said ++ more)

private theorem says_foldlM_append (host : Host σ V) (vs : List V) (sequence : V) :
    Says (vs.foldlM host.transcribed.append sequence) fun _ said => Appended sequence vs said := by
  induction vs generalizing sequence with
  | nil => exact Says.pure sequence (.done sequence)
  | cons v vs ih =>
    rw [List.foldlM_cons]
    refine Says.bind (fun longer said => said = [.append sequence v longer])
      (Says.keeping _ _ fun _ => rfl) ?_
    rintro longer said rfl s log
    obtain ⟨more, grown, appended⟩ := ih longer s log
    exact ⟨more, grown, .next appended⟩

private theorem says_value (host : Host σ V) (filling : Filling V) :
    Says (filling.value host.transcribed) fun _ said => filling.Said said := by
  cases filling with
  | given v => exact Says.pure v rfl
  | empty => exact Says.keeping _ _ fun v => ⟨v, rfl⟩
  | collected vs =>
    refine Says.bind (fun sequence said => said = [.newSequence sequence])
      (Says.keeping _ _ fun _ => rfl) ?_
    rintro sequence said rfl s log
    obtain ⟨more, grown, appended⟩ := says_foldlM_append host vs sequence s log
    exact ⟨more, grown, .start appended⟩
  | block =>
    refine Says.bind (fun given said => said = [.blockGiven given])
      (Says.keeping _ _ fun _ => rfl) ?_
    rintro given said rfl
    cases given with
    | true => exact Says.keeping _ _ fun v => .given v
    | false => exact Says.keeping _ _ fun v => .missing v

private theorem says_mapM_value (host : Host σ V) (fillings : List (Filling V)) :
    Says (fillings.mapM (Filling.value host.transcribed)) fun _ said => AllSaid fillings said := by
  induction fillings with
  | nil => exact Says.pure [] .nil
  | cons filling fillings ih =>
    rw [List.mapM_cons]
    refine Says.bind _ (says_value host filling) fun v said first => ?_
    refine Says.bind (fun _ more => AllSaid fillings more) ih fun vs more others => ?_
    exact Says.pure (v :: vs) (by simpa using AllSaid.cons first others)

private theorem says_resolve (host : Host σ V) (format : Format) (args : List V) :
    Says (KeywordState.resolve host.transcribed format args) fun _ said =>
      if format.keywords = true ∧ format.minArgs < args.length then
        ∃ last, args.getLast? = some last ∧ Asked last said
      else said = [] := by
  unfold KeywordState.resolve
  cases accepts : format.keywords with
  | false => exact Says.pure _ (by simp)
  | true =>
    by_cases few : args.length ≤ format.minArgs
    · rw [if_neg (by simp), if_pos few]
      exact Says.pure _ (by simp [Nat.not_lt.2 few])
    · rw [if_neg (by simp), if_neg few]
      have more : format.minArgs < args.length := Nat.not_le.1 few
      simp only [more, and_self, ↓reduceIte]
      cases ending : args.getLast? with
      | none =>
        rw [List.getLast?_eq_none_iff.1 ending] at more
        exact absurd more (Nat.not_lt_zero _)
      | some last =>
        refine Says.bind (fun nil said => said = [.isNil last nil])
          (Says.keeping _ _ fun _ => rfl) ?_
        rintro nil said rfl
        cases nil with
        | true => exact Says.pure _ ⟨last, rfl, .isNil⟩
        | false =>
          refine Says.bind (fun like said => said = [.isKeywordLike last true like])
            (Says.keeping _ _ fun _ => rfl) ?_
          rintro like said rfl
          cases like with
          | true => exact Says.pure _ ⟨last, rfl, .other true⟩
          | false => exact Says.pure _ ⟨last, rfl, .other false⟩

private theorem AllSaid.of_append {fillings more : List (Filling V)} {said : List (Exchange V)}
    (all : AllSaid (fillings ++ more) said) :
    ∃ first others, said = first ++ others ∧ AllSaid fillings first ∧ AllSaid more others := by
  induction fillings generalizing said with
  | nil => exact ⟨[], said, rfl, .nil, all⟩
  | cons filling fillings ih =>
    rw [List.cons_append] at all
    cases all with
    | cons first rest =>
      obtain ⟨middle, others, rfl, inside, outside⟩ := ih rest
      exact ⟨_, others, (List.append_assoc ..).symm, .cons first inside, outside⟩

private theorem AllSaid.of_given {vs : List V} {said : List (Exchange V)}
    (all : AllSaid (vs.map .given) said) : said = [] := by
  induction vs generalizing said with
  | nil =>
    cases all
    rfl
  | cons v vs ih =>
    rw [List.map_cons] at all
    cases all with
    | cons first rest =>
      rw [first, ih rest]
      rfl

private theorem AllSaid.of_empty {count : Nat} {said : List (Exchange V)}
    (all : AllSaid (List.replicate count .empty) said) :
    ∃ blanks : List V, blanks.length = count ∧ said = blanks.map .nil := by
  induction count generalizing said with
  | zero =>
    cases all
    exact ⟨[], rfl, rfl⟩
  | succ count ih =>
    rw [List.replicate_succ] at all
    cases all with
    | cons first rest =>
      obtain ⟨v, rfl⟩ := first
      obtain ⟨blanks, length, rfl⟩ := ih rest
      exact ⟨v :: blanks, congrArg (· + 1) length, rfl⟩

private theorem AllSaid.of_singleton {filling : Filling V} {said : List (Exchange V)}
    (all : AllSaid [filling] said) : filling.Said said := by
  cases all with
  | cons first rest =>
    cases rest
    rwa [List.append_nil]

private theorem AllSaid.of_ite {shown : Bool} {filling : Filling V} {said : List (Exchange V)}
    (all : AllSaid (if shown then [filling] else []) said) :
    if shown then filling.Said said else said = [] := by
  cases shown with
  | true => exact all.of_singleton
  | false =>
    cases all
    rfl

private theorem Filling.Said.of_ofOption {args : List V} {argc : Nat} {pending : Bool}
    (passed : args.length = argc + pending.toNat) {said : List (Exchange V)}
    (holds : (Filling.ofOption args[argc]?).Said said) :
    if pending then said = [] else ∃ v, said = [.nil v] := by
  cases pending with
  | true =>
    have within : argc < args.length := by
      rw [passed]
      exact Nat.lt_succ_self argc
    rw [List.getElem?_eq_getElem within] at holds
    exact holds
  | false =>
    have beyond : args[argc]? = none := List.getElem?_eq_none (Nat.le_of_eq passed)
    rw [beyond] at holds
    exact holds

/-- What is said to fill the slots of a shape: in slot order, and nothing for a slot that takes an
argument. -/
theorem AllSaid.of_layout {format : Format} {args : List V} {argc : Nat} {pending : Bool}
    (passed : args.length = argc + pending.toNat) (enough : format.minArgs ≤ argc)
    {said : List (Exchange V)}
    (all : AllSaid ((Plan.layout format argc pending).map (Source.filling args)) said) :
    ∃ (blanks : List V) (gathered erased block : List (Exchange V)),
      said = blanks.map .nil ++ gathered ++ erased ++ block ∧
      blanks.length = format.optional.toNat - format.optionalTaken argc ∧
      (if format.rest then
        Gathered (args.extract (format.leading.toNat + format.optionalTaken argc)
          (argc - format.trailing.toNat)) gathered
      else gathered = []) ∧
      (if format.keywords && !pending then ∃ v, erased = [.nil v] else erased = []) ∧
      (if format.block then BlockTaken block else block = []) := by
  rw [format.map_filling_layout args argc pending passed enough] at all
  obtain ⟨_, block, rfl, all, last⟩ := all.of_append
  obtain ⟨_, erased, rfl, all, keywords⟩ := all.of_append
  obtain ⟨_, trailing, rfl, all, mandatory⟩ := all.of_append
  obtain ⟨_, gathered, rfl, all, rest⟩ := all.of_append
  obtain ⟨leading, _, rfl, first, optional⟩ := all.of_append
  obtain ⟨taken, _, rfl, second, absent⟩ := optional.of_append
  obtain ⟨blanks, length, rfl⟩ := absent.of_empty
  refine ⟨blanks, gathered, erased, block, ?_, length, rest.of_ite, ?_, last.of_ite⟩
  · rw [first.of_given, second.of_given, mandatory.of_given, List.nil_append, List.nil_append,
      List.append_nil]
  · have empty := keywords.of_ite
    cases accepts : format.keywords with
    | false =>
      rw [accepts] at empty
      exact empty
    | true =>
      rw [accepts] at empty
      have unfilled := Filling.Said.of_ofOption passed empty
      cases pending with
      | true => exact unfilled
      | false => exact unfilled

private theorem Scanner.Faithful.snd_scan {τ : Type} [Tracer τ] {scanner : Scanner τ}
    (faithful : scanner.Faithful) (host : Host σ V) (text : String) (args : List V) (s : σ) :
    ((scanner.scan host text args).run s).2 = match Format.parse text with
      | .ok format => ((bindArgs host format args).run s).2
      | .error _ => s := by
  rw [faithful.scan_eq]
  cases Format.parse text with
  | ok format => rfl
  | error e => rfl

/-- What binding asks of the host. Too few arguments and texts that are no format ask for nothing.
Otherwise the last argument is asked about, if it may be the keyword hash, and then each slot that
takes no argument asks for its value in turn. -/
theorem bindArgs_calls (host : Host σ V) (format : Format) (args : List V) (s : σ) :
    let done := (bindArgs host.transcribed format args).run (s, [])
    let said := done.2.2
    (bindArgs host format args).run s = (done.1, done.2.1) ∧
    (bindArgs host.logged format args).run (s, []) =
      (done.1, done.2.1, said.map Exchange.call) ∧
    (∀ (τ : Type) [Tracer τ] (scanner : Scanner τ), scanner.Faithful → ∀ text,
      ((scanner.scan host.transcribed text args).run (s, [])).2 = match Format.parse text with
        | .ok format => ((bindArgs host.transcribed format args).run (s, [])).2
        | .error _ => (s, [])) ∧
    (args.length < format.minArgs → said = []) ∧
    (format.minArgs ≤ args.length →
      ∃ (argc : Nat) (pending : Bool) (blanks : List V)
          (asked gathered erased block : List (Exchange V)),
        args.length = argc + pending.toNat ∧
        (match done.1.result with
          | .ok output => output.argc = argc
          | .error e => e = Binding.wrongCount format argc) ∧
        said = asked ++ (blanks.map .nil ++ gathered ++ erased ++ block) ∧
        (if format.keywords = true ∧ format.minArgs < args.length then
          ∃ last, args.getLast? = some last ∧ Asked last asked
        else asked = []) ∧
        blanks.length = format.optional.toNat - format.optionalTaken argc ∧
        (if format.rest then
          Gathered (args.extract (format.leading.toNat + format.optionalTaken argc)
            (argc - format.trailing.toNat)) gathered
        else gathered = []) ∧
        (if format.keywords && !pending then ∃ v, erased = [.nil v] else erased = []) ∧
        (if format.block then BlockTaken block else block = [])) := by
  intro done said
  refine ⟨host.transcribed_watches.bindArgs format args (s, []),
    host.transcribed_watches_logged.bindArgs format args (s, []),
    fun _ _ scanner faithful text => faithful.snd_scan host.transcribed text args (s, []),
    fun few => ?_, fun enough => ?_⟩
  · simp only [said, done, Binding.bindArgs_few host.transcribed format args few, run_pure]
  · obtain ⟨asked, resolved, first⟩ := says_resolve host format args s []
    obtain rfl := resolved.trans (List.nil_append asked)
    have passed := Binding.length_eq host.transcribed format args (s, [])
    have least := Binding.minArgs_le_positionalCount host.transcribed format args (s, []) enough
    obtain ⟨filled, grown, all⟩ := says_mapM_value host
      ((Plan.layout format (Binding.positionalCount host.transcribed format args (s, []))
        (Binding.isPending host.transcribed format args (s, []))).map (Source.filling args))
      ((KeywordState.resolve host.transcribed format args).run (s, [])).2.1
      ((KeywordState.resolve host.transcribed format args).run (s, [])).2.2
    obtain ⟨blanks, gathered, erased, block, rfl, length, rest, keywords, last⟩ :=
      all.of_layout passed least
    refine ⟨_, _, blanks, _, gathered, erased, block, passed, ?_, ?_, first, length, rest,
      keywords, last⟩
    · rcases Binding.verdict_cases host.transcribed format args (s, []) with
        ⟨few, -⟩ | ⟨-, -, -, refused⟩ | ⟨-, -, output, bound, count⟩
      · exact absurd enough (Nat.not_le.2 few)
      · simp only [done, refused]
      · simp only [done, bound, count]
    · have plan := Binding.make_eq host.transcribed format args (s, []) enough
      rw [← Source.mapM_value] at grown
      simp only [said, done, Binding.run_bindArgs host.transcribed format args (s, []) enough, plan]
      exact grown

end NativeCall
