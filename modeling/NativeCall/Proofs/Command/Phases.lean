import NativeCall.Proofs.Command.Diagnostics
import NativeCall.Proofs.Json.WrittenForms
import NativeCall.Proofs.Object.RoundTrip

/-!
Which phase of the command decides its outcome. What is wrong for one phase is said without regard
to the others, so that a command line can be wrong for several phases at once; `Phase.FailsFirst`
singles out one of them, and `run_first_failure` says that the command answers for that one alone.
-/

set_option autoImplicit false
set_option relaxedAutoImplicit false

namespace NativeCall

private theorem Global.find?_native (name : String) :
    (∃ global : Global, nativeLabels.find? name = some global ∧ global.nativeName = name) ∨
      nativeLabels.find? name = none ∧ ∀ global : Global, global.nativeName ≠ name := by
  cases found : nativeLabels.find? name with
  | some global =>
    refine .inl ⟨global, rfl, ?_⟩
    simpa [nativeLabels] using List.find?_some found
  | none =>
    refine .inr ⟨rfl, fun global => ?_⟩
    have listed : global ∈ Global.all := by cases global <;> decide
    simpa [nativeLabels] using List.find?_eq_none.1 found global listed

namespace Command

/-- The phases of the command, in the order in which it goes through them. -/
inductive Phase where
  | commandLine
  | configText
  | config
  | globalName
  | arguments
  | format
  | binding
  deriving DecidableEq, Repr

/-- The JSON values that the command line gives as arguments. No text means no arguments. -/
inductive Given : Option String → List Json → Prop where
  | nothing : Given none []
  | array {text : String} {items : List Json} {proper : (Json.array items).wellFormed = true}
      (read : Json.parse text = .ok ⟨.array items, proper⟩) : Given (some text) items

theorem Given.unique {arguments : Option String} {items items' : List Json}
    (given : Given arguments items) (given' : Given arguments items') : items = items' := by
  cases given with
  | nothing =>
    cases given'
    rfl
  | array read =>
    cases given' with
    | array read' =>
      cases read.symm.trans read'
      rfl

namespace Phase

def place : Phase → Nat
  | commandLine => 0
  | configText => 1
  | config => 2
  | globalName => 3
  | arguments => 4
  | format => 5
  | binding => 6

private theorem place_lt (phase : Phase) : phase.place < binding.place + 1 := by
  cases phase <;> decide

private theorem place_inj {one other : Phase} (same : one.place = other.place) : one = other := by
  revert same
  cases one <;> cases other <;> decide

/-- What a phase finds wrong with a command line and the files around it. -/
inductive Fails (words : List String) (files : Files) : Phase → Failure → Prop where
  | commandLine {e : UsageError} (refused : Options.parse words = .error e) :
      Fails words files commandLine (.usage e)
  | configText {options : Options} {path : String} {e : ReadError}
      (read : Options.parse words = .ok options) (named : options.config = some path)
      (refused : files path = .error e) :
      Fails words files configText (.unreadable path e)
  | config {options : Options} {path text : String} {fault : Json.Fault}
      (read : Options.parse words = .ok options) (named : options.config = some path)
      (loaded : files path = .ok text) (refused : Config.ofJson text = .error fault) :
      Fails words files config (.badConfig path text fault)
  | globalName {options : Options} {name : String} (read : Options.parse words = .ok options)
      (asked : options.global = some name)
      (unknown : ∀ global : Global, global.nativeName ≠ name) :
      Fails words files globalName (.unknownGlobal name)
  | noJson {options : Options} {text : String} {fault : Json.Fault}
      (read : Options.parse words = .ok options) (scans : options.global = none)
      (given : options.arguments = some text) (refused : Json.parse text = .error fault) :
      Fails words files arguments (.badArguments text fault)
  | noArray {options : Options} {text : String} {document : Json.Document}
      (read : Options.parse words = .ok options) (scans : options.global = none)
      (given : options.arguments = some text) (parsed : Json.parse text = .ok document)
      (other : ∀ items, document.json ≠ .array items) :
      Fails words files arguments .argumentsNotArray
  | format {options : Options} {text : String} {e : ScanError}
      (read : Options.parse words = .ok options) (scans : options.global = none)
      (written : options.format = some text) (refused : Format.parse text = .error e) :
      Fails words files format (.scan e)
  | binding {options : Options} {text : String} {items : List Json} {shape : Format} {e : ScanError}
      (read : Options.parse words = .ok options) (scans : options.global = none)
      (written : options.format = some text) (known : Format.parse text = .ok shape)
      (given : Given options.arguments items)
      (refused : ((bindArgs (Object.host (passedBlock options.block)) shape
        (Object.ofJsonItems items)).run ()).1.result = .error e) :
      Fails words files binding (.scan e)

def Clear (words : List String) (files : Files) (phase : Phase) : Prop :=
  ∀ failure, ¬ phase.Fails words files failure

def ClearBefore (words : List String) (files : Files) (place : Nat) : Prop :=
  ∀ earlier : Phase, earlier.place < place → earlier.Clear words files

/-- A phase that fails, and before which no phase does. -/
def FailsFirst (words : List String) (files : Files) (phase : Phase) (failure : Failure) : Prop :=
  phase.Fails words files failure ∧ ClearBefore words files phase.place

variable {words : List String} {files : Files} {options : Options} {config : Config}

theorem Fails.unique {phase : Phase} {failure failure' : Failure}
    (fails : phase.Fails words files failure) (fails' : phase.Fails words files failure') :
    failure = failure' := by
  cases fails with
  | binding read scans written known given refused =>
    cases fails' with
    | binding read' _ written' known' given' refused' =>
      obtain rfl := Except.ok.inj (read.symm.trans read')
      obtain rfl := Option.some.inj (written.symm.trans written')
      obtain rfl := Except.ok.inj (known.symm.trans known')
      obtain rfl := given.unique given'
      rw [Except.error.inj (refused.symm.trans refused')]
  | _ => cases fails' <;> simp_all

theorem FailsFirst.unique {phase phase' : Phase} {failure failure' : Failure}
    (first : phase.FailsFirst words files failure)
    (first' : phase'.FailsFirst words files failure') : phase = phase' ∧ failure = failure' := by
  have same : phase = phase' := by
    apply place_inj
    apply Nat.le_antisymm
    · exact Nat.not_lt.1 fun before => first.2 phase' before failure' first'.1
    · exact Nat.not_lt.1 fun before => first'.2 phase before failure first.1
  subst same
  exact ⟨rfl, first.1.unique first'.1⟩

private theorem clearBefore_zero : ClearBefore words files 0 :=
  fun _ before => absurd before (Nat.not_lt_zero _)

theorem ClearBefore.next {phase : Phase} (before : ClearBefore words files phase.place)
    (clear : phase.Clear words files) : ClearBefore words files (phase.place + 1) := by
  intro earlier least
  rcases Nat.lt_succ_iff_lt_or_eq.1 least with less | same
  · exact before earlier less
  · rw [place_inj same]
    exact clear

private theorem clear_commandLine (read : Options.parse words = .ok options) :
    commandLine.Clear words files := by
  rintro _ ⟨refused⟩
  rw [read] at refused
  cases refused

private theorem clear_configText (read : Options.parse words = .ok options)
    (opens : ∀ path e, options.config = some path → files path ≠ .error e) :
    configText.Clear words files := by
  intro failure fails
  cases fails with
  | configText read' named refused =>
    obtain rfl := Except.ok.inj (read.symm.trans read')
    exact opens _ _ named refused

private theorem clear_config (read : Options.parse words = .ok options)
    (loaded : loadConfig files options.config = .ok config) : Phase.config.Clear words files := by
  intro failure fails
  cases fails with
  | config read' named found refused =>
    obtain rfl := Except.ok.inj (read.symm.trans read')
    simp only [loadConfig, named, found, refused] at loaded
    cases loaded

private theorem clear_globalName (read : Options.parse words = .ok options)
    (known : ∀ name, options.global = some name → ∃ global : Global, global.nativeName = name) :
    globalName.Clear words files := by
  intro failure fails
  cases fails with
  | globalName read' asked unknown =>
    obtain rfl := Except.ok.inj (read.symm.trans read')
    obtain ⟨global, named⟩ := known _ asked
    exact unknown global named

private theorem clear_of_global (read : Options.parse words = .ok options) {name : String}
    (asked : options.global = some name) {phase : Phase}
    (late : globalName.place < phase.place) : phase.Clear words files := by
  intro failure fails
  cases fails <;> simp_all [place]

private theorem clear_arguments (read : Options.parse words = .ok options) {items : List Json}
    (given : Given options.arguments items) : arguments.Clear words files := by
  intro failure fails
  cases fails with
  | noJson read' scans text refused =>
    obtain rfl := Except.ok.inj (read.symm.trans read')
    rw [text] at given
    cases given with
    | array parsed => cases parsed.symm.trans refused
  | noArray read' scans text parsed other =>
    obtain rfl := Except.ok.inj (read.symm.trans read')
    rw [text] at given
    cases given with
    | array parsed' =>
      cases parsed.symm.trans parsed'
      exact other _ rfl

private theorem clear_format (read : Options.parse words = .ok options) {text : String}
    (written : options.format = some text) {shape : Format}
    (known : Format.parse text = .ok shape) : Phase.format.Clear words files := by
  intro failure fails
  cases fails with
  | format read' scans written' refused =>
    obtain rfl := Except.ok.inj (read.symm.trans read')
    obtain rfl := Option.some.inj (written.symm.trans written')
    cases known.symm.trans refused

private theorem clear_binding (read : Options.parse words = .ok options) {text : String}
    (written : options.format = some text) {shape : Format}
    (known : Format.parse text = .ok shape) {items : List Json}
    (given : Given options.arguments items) {output : Output Object}
    (bound : ((bindArgs (Object.host (passedBlock options.block)) shape
      (Object.ofJsonItems items)).run ()).1.result = .ok output) : binding.Clear words files := by
  intro failure fails
  cases fails with
  | binding read' scans written' known' given' refused =>
    obtain rfl := Except.ok.inj (read.symm.trans read')
    obtain rfl := Option.some.inj (written.symm.trans written')
    obtain rfl := Except.ok.inj (known.symm.trans known')
    obtain rfl := given.unique given'
    cases bound.symm.trans refused

end Phase

/-- The lines of the events of the scan, if the command line asks for them. -/
def traced (words : List String) (files : Files) : List String :=
  match Options.parse words with
  | .error _ => []
  | .ok options => if options.trace then (recorded words files).map Event.line else []

/-- A document that answers a command line, and the warnings that go with it. -/
inductive Answers (words : List String) (files : Files) : Json → List String → Prop where
  | global {options : Options} {config : Config} {global : Global}
      (read : Options.parse words = .ok options)
      (loaded : loadConfig files options.config = .ok config)
      (asked : options.global = some global.nativeName) :
      Answers words files (globalJson config.globals global) []
  | scan {options : Options} {config : Config} {text : String} {items : List Json}
      {shape : Format} {output : Output Object} (read : Options.parse words = .ok options)
      (loaded : loadConfig files options.config = .ok config) (scans : options.global = none)
      (written : options.format = some text) (given : Given options.arguments items)
      (known : Format.parse text = .ok shape)
      (bound : ((bindArgs (Object.host (passedBlock options.block)) shape
        (Object.ofJsonItems items)).run ()).1.result = .ok output) :
      Answers words files (reportJson shape output)
        (warn shape output items.length { level := (configure config options).verbosity }).lines

/-- The two ways in which a run of the command ends. -/
inductive Ends (words : List String) (around : Surroundings) : Outcome → Prop where
  | answered {document : Json} {warnings : List String}
      (answers : Answers words around.files document warnings)
      (clear : ∀ phase : Phase, phase.Clear words around.files) :
      Ends words around (.ofResult around (traced words around.files ++ warnings) (.ok document))
  | failed {phase : Phase} {failure : Failure}
      (first : phase.FailsFirst words around.files failure) :
      Ends words around (.ofResult around (traced words around.files) (.error failure))

private theorem Options.parse_cases {words : List String} {options : Options}
    (read : Options.parse words = .ok options) :
    (∃ name, options.global = some name) ∨
      ∃ text, options.format = some text ∧ options.global = none := by
  unfold parse at read
  cases done : readWords words {} with
  | error e =>
    rw [done] at read
    cases read
  | ok options' =>
    rw [done] at read
    have checked : options'.check = .ok options := read
    unfold check at checked
    split at checked
    · cases checked
    · cases checked
    · next neither both =>
      obtain rfl := Except.ok.inj checked
      cases asked : options'.global with
      | some name => exact .inl ⟨name, rfl⟩
      | none =>
        cases written : options'.format with
        | some text => exact .inr ⟨text, rfl, rfl⟩
        | none => exact absurd asked (neither written)

private theorem loadConfig_cases (files : Files) (named : Option String) :
    (∃ config, loadConfig files named = .ok config) ∨
    ∃ path, named = some path ∧
      ((∃ e, files path = .error e ∧ loadConfig files named = .error (.unreadable path e)) ∨
        ∃ text fault, files path = .ok text ∧ Config.ofJson text = .error fault ∧
          loadConfig files named = .error (.badConfig path text fault)) := by
  cases named with
  | none => exact .inl ⟨{}, rfl⟩
  | some path =>
    cases found : files path with
    | error e =>
      refine .inr ⟨path, rfl, .inl ⟨e, found, ?_⟩⟩
      simp only [loadConfig, found]
    | ok text =>
      cases decoded : Config.ofJson text with
      | ok config =>
        refine .inl ⟨config, ?_⟩
        simp only [loadConfig, found, decoded]
      | error fault =>
        refine .inr ⟨path, rfl, .inr ⟨text, fault, found, decoded, ?_⟩⟩
        simp only [loadConfig, found, decoded]

private theorem readArguments_cases (arguments : Option String) :
    (∃ items, Given arguments items) ∨
    ∃ text, arguments = some text ∧
      ((∃ fault, Json.parse text = .error fault ∧
          readArguments arguments = .error (.badArguments text fault)) ∨
        ∃ document, Json.parse text = .ok document ∧ (∀ items, document.json ≠ .array items) ∧
          readArguments arguments = .error .argumentsNotArray) := by
  cases arguments with
  | none => exact .inl ⟨[], .nothing⟩
  | some text =>
    cases parsed : Json.parse text with
    | error fault =>
      refine .inr ⟨text, rfl, .inl ⟨fault, parsed, ?_⟩⟩
      simp only [readArguments, parsed]
    | ok document =>
      obtain ⟨json, proper⟩ := document
      cases json with
      | array items => exact .inl ⟨items, .array parsed⟩
      | _ =>
        refine .inr ⟨text, rfl, .inr ⟨_, parsed, fun items same => ?_, ?_⟩⟩
        · cases same
        · simp only [readArguments, parsed]

theorem Given.readArguments {arguments : Option String} {items : List Json}
    (given : Given arguments items) :
    Command.readArguments arguments = .ok (Object.ofJsonItems items) := by
  cases given with
  | nothing => rfl
  | array parsed => simp only [Command.readArguments, parsed]

theorem reported_cases (block : Option Object) (text : String) (args : List Object)
    (level : Verbosity) :
    let done := reported block text args { level }
    (∃ e, Format.parse text = .error e ∧ done.1 = .error e ∧ done.2.lines = []) ∨
    ∃ shape, Format.parse text = .ok shape ∧
      ((∃ e, ((bindArgs (Object.host block) shape args).run ()).1.result = .error e ∧
          done.1 = .error e ∧ done.2.lines = []) ∨
        ∃ output, ((bindArgs (Object.host block) shape args).run ()).1.result = .ok output ∧
          done.1 = .ok (reportJson shape output) ∧
          done.2 = warn shape output args.length { level }) := by
  unfold reported
  cases Format.parse text with
  | error e => exact .inl ⟨e, rfl, rfl, rfl⟩
  | ok shape =>
    refine .inr ⟨shape, rfl, ?_⟩
    dsimp only
    cases ((bindArgs (Object.host block) shape args).run ()).1.result with
    | error e => exact .inl ⟨e, rfl, rfl, rfl⟩
    | ok output => exact .inr ⟨output, rfl, rfl, rfl⟩

private theorem traced_eq_nil {words : List String} {files : Files}
    (nothing : recorded words files = []) : traced words files = [] := by
  unfold traced
  rw [nothing]
  split
  · rfl
  · split <;> rfl

section

variable {words : List String} {around : Surroundings} {options : Options} {config : Config}

private theorem Ends.early {phase : Phase} {failure : Failure}
    (nothing : recorded words around.files = [])
    (same : run words around = .ofResult around [] (.error failure))
    (first : phase.FailsFirst words around.files failure) :
    Ends words around (run words around) := by
  rw [same, ← traced_eq_nil nothing]
  exact .failed first

private theorem run_scan (read : Options.parse words = .ok options)
    (loaded : loadConfig around.files options.config = .ok config) (scans : options.global = none)
    {text : String} (written : options.format = some text) {items : List Json}
    (given : Given options.arguments items) :
    let done := reported (passedBlock options.block) text (Object.ofJsonItems items)
      { level := (configure config options).verbosity }
    run words around = .ofResult around (traced words around.files ++ done.2.lines)
      (done.1.mapError .scan) := by
  have events : traced words around.files =
      if options.trace then (scanEvents config options).map Event.line else [] := by
    simp only [traced, read, recorded, loaded, scans]
  intro done
  simp only [run, read, loaded, scans, runScan_eq, given.readArguments, written, Option.getD_some,
    scanEvents_config _ config, ← events]
  rfl

private theorem ends_scan (read : Options.parse words = .ok options)
    (loaded : loadConfig around.files options.config = .ok config) (scans : options.global = none)
    (before : Phase.ClearBefore words around.files Phase.arguments.place)
    {text : String} (written : options.format = some text) :
    Ends words around (run words around) := by
  rcases readArguments_cases options.arguments with
    ⟨items, given⟩ | ⟨argument, found, ⟨fault, parsed, refused⟩ | ⟨_, parsed, other, refused⟩⟩
  · have same := run_scan read loaded scans written given
    have before := before.next (Phase.clear_arguments read given)
    rcases reported_cases (passedBlock options.block) text (Object.ofJsonItems items)
        (configure config options).verbosity with
      ⟨e, unknown, result, silent⟩ | ⟨shape, known, ⟨e, refused, result, silent⟩ |
        ⟨output, bound, result, warned⟩⟩
    · rw [same, result, silent, List.append_nil]
      exact .failed ⟨.format read scans written unknown, before⟩
    · have before := before.next (Phase.clear_format read written known)
      rw [same, result, silent, List.append_nil]
      exact .failed ⟨.binding read scans written known given refused, before⟩
    · have before := before.next (Phase.clear_format read written known)
      have before := before.next (Phase.clear_binding read written known given bound)
      have count : (Object.ofJsonItems items).length = items.length := by
        rw [Object.ofJsonItems_eq_map, List.length_map]
      rw [same, result, warned, count]
      exact .answered (.scan read loaded scans written given known bound) fun phase =>
        before phase phase.place_lt
  · have nothing : recorded words around.files = [] := by
      simp only [recorded, read, loaded, scans, scanEvents, refused]
    have same : run words around =
        .ofResult around [] (.error (.badArguments argument fault)) := by
      simp only [run, read, loaded, scans, runScan, refused]
    exact .early nothing same ⟨.noJson read scans found parsed, before⟩
  · have nothing : recorded words around.files = [] := by
      simp only [recorded, read, loaded, scans, scanEvents, refused]
    have same : run words around = .ofResult around [] (.error .argumentsNotArray) := by
      simp only [run, read, loaded, scans, runScan, refused]
    exact .early nothing same ⟨.noArray read scans found parsed other, before⟩

private theorem ends_global (read : Options.parse words = .ok options)
    (loaded : loadConfig around.files options.config = .ok config) {name : String}
    (asked : options.global = some name)
    (before : Phase.ClearBefore words around.files Phase.globalName.place) :
    Ends words around (run words around) := by
  have nothing : recorded words around.files = [] := by
    simp only [recorded, read, loaded, asked]
  have same : run words around =
      .ofResult around [] (describeGlobal config.globals name) := by
    simp only [run, read, loaded, asked, configure_globals]
  rcases Global.find?_native name with ⟨global, found, rfl⟩ | ⟨missing, unknown⟩
  · have before := before.next (Phase.clear_globalName read fun name asked' =>
      ⟨global, Option.some.inj (asked.symm.trans asked')⟩)
    simp only [describeGlobal, found] at same
    rw [same, ← traced_eq_nil nothing, ← List.append_nil (traced words around.files)]
    refine .answered (.global read loaded asked) fun phase => ?_
    rcases Nat.lt_or_ge Phase.globalName.place phase.place with late | early
    · exact Phase.clear_of_global read asked late
    · exact before phase (Nat.lt_succ_of_le early)
  · simp only [describeGlobal, missing] at same
    exact .early nothing same ⟨.globalName read asked unknown, before⟩

end

theorem run_ends (words : List String) (around : Surroundings) :
    Ends words around (run words around) := by
  cases read : Options.parse words with
  | error e =>
    have nothing : recorded words around.files = [] := by simp only [recorded, read]
    have same : run words around = .ofResult around [] (.error (.usage e)) := by
      simp only [run, read]
    exact .early nothing same ⟨.commandLine read, Phase.clearBefore_zero⟩
  | ok options =>
    -- from here on each phase that is gone through makes the clear ones one more
    have before : Phase.ClearBefore words around.files Phase.configText.place :=
      Phase.clearBefore_zero.next (Phase.clear_commandLine read)
    rcases loadConfig_cases around.files options.config with
      ⟨config, loaded⟩ | ⟨path, named, ⟨e, missing, refused⟩ | ⟨text, fault, found, bad, refused⟩⟩
    · have before := before.next (Phase.clear_configText read fun path e named refused => by
        simp only [loadConfig, named, refused] at loaded
        cases loaded)
      have before := before.next (Phase.clear_config read loaded)
      rcases Options.parse_cases read with ⟨name, asked⟩ | ⟨text, written, scans⟩
      · exact ends_global read loaded asked before
      · have before := before.next (Phase.clear_globalName read fun name asked => by
          rw [scans] at asked
          cases asked)
        exact ends_scan read loaded scans before written
    · have nothing : recorded words around.files = [] := by simp only [recorded, read, refused]
      have same : run words around = .ofResult around [] (.error (.unreadable path e)) := by
        simp only [run, read, refused]
      exact .early nothing same ⟨.configText read named missing, before⟩
    · have nothing : recorded words around.files = [] := by simp only [recorded, read, refused]
      have same : run words around =
          .ofResult around [] (.error (.badConfig path text fault)) := by
        simp only [run, read, refused]
      have clear := Phase.clear_configText read fun other e named' refused' => by
        obtain rfl := Option.some.inj (named.symm.trans named')
        cases found.symm.trans refused'
      exact .early nothing same ⟨.config read named found bad, before.next clear⟩

/-- A line that the warnings write. -/
def IsWarning (line : String) : Prop :=
  ∃ message, line = "warning: " ++ message

/-- What the warnings, the events and the failures write is told apart by its first characters. -/
def opening (line : String) : List Char :=
  line.toList.take 3

private theorem IsWarning.opening_eq {line : String} (warns : IsWarning line) :
    opening line = ['w', 'a', 'r'] := by
  obtain ⟨message, rfl⟩ := warns
  simp [opening]

private theorem isWarning_emitIf {warnings : Warnings}
    (earlier : ∀ line ∈ warnings.lines, IsWarning line) (shown : Bool) (message : String) :
    ∀ line ∈ (warnings.emitIf shown message).2.lines, IsWarning line := by
  unfold Warnings.emitIf
  cases shown with
  | false => exact earlier
  | true =>
    intro line found
    rcases List.mem_append.1 found with before | last
    · exact earlier line before
    · exact ⟨message, List.mem_singleton.1 last⟩

private theorem isWarning_warn (shape : Format) (output : Output Object) (passed : Nat)
    (level : Verbosity) : ∀ line ∈ (warn shape output passed { level }).lines, IsWarning line := by
  have none : ∀ line ∈ ({ level : Warnings } : Warnings).lines, IsWarning line := by
    intro line found
    cases found
  unfold warn
  dsimp only
  split <;> split
  · exact isWarning_emitIf (isWarning_emitIf none _ _) _ _
  · exact isWarning_emitIf none _ _
  · exact isWarning_emitIf none _ _
  · exact none

private theorem Answers.isWarning {words : List String} {files : Files} {document : Json}
    {warnings : List String} (answers : Answers words files document warnings) :
    ∀ line ∈ warnings, IsWarning line := by
  cases answers with
  | global => exact List.forall_mem_nil _
  | scan => exact isWarning_warn _ _ _ _

private theorem opening_traced {words : List String} {files : Files} {line : String}
    (found : line ∈ traced words files) :
    opening line ∈
      [['s', 'c', 'a'], [' ', ' ', 'k'], [' ', ' ', '['], [' ', ' ', '='], [' ', ' ', '!']] := by
  unfold traced at found
  split at found
  · cases found
  · split at found
    · obtain ⟨event, -, rfl⟩ := List.mem_map.1 found
      cases event <;> simp [opening, Event.line]
    · cases found

private theorem opening_usageLines {line : String} (found : line ∈ Failure.usageLines) :
    opening line ∈ [['u', 's', 'a'], [' ', ' ', ' ']] := by
  simp only [Failure.usageLines, List.mem_cons, List.not_mem_nil, or_false] at found
  rcases found with rfl | rfl <;> decide

private theorem not_isWarning_usageLines {line : String} (found : line ∈ Failure.usageLines) :
    ¬ IsWarning line := by
  intro warns
  have opens := opening_usageLines found
  rw [warns.opening_eq] at opens
  exact absurd opens (by decide)

private theorem traced_line {words : List String} {files : Files} {line : String}
    (found : line ∈ traced words files) : ¬ IsWarning line ∧ line ∉ Failure.usageLines := by
  have opens := opening_traced found
  refine ⟨fun warns => ?_, fun usage => ?_⟩
  · rw [warns.opening_eq] at opens
    exact absurd opens (by decide)
  · have other := opening_usageLines usage
    simp only [List.mem_cons, List.not_mem_nil, or_false] at opens other
    rcases other with other | other <;> simp [other] at opens

theorem Phase.Fails.lines {words : List String} {files : Files} {phase : Phase} {failure : Failure}
    (around : Surroundings) (fails : phase.Fails words files failure) :
    ∃ message, opening message ∈ [['e', 'r', 'r'], ['u', 'n', 'k'], ['i', 'n', 'v'],
        ['a', 'r', 'g'], ['A', 'r', 'g']] ∧
      failure.lines around =
        message :: if phase = .commandLine then Failure.usageLines else [] := by
  have display (e : ScanError) : opening e.display = ['A', 'r', 'g'] := by
    cases e <;> simp [opening, ScanError.display, ScanError.exceptionClass, ExceptionClass.name]
  cases fails with
  | globalName => exact ⟨"unknown runtime global " ++ _, by simp [opening], rfl⟩
  | noArray => exact ⟨_, by decide, rfl⟩
  | binding | format => exact ⟨_, by simp [display], rfl⟩
  | _ => exact ⟨_, by simp [opening], rfl⟩

/-- What is written for a failure holds no warning, and says how the command is used exactly if the
command line is refused. -/
theorem Phase.Fails.errorStream {words : List String} {files : Files} {phase : Phase}
    {failure : Failure} (around : Surroundings) (fails : phase.Fails words files failure) :
    (∀ line ∈ traced words files ++ failure.lines around, ¬ IsWarning line) ∧
    ((∃ line ∈ traced words files ++ failure.lines around, line ∈ Failure.usageLines) ↔
      phase = .commandLine) := by
  obtain ⟨message, opens, spelled⟩ := fails.lines around
  rw [spelled]
  refine ⟨fun line found => ?_, fun ⟨line, found, usage⟩ => ?_, fun refused => ?_⟩
  · rcases List.mem_append.1 found with event | own
    · exact (traced_line event).1
    · rcases List.mem_cons.1 own with rfl | rest
      · intro warns
        rw [warns.opening_eq] at opens
        exact absurd opens (by decide)
      · split at rest
        · exact not_isWarning_usageLines rest
        · cases rest
  · by_contra other
    rw [if_neg other] at found
    rcases List.mem_append.1 found with event | own
    · exact (traced_line event).2 usage
    · obtain rfl := List.mem_singleton.1 own
      have other := opening_usageLines usage
      simp only [List.mem_cons, List.not_mem_nil, or_false] at opens other
      rcases other with other | other <;> simp [other] at opens
  · rw [if_pos refused]
    refine ⟨Failure.usageLines.head (by decide), ?_, List.head_mem _⟩
    exact List.mem_append_right _ (List.mem_cons_of_mem _ (List.head_mem _))

private theorem Failure.lines_mismatch (around : Surroundings) (path text : String)
    (m : Json.Mismatch) : ∃ place, (badConfig path text (.mismatch m)).lines around =
      ["error: error parsing " ++ path ++ ": " ++ m.message ++ place] := by
  obtain ⟨place, worded⟩ := around.configWording.mismatch text m
  refine ⟨place, ?_⟩
  rw [lines, worded, ← String.append_assoc]

/-- The command answers for the first phase that finds something wrong, and for that one alone: it
writes the message of the failure after the lines of the events, how it is used only if the command
line is refused, and no warning, and it leaves its output empty. If nothing is wrong for any phase
it succeeds: its output is one document, and the error stream holds lines of events and then
warnings. -/
theorem run_first_failure (words : List String) (around : Surroundings) :
    let outcome := run words around
    let events := traced words around.files
    (outcome.code = 0 ↔ ∀ phase : Phase, phase.Clear words around.files) ∧
    ((∀ phase : Phase, phase.Clear words around.files) ∨
      ∃ (phase : Phase) (failure : Failure), phase.FailsFirst words around.files failure) ∧
    (∀ (phase : Phase) (failure : Failure), phase.FailsFirst words around.files failure →
      outcome.code = 1 ∧ outcome.stdout = "" ∧
      outcome.stderr = events ++ failure.lines around ∧
      (∀ path text m, failure = .badConfig path text (.mismatch m) → ∃ place,
        failure.lines around = ["error: error parsing " ++ path ++ ": " ++ m.message ++ place]) ∧
      (∀ line ∈ outcome.stderr, ¬ IsWarning line) ∧
      ((∃ line ∈ outcome.stderr, line ∈ Failure.usageLines) ↔ phase = .commandLine)) ∧
    ((∀ phase : Phase, phase.Clear words around.files) →
      ∃ document warnings, Answers words around.files document warnings ∧
        outcome.stdout = document.prettyText ++ "\n" ∧ document.PrintedAs document.prettyText ∧
        outcome.stderr = events ++ warnings ∧
        ∀ line ∈ warnings, IsWarning line) := by
  intro outcome events
  have ends : Ends words around outcome := run_ends words around
  clear_value outcome
  cases ends with
  | answered answers clear =>
    refine ⟨⟨fun _ => clear, fun _ => rfl⟩, .inl clear, ?_, fun _ => ?_⟩
    · exact fun phase failure first => absurd first.1 (clear phase failure)
    · exact ⟨_, _, answers, rfl, Json.printedAs_prettyText _, rfl, answers.isWarning⟩
  | failed first =>
    refine ⟨⟨fun done => ?_, fun clear => ?_⟩, .inr ⟨_, _, first⟩, ?_, fun clear => ?_⟩
    · exact absurd done Nat.one_ne_zero
    · exact absurd first.1 (clear _ _)
    · intro phase failure first'
      obtain ⟨rfl, rfl⟩ := first.unique first'
      obtain ⟨silent, usage⟩ := first.1.errorStream around
      refine ⟨rfl, rfl, rfl, ?_, silent, usage⟩
      rintro path text m rfl
      exact Failure.lines_mismatch around path text m
    · exact absurd first.1 (clear _ _)

theorem run_first_failure_of_three :
    let words := ["--config", "absent", "x", "\x7b"]
    let around : Surroundings := {
      files := fun _ => .error (.system .noEntry)
      strerror := fun number => if number = 2 then "No such file or directory" else ""
      configWording := .placeless ""
      argumentsWording := .placeless "" }
    (∃ failure, Phase.arguments.Fails words around.files failure) ∧
    (∃ failure, Phase.format.Fails words around.files failure) ∧
    (run words around).code = 1 ∧ (run words around).stdout = "" ∧
    (run words around).stderr =
      ["error: error reading absent: No such file or directory (os error 2)"] := by
  intro words around
  have read : Options.parse words =
      .ok { format := some "x", arguments := some "\x7b", config := some "absent" } := by decide
  have first : Phase.configText.FailsFirst words around.files
      (.unreadable "absent" (.system .noEntry)) :=
    ⟨.configText read rfl rfl, Phase.clearBefore_zero.next (Phase.clear_commandLine read)⟩
  obtain ⟨code, output, errors, -⟩ := (run_first_failure words around).2.2.1 _ _ first
  refine ⟨⟨_, .noJson read rfl rfl rfl⟩, ⟨_, .format read rfl rfl rfl⟩, code, output, ?_⟩
  rw [errors]
  decide

end Command
end NativeCall
