import Mathlib.Data.List.Flatten
import NativeCall.Command.Outcome
import NativeCall.Proofs.Command.EventLines
import NativeCall.Proofs.Scanner.Memoization

/-!
The answer of the command, which is its exit code and its output, does not depend on how much it is
asked to tell about itself. Tracing puts the events of the scan before what is written to the error
stream anyway, verbosity only adds warnings to it, and of a configuration file a scan uses the
verbosity alone. `run_diagnostics` says so of every command line.
-/

set_option autoImplicit false
set_option relaxedAutoImplicit false

namespace NativeCall

namespace Warnings

/-- The other warnings are shown at every level, and hold at least these lines. -/
def Within (fewer more : Warnings) : Prop :=
  more.level = .verbose ∧ fewer.lines.Sublist more.lines

namespace Within

variable {fewer more : Warnings}

theorem emitIf (within : fewer.Within more) (shown : Bool) (message : String) :
    (fewer.emitIf shown message).2.Within (more.emitIf true message).2 := by
  obtain ⟨level, lines⟩ := within
  refine ⟨level, ?_⟩
  cases shown with
  | true => exact lines.append (List.Sublist.refl _)
  | false => exact lines.trans (List.sublist_append_left _ _)

theorem ordinary (within : fewer.Within more) (message : String) :
    (fewer.ordinary message).2.Within (more.ordinary message).2 := by
  have shown : more.level.showsOrdinary = true := by
    rw [within.1]
    rfl
  unfold Warnings.ordinary
  rw [shown]
  exact within.emitIf ..

theorem extra (within : fewer.Within more) (message : String) :
    (fewer.extra message).2.Within (more.extra message).2 := by
  have shown : more.level.showsExtra = true := by
    rw [within.1]
    rfl
  unfold Warnings.extra
  rw [shown]
  exact within.emitIf ..

theorem warn (within : fewer.Within more) (format : Format) (output : Output Object)
    (passed : Nat) :
    (Command.warn format output passed fewer).Within (Command.warn format output passed more) := by
  have dropped : Warnings.Within
      (if 0 < Command.droppedSlots format then
        (fewer.ordinary (Command.droppedMessage format)).2 else fewer)
      (if 0 < Command.droppedSlots format then
        (more.ordinary (Command.droppedMessage format)).2 else more) := by
    split
    · exact within.ordinary _
    · exact within
  unfold Command.warn
  dsimp only
  split
  · exact dropped.extra _
  · exact dropped

end Within

end Warnings

namespace Command

namespace Outcome

def errorText (outcome : Outcome) : List Char :=
  outcome.stderr.flatMap fun line => line.toList ++ ['\n']

/-- The lines that the error stream shows. Its text ends with a line end or is empty. -/
def errorLines (outcome : Outcome) : List (List Char) :=
  (outcome.errorText.splitOn '\n').dropLast

/-- Two outcomes that the caller of the command cannot tell apart but by the error stream. -/
def SameAnswer (one other : Outcome) : Prop :=
  one.code = other.code ∧ one.stdout = other.stdout

def after (lines : List String) (outcome : Outcome) : Outcome :=
  { outcome with stderr := lines ++ outcome.stderr }

private theorem errorLines_eq (outcome : Outcome) :
    outcome.errorLines = outcome.stderr.flatMap fun line => line.toList.splitOn '\n' := by
  have ended : outcome.errorText.splitOn '\n' =
      (outcome.stderr.flatMap fun line => line.toList.splitOn '\n') ++ [[]] := by
    unfold errorText
    induction outcome.stderr with
    | nil => rfl
    | cons line lines ih =>
      rw [List.flatMap_cons, List.append_assoc, List.singleton_append,
        List.splitOn_append_cons_self, ih, List.flatMap_cons, List.append_assoc]
  rw [errorLines, ended, List.dropLast_append_of_ne_nil (by decide), List.dropLast_singleton,
    List.append_nil]

private theorem errorLines_sublist {one other : Outcome}
    (within : one.stderr.Sublist other.stderr) : one.errorLines.Sublist other.errorLines := by
  rw [errorLines_eq, errorLines_eq]
  exact within.flatMap _

private theorem errorText_after (events : List Event) (outcome : Outcome) :
    (outcome.after (events.map Event.line)).errorText =
      events.flatMap (fun event => event.line.toList ++ ['\n']) ++ outcome.errorText := by
  rw [errorText, after, List.flatMap_append, List.flatMap_map]
  rfl

private theorem errorLines_after (events : List Event) (outcome : Outcome) :
    (outcome.after (events.map Event.line)).errorLines =
      events.map (fun event => event.line.toList) ++ outcome.errorLines := by
  rw [errorLines_eq, errorLines_eq, after, List.flatMap_append, List.flatMap_map]
  congr 1
  induction events with
  | nil => rfl
  | cons event events ih =>
    have single : event.line.toList.splitOn '\n' = [event.line.toList] :=
      List.splitOn_eq_singleton (OneLine.line event)
    rw [List.flatMap_cons, single, ih, List.map_cons, List.singleton_append]

private theorem ofResult_append (around : Surroundings) (first notes : List String)
    (result : Except Failure Json) :
    ofResult around (first ++ notes) result = (ofResult around notes result).after first := by
  cases result with
  | ok document => rfl
  | error failure =>
    rw [ofResult, ofResult, after, List.append_assoc]

private theorem ofResult_sameAnswer (around : Surroundings) (notes others : List String)
    (result : Except Failure Json) :
    (ofResult around notes result).SameAnswer (ofResult around others result) := by
  cases result with
  | ok document => exact ⟨rfl, rfl⟩
  | error failure => exact ⟨rfl, rfl⟩

private theorem ofResult_files (around : Surroundings) (files : Files) (notes : List String)
    (result : Except Failure Json) :
    ofResult { around with files } notes result = ofResult around notes result := by
  cases result with
  | ok document => rfl
  | error failure => cases failure <;> rfl

private theorem ofResult_sublist (around : Surroundings) {fewer more : List String}
    (within : fewer.Sublist more) (result : Except Failure Json) :
    (ofResult around fewer result).stderr.Sublist (ofResult around more result).stderr := by
  cases result with
  | ok document => exact within
  | error failure => exact within.append (List.Sublist.refl _)

end Outcome

namespace Options

def raised (trace verbose : Bool) (options : Options) : Options :=
  { options with trace := options.trace || trace, verbose := options.verbose || verbose }

variable (trace verbose : Bool) (options : Options)

@[simp]
theorem raised_format : (options.raised trace verbose).format = options.format := rfl

@[simp]
theorem raised_arguments : (options.raised trace verbose).arguments = options.arguments := rfl

@[simp]
theorem raised_global : (options.raised trace verbose).global = options.global := rfl

@[simp]
theorem raised_config : (options.raised trace verbose).config = options.config := rfl

@[simp]
theorem raised_trace : (options.raised trace verbose).trace = (options.trace || trace) := rfl

@[simp]
theorem raised_verbose : (options.raised trace verbose).verbose = (options.verbose || verbose) :=
  rfl

private theorem addPositional_raised (word : String) :
    (options.raised trace verbose).addPositional word =
      raised trace verbose <$> options.addPositional word := by
  unfold addPositional
  rw [raised_format, raised_arguments]
  cases options.format with
  | none => rfl
  | some format =>
    cases options.arguments with
    | none => rfl
    | some arguments => rfl

private theorem readWords_raised (words : List String) :
    readWords words (options.raised trace verbose) =
      raised trace verbose <$> readWords words options := by
  induction words, options using readWords.induct with
  | case1 options => rfl
  | case2 word words options known ih
  | case3 word words options known ih
  | case4 word words options known ih
  | case6 word options known value words ih
  | case8 word options known value words ih =>
    unfold readWords
    simp only [known]
    exact ih
  | case5 word options known
  | case7 word options known
  | case9 word words options known =>
    unfold readWords
    simp only [known]
    rfl
  | case10 word words options known taken added ih =>
    unfold readWords
    simp only [known, addPositional_raised, added]
    exact ih
  | case11 word words options known e refused =>
    unfold readWords
    simp only [known, addPositional_raised, refused]
    rfl

private theorem check_raised :
    (options.raised trace verbose).check = raised trace verbose <$> options.check := by
  unfold check
  rw [raised_format, raised_global]
  split <;> rfl

private theorem parse_raised (word : String) (words : List String)
    (sets : readWords (word :: words) {} = readWords words (({} : Options).raised trace verbose)) :
    parse (word :: words) = raised trace verbose <$> parse words := by
  unfold parse
  rw [sets, readWords_raised]
  cases readWords words {} with
  | error e => rfl
  | ok options => exact check_raised trace verbose options

private theorem parse_trace (words : List String) :
    parse ("--trace" :: words) = raised true false <$> parse words := by
  have known : Word.classify "--trace" = .flag .trace := by decide
  apply parse_raised
  rw [readWords.eq_def]
  simp only [known]
  rfl

private theorem parse_verbose (words : List String) :
    parse ("--verbose" :: words) = raised false true <$> parse words := by
  have known : Word.classify "--verbose" = .flag .verbose := by decide
  apply parse_raised
  rw [readWords.eq_def]
  simp only [known]
  rfl

end Options

def eventsAnew (block : Option Object) (text : String) (args : List Object) : List Event :=
  match Format.parse text with
  | .error e => [.error e]
  | .ok format =>
    let binding := ((bindArgs (Object.host block) format args).run ()).1
    .parse text format false :: (binding.events ++ [Scanner.outcome binding.result])

/-- The report of a scan and the warnings after it, in which no scanner has a part. -/
def reported (block : Option Object) (text : String) (args : List Object) (warnings : Warnings) :
    Except ScanError Json × Warnings :=
  match Format.parse text with
  | .error e => (.error e, warnings)
  | .ok format =>
    match ((bindArgs (Object.host block) format args).run ()).1.result with
    | .error e => (.error e, warnings)
    | .ok output => (.ok (reportJson format output), warn format output args.length warnings)

section

variable {τ : Type} [Tracer τ] (block : Option Object) (text : String) (args : List Object)

theorem inspectScan_eq (tracer : τ) (capacity : Nat) (warnings : Warnings) :
    ∃ memo, inspectScan (.ofCapacity tracer capacity) block text args warnings =
      ⟨(reported block text args warnings).1,
        ⟨memo, Tracer.tellAll tracer (eventsAnew block text args)⟩,
        (reported block text args warnings).2⟩ := by
  obtain ⟨memo, read⟩ := Scanner.shape_ofCapacity tracer capacity text
  refine ⟨memo, ?_⟩
  unfold inspectScan reported eventsAnew
  rw [read]
  cases Format.parse text with
  | error e => rfl
  | ok format =>
    simp only [Scanner.bind, run_seq, run_pure]
    cases ((bindArgs (Object.host block) format args).run ()).1.result with
    | ok output => rfl
    | error e => rfl

/-- The scanner is left as a scan leaves it, its tracer included. -/
theorem scanner_inspectScan (scanner : Scanner τ) (warnings : Warnings) :
    (inspectScan scanner block text args warnings).scanner =
      ((scanner.scan (Object.host block) text args).run ()).1.2 := by
  unfold inspectScan Scanner.scan
  cases scanner.shape text with
  | mk read after =>
    cases read with
    | error e => rfl
    | ok format =>
      dsimp only
      cases ((after.bind (Object.host block) format args).run ()).1 with
      | mk result bound =>
        cases result with
        | ok output => rfl
        | error e => rfl

end

private theorem reported_level (block : Option Object) (text : String) (args : List Object)
    (level : Verbosity) :
    let one := reported block text args { level }
    let other := reported block text args { level := .verbose }
    one.1 = other.1 ∧ one.2.Within other.2 := by
  have start : Warnings.Within { level } { level := .verbose } := ⟨rfl, List.Sublist.refl _⟩
  unfold reported
  cases Format.parse text with
  | error e => exact ⟨rfl, start⟩
  | ok format =>
    dsimp only
    cases ((bindArgs (Object.host block) format args).run ()).1.result with
    | error e => exact ⟨rfl, start⟩
    | ok output => exact ⟨rfl, start.warn ..⟩

private theorem fst_reported (block : Option Object) (text : String) (args : List Object)
    (level level' : Verbosity) :
    (reported block text args { level }).1 = (reported block text args { level := level' }).1 :=
  (reported_level block text args level).1.trans (reported_level block text args level').1.symm

/-- The events that the scan of the command leaves on a recording scanner of the same configuration.
There are none if there is nothing to scan. -/
def scanEvents (config : Config) (options : Options) : List Event :=
  match readArguments options.arguments with
  | .error _ => []
  | .ok args =>
    let scanner := Scanner.ofCapacity ([] : Recording) config.capacity.toNat
    ((scanner.scan (Object.host (passedBlock options.block)) (options.format.getD "")
      args).run ()).1.2.tracer

def recorded (words : List String) (files : Files) : List Event :=
  match Options.parse words with
  | .error _ => []
  | .ok options =>
    match loadConfig files options.config, options.global with
    | .ok config, none => scanEvents config options
    | _, _ => []

private theorem scanEvents_eq (config : Config) (options : Options) :
    scanEvents config options = match readArguments options.arguments with
      | .error _ => []
      | .ok args => eventsAnew (passedBlock options.block) (options.format.getD "") args := by
  unfold scanEvents
  cases readArguments options.arguments with
  | error failure => rfl
  | ok args =>
    obtain ⟨memo, scanned⟩ := inspectScan_eq (passedBlock options.block)
      (options.format.getD "") args ([] : Recording) config.capacity.toNat {}
    dsimp only
    rw [← scanner_inspectScan _ _ _ _ {}, scanned, Tracer.tellAll_recording, List.nil_append]

private theorem lines_tellAll (events : List Event) :
    (Tracer.tellAll ({} : Log) events).lines = events.map Event.line := by
  have told := Log.follows_ofEvents.tellAll [] events
  rw [Tracer.tellAll_recording] at told
  exact (congrArg Log.lines told).symm

section

variable (around : Surroundings) (config config' : Config) (options : Options)

/-- The tracer of the scan writes the lines of its events, if it is one that writes, and the memo
has no part in what comes out. -/
theorem runScan_eq :
    runScan around config options = match readArguments options.arguments with
      | .error failure => .ofResult around [] (.error failure)
      | .ok args =>
        let answer := reported (passedBlock options.block) (options.format.getD "") args
          { level := config.verbosity }
        .ofResult around
          ((if options.trace then (scanEvents config options).map Event.line else []) ++
            answer.2.lines)
          (answer.1.mapError .scan) := by
  unfold runScan
  rw [scanEvents_eq]
  cases readArguments options.arguments with
  | error failure => rfl
  | ok args =>
    dsimp only
    cases options.trace with
    | true =>
      obtain ⟨memo, scanned⟩ := inspectScan_eq (passedBlock options.block)
        (options.format.getD "") args ({} : Log) config.capacity.toNat
        { level := config.verbosity }
      simp only [scanWith, scanned, lines_tellAll, ↓reduceIte]
    | false =>
      obtain ⟨memo, scanned⟩ := inspectScan_eq (passedBlock options.block)
        (options.format.getD "") args Silent.mk config.capacity.toNat
        { level := config.verbosity }
      simp only [scanWith, scanned, Bool.false_eq_true, ↓reduceIte]

private theorem runScan_files (files : Files) :
    runScan { around with files } config options = runScan around config options := by
  rw [runScan_eq, runScan_eq]
  cases readArguments options.arguments with
  | error failure => exact Outcome.ofResult_files ..
  | ok args => exact Outcome.ofResult_files ..

theorem scanEvents_config : scanEvents config options = scanEvents config' options := by
  rw [scanEvents_eq, scanEvents_eq]

private theorem runScan_trace (silent : options.trace = false) :
    runScan around config (options.raised true false) =
      (runScan around config options).after ((scanEvents config options).map Event.line) := by
  have same : scanEvents config (options.raised true false) = scanEvents config options := rfl
  rw [runScan_eq, runScan_eq, same, scanEvents_eq, Options.raised_trace,
    Options.raised_arguments, silent]
  cases readArguments options.arguments with
  | error failure => rfl
  | ok args =>
    rw [← Outcome.ofResult_append]
    rfl

private theorem runScan_verbose :
    runScan around config (options.raised false true) = runScan around config options := by
  unfold runScan
  rw [Options.raised_trace, Bool.or_false]
  rfl

/-- Of its configuration the scan of the command uses the verbosity, and only for its warnings. -/
theorem runScan_config :
    (runScan around config options).SameAnswer (runScan around config' options) ∧
    (config.verbosity = config'.verbosity →
      runScan around config options = runScan around config' options) ∧
    (config'.verbosity = .verbose →
      (runScan around config options).stderr.Sublist (runScan around config' options).stderr) := by
  rw [runScan_eq, runScan_eq, scanEvents_config config config']
  cases readArguments options.arguments with
  | error failure => exact ⟨⟨rfl, rfl⟩, fun _ => rfl, fun _ => List.Sublist.refl _⟩
  | ok args =>
    dsimp only
    rw [fst_reported _ _ _ config.verbosity config'.verbosity]
    refine ⟨Outcome.ofResult_sameAnswer .., fun same => ?_, fun loud => ?_⟩
    · rw [same]
    · rw [loud]
      exact Outcome.ofResult_sublist around
        ((reported_level _ _ args config.verbosity).2.2.append_left _) _

end

theorem configure_globals (config : Config) (options : Options) :
    (configure config options).globals = config.globals := by
  unfold configure
  split <;> rfl

private theorem run_raised {trace verbose : Bool} {words words' : List String}
    (read : Options.parse words' = Options.raised trace verbose <$> Options.parse words)
    (around : Surroundings) :
    (run words' around = run words around ∧ recorded words around.files = []) ∨
    ∃ options config, Options.parse words = .ok options ∧
      recorded words around.files = scanEvents config options ∧
      run words around = runScan around (configure config options) options ∧
      run words' around = runScan around (configure config (options.raised trace verbose))
        (options.raised trace verbose) := by
  unfold run recorded
  rw [read]
  cases Options.parse words with
  | error e => exact .inl ⟨rfl, rfl⟩
  | ok options =>
    dsimp only [Functor.map, Except.map]
    rw [Options.raised_config, Options.raised_global]
    cases loadConfig around.files options.config with
    | error failure => exact .inl ⟨rfl, rfl⟩
    | ok config =>
      dsimp only
      cases options.global with
      | some name =>
        dsimp only
        rw [configure_globals, configure_globals]
        exact .inl ⟨rfl, rfl⟩
      | none => exact .inr ⟨options, config, rfl, rfl, rfl, rfl⟩

private theorem run_trace (words : List String) (around : Surroundings)
    (silent : ∀ options, Options.parse words = .ok options → options.trace = false) :
    run ("--trace" :: words) around =
      (run words around).after ((recorded words around.files).map Event.line) := by
  rcases run_raised (Options.parse_trace words) around with
    ⟨same, nothing⟩ | ⟨options, config, read, events, plain, traced⟩
  · rw [same, nothing]
    rfl
  · have level : configure config (options.raised true false) = configure config options := by
      unfold configure
      rw [Options.raised_verbose, Bool.or_false]
    rw [traced, plain, events, level, runScan_trace _ _ _ (silent options read),
      scanEvents_config config]

private theorem run_verbose (words : List String) (around : Surroundings) :
    (run words around).SameAnswer (run ("--verbose" :: words) around) ∧
    (run words around).stderr.Sublist (run ("--verbose" :: words) around).stderr := by
  rcases run_raised (Options.parse_verbose words) around with
    ⟨same, -⟩ | ⟨options, config, -, -, plain, loud⟩
  · rw [same]
    exact ⟨⟨rfl, rfl⟩, List.Sublist.refl _⟩
  · have level : (configure config (options.raised false true)).verbosity = .verbose := by
      unfold configure
      rw [Options.raised_verbose, Bool.or_true, if_pos rfl]
    obtain ⟨answer, -, within⟩ := runScan_config around (configure config options)
      (configure config (options.raised false true)) options
    rw [plain, loud, runScan_verbose]
    exact ⟨answer, within level⟩

private theorem run_config {words words' : List String} {around : Surroundings} {files' : Files}
    {options : Options} {path : Option String} {config config' : Config}
    (read : Options.parse words = .ok options) (scans : options.global = none)
    (read' : Options.parse words' = .ok { options with config := path })
    (loaded : loadConfig around.files options.config = .ok config)
    (loaded' : loadConfig files' path = .ok config') :
    (run words around).SameAnswer (run words' { around with files := files' }) ∧
    (config.verbosity = config'.verbosity →
      (run words around).stderr = (run words' { around with files := files' }).stderr) := by
  have one : run words around = runScan around (configure config options) options := by
    simp only [run, read, loaded, scans]
  have other : run words' { around with files := files' } =
      runScan around (configure config' options) options := by
    rw [← runScan_files around (configure config' options) options files']
    simp only [run, read', loaded', scans]
    rfl
  obtain ⟨same, equal, -⟩ :=
    runScan_config around (configure config options) (configure config' options) options
  rw [one, other]
  refine ⟨same, fun level => congrArg Outcome.stderr (equal ?_)⟩
  unfold configure
  split
  · rfl
  · exact level

/-- Telling more about a run of the command does not change its answer: not its trace, not its
warnings, and not what a scan is configured to remember or the globals it is configured with. -/
theorem run_diagnostics (words : List String) (around : Surroundings) :
    ((∀ options, Options.parse words = .ok options → options.trace = false) →
      (run ("--trace" :: words) around).SameAnswer (run words around) ∧
      (run ("--trace" :: words) around).errorText =
        (recorded words around.files).flatMap (fun event => event.line.toList ++ ['\n']) ++
          (run words around).errorText ∧
      (run ("--trace" :: words) around).errorLines =
        (recorded words around.files).map (fun event => event.line.toList) ++
          (run words around).errorLines) ∧
    ((run ("--verbose" :: words) around).SameAnswer (run words around) ∧
      (run words around).errorLines.Sublist (run ("--verbose" :: words) around).errorLines) ∧
    ∀ (options : Options) (words' : List String) (path : Option String) (files' : Files)
      (config config' : Config),
      Options.parse words = .ok options → options.global = none →
      Options.parse words' = .ok { options with config := path } →
      loadConfig around.files options.config = .ok config →
      loadConfig files' path = .ok config' →
      (run words around).SameAnswer (run words' { around with files := files' }) ∧
      (config.verbosity = config'.verbosity →
        (run words around).stderr = (run words' { around with files := files' }).stderr) := by
  refine ⟨fun silent => ?_, ?_, ?_⟩
  · rw [run_trace words around silent]
    exact ⟨⟨rfl, rfl⟩, Outcome.errorText_after .., Outcome.errorLines_after ..⟩
  · obtain ⟨⟨code, stdout⟩, within⟩ := run_verbose words around
    exact ⟨⟨code.symm, stdout.symm⟩, Outcome.errorLines_sublist within⟩
  · intro options words' path files' config config' read scans read' loaded loaded'
    exact run_config read scans read' loaded loaded'

theorem run_diagnostics_of_two_configs :
    let words := ["1:", "[5]", "--config", "first"]
    let words' := ["1:", "[5]", "--config", "second"]
    let first := "\x7b\"verbosity\":\"verbose\",\"spec_cache_capacity\":0\x7d"
    let second := "\x7b\"globals\":\x7b\"field_separator\":\",\"\x7d,\"verbosity\":\"verbose\"\x7d"
    let files : Files := fun path => .ok (if path = "first" then first else second)
    let around : Surroundings := ⟨files, fun _ => "", .placeless "", .placeless ""⟩
    (run ("--trace" :: words) around).SameAnswer (run words around) ∧
    (run ("--trace" :: words) around).stderr = [
      "scan \"1:\" leading=1 optional=0 rest=false trailing=0 keywords=true block=false",
      "  keywords: erased",
      "  [0] leading",
      "  [1] keywords",
      "  => argc=1",
      "warning: no keyword hash passed to 1:; keyword slot is nil"] ∧
    (run words around).SameAnswer (run words' around) ∧
    (run words around).stderr = (run words' around).stderr := by
  intro words words' first second files around
  have read : Options.parse words =
      .ok { format := some "1:", arguments := some "[5]", config := some "first" } := by decide
  have read' : Options.parse words' =
      .ok { format := some "1:", arguments := some "[5]", config := some "second" } := by decide
  have silent (options : Options) (parsed : Options.parse words = .ok options) :
      options.trace = false := by
    obtain rfl := Except.ok.inj (read.symm.trans parsed)
    rfl
  have loaded : loadConfig files (some "first") =
      .ok { verbosity := .verbose, capacity := 0 } := by decide +kernel
  have loaded' : loadConfig files (some "second") =
      .ok { verbosity := .verbose, globals := { fieldSeparator := some "," } } := by
    decide +kernel
  obtain ⟨traced, -, configured⟩ := run_diagnostics words around
  obtain ⟨same, equal⟩ :=
    configured _ words' (some "second") files _ _ read rfl read' loaded loaded'
  exact ⟨(traced silent).1, by decide +kernel, same, equal rfl⟩

end Command

end NativeCall
