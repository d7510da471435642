import NativeCall.Labels
import NativeCall.Text.Quoted

/-!
The words of the command line: flags, two options that take the word after them, and at most two
positional words, the format and its arguments.
-/

set_option autoImplicit false
set_option relaxedAutoImplicit false

namespace NativeCall.Command

structure Options where
  format : Option String := none
  arguments : Option String := none
  global : Option String := none
  config : Option String := none
  block : Bool := false
  trace : Bool := false
  verbose : Bool := false
  deriving DecidableEq, Repr

inductive UsageError where
  | configNeedsFile
  | globalNeedsName
  | unknownOption (word : String)
  | unexpected (word : String)
  | missingFormat
  | globalTakesNoFormat
  deriving DecidableEq, Repr

namespace UsageError

def message : UsageError → String
  | configNeedsFile => "--config needs a file"
  | globalNeedsName => "--global needs a name"
  | unknownOption word => "unknown option " ++ word
  | unexpected word => "unexpected argument " ++ Text.Quoted.quote word
  | missingFormat => "missing format"
  | globalTakesNoFormat => "--global takes no format"

end UsageError

inductive Flag where
  | block
  | trace
  | verbose
  | config
  | global
  deriving DecidableEq, Repr

namespace Flag

def name : Flag → String
  | block => "--block"
  | trace => "--trace"
  | verbose => "--verbose"
  | config => "--config"
  | global => "--global"

def labels : Labels Flag :=
  ⟨[block, trace, verbose, config, global], name⟩

end Flag

inductive Word where
  | flag (f : Flag)
  | unknown
  | positional
  deriving DecidableEq, Repr

/-- Every word that begins with two dashes is a flag, known or not. -/
def Word.classify (word : String) : Word :=
  match Flag.labels.find? word with
  | some f => flag f
  | none =>
    match word.toList with
    | '-' :: '-' :: _ => unknown
    | _ => positional

namespace Options

def addPositional (options : Options) (word : String) : Except UsageError Options :=
  match options.format, options.arguments with
  | none, _ => .ok { options with format := some word }
  | some _, none => .ok { options with arguments := some word }
  | some _, some _ => .error (.unexpected word)

/-- Reads words from the left. An option takes the word after it, whatever that looks like, and the
last of several options counts. -/
def readWords : List String → Options → Except UsageError Options
  | [], options => .ok options
  | word :: words, options =>
    match Word.classify word with
    | .flag .block => readWords words { options with block := true }
    | .flag .trace => readWords words { options with trace := true }
    | .flag .verbose => readWords words { options with verbose := true }
    | .flag .config =>
      match words with
      | [] => .error .configNeedsFile
      | value :: words => readWords words { options with config := some value }
    | .flag .global =>
      match words with
      | [] => .error .globalNeedsName
      | value :: words => readWords words { options with global := some value }
    | .unknown => .error (.unknownOption word)
    | .positional =>
      match options.addPositional word with
      | .ok options => readWords words options
      | .error e => .error e

def check (options : Options) : Except UsageError Options :=
  match options.format, options.global with
  | none, none => .error .missingFormat
  | some _, some _ => .error .globalTakesNoFormat
  | _, _ => .ok options

def parse (words : List String) : Except UsageError Options :=
  readWords words {} >>= check

end Options

end NativeCall.Command
