import NativeCall.Command.Options
import NativeCall.Command.Report
import NativeCall.Json.Document
import NativeCall.Json.Written
import NativeCall.Posix.FileTree

/-!
The whole command. It goes through its phases in order, and the first that fails decides the
outcome: the command line, the configuration file, and then either the name of a global or the
arguments, the format and the binding of a scan.
-/

set_option autoImplicit false
set_option relaxedAutoImplicit false

namespace NativeCall.Command

inductive ReadError where
  | system (e : Posix.Errno)
  | notUtf8
  deriving DecidableEq, Repr

def ReadError.describe (strerror : Int → String) : ReadError → String
  | system e => e.describe strerror
  | notUtf8 => "stream did not contain valid UTF-8"

abbrev Files := String → Except ReadError String

namespace Files

def text (bytes : ByteArray) : Except ReadError String :=
  match String.fromUTF8? bytes with
  | some text => .ok text
  | none => .error .notUtf8

/-- The files of a tree around the working directory. -/
def ofTree (working : Posix.FileTree) : Files := fun path =>
  match working.read path with
  | .ok bytes => text ⟨bytes.toArray⟩
  | .error e => .error (.system e)

end Files

/-- What the command finds around it: the files, the names that the C library has for system errors,
and the wording of what is wrong with a JSON text. -/
structure Surroundings where
  files : Files
  strerror : Int → String
  configWording : Json.Wording
  argumentsWording : Json.Wording

inductive Failure where
  | usage (e : UsageError)
  | unreadable (path : String) (e : ReadError)
  | badConfig (path text : String) (fault : Json.Fault)
  | unknownGlobal (name : String)
  | badArguments (text : String) (fault : Json.Fault)
  | argumentsNotArray
  | scan (e : ScanError)
  deriving DecidableEq, Repr

namespace Failure

def usageLines : List String := [
  "usage: rbshim <format> [json-args] [--block] [--trace] [--verbose] [--config <file>]",
  "       rbshim --global <rb_name> [--config <file>]"]

def unknownGlobalMessage (name : String) : String :=
  "unknown runtime global " ++ Text.Quoted.quote name

def lines (around : Surroundings) : Failure → List String
  | usage e => ("error: " ++ e.message) :: usageLines
  | unreadable path e => ["error: error reading " ++ path ++ ": " ++ e.describe around.strerror]
  | badConfig path text fault =>
    ["error: error parsing " ++ path ++ ": " ++ around.configWording.describe text fault]
  | unknownGlobal name => [unknownGlobalMessage name]
  | badArguments text fault =>
    ["invalid JSON arguments: " ++ around.argumentsWording.describe text fault]
  | argumentsNotArray => ["arguments must be a JSON array"]
  | scan e => [e.display]

end Failure

def namedBlock : Object := .proc "block"

def passedBlock (passed : Bool) : Option Object :=
  if passed then some namedBlock else none

def loadConfig (files : Files) : Option String → Except Failure Config
  | none => .ok {}
  | some path =>
    match files path with
    | .error e => .error (.unreadable path e)
    | .ok text =>
      match Config.ofJson text with
      | .ok config => .ok config
      | .error fault => .error (.badConfig path text fault)

def describeGlobal (globals : Globals) (name : String) : Except Failure Json :=
  match Global.nativeLabels.find? name with
  | some global => .ok (globalJson globals global)
  | none => .error (.unknownGlobal name)

def readArguments : Option String → Except Failure (List Object)
  | none => .ok []
  | some text =>
    match Json.parse text with
    | .ok ⟨.array items, _⟩ => .ok (Object.ofJsonItems items)
    | .ok _ => .error .argumentsNotArray
    | .error fault => .error (.badArguments text fault)

structure Outcome where
  success : Bool
  stdout : String
  stderr : List String
  deriving DecidableEq, Repr

namespace Outcome

def code (outcome : Outcome) : Nat :=
  if outcome.success then 0 else 1

def ofResult (around : Surroundings) (notes : List String) : Except Failure Json → Outcome
  | .ok document => ⟨true, document.prettyText ++ "\n", notes⟩
  | .error failure => ⟨false, "", notes ++ failure.lines around⟩

end Outcome

/-- The scan of the command with a scanner of its own, and what the tracer puts on the error
stream. -/
def scanWith {τ : Type} [Tracer τ] (tracer : τ) (written : τ → List String)
    (around : Surroundings) (config : Config) (options : Options) (args : List Object) : Outcome :=
  let scanner := Scanner.ofCapacity tracer config.capacity.toNat
  let done := inspectScan scanner (passedBlock options.block) (options.format.getD "") args
    { level := config.verbosity }
  let notes := written done.scanner.tracer ++ done.warnings.lines
  .ofResult around notes (done.result.mapError .scan)

def runScan (around : Surroundings) (config : Config) (options : Options) : Outcome :=
  match readArguments options.arguments with
  | .error failure => .ofResult around [] (.error failure)
  | .ok args =>
    if options.trace then scanWith ({} : Log) Log.lines around config options args
    else scanWith Silent.mk (fun _ => []) around config options args

def configure (config : Config) (options : Options) : Config :=
  if options.verbose then { config with verbosity := .verbose } else config

def run (words : List String) (around : Surroundings) : Outcome :=
  match Options.parse words with
  | .error e => .ofResult around [] (.error (.usage e))
  | .ok options =>
    match loadConfig around.files options.config with
    | .error failure => .ofResult around [] (.error failure)
    | .ok config =>
      let config := configure config options
      match options.global with
      | some name => .ofResult around [] (describeGlobal config.globals name)
      | none => runScan around config options

end NativeCall.Command
