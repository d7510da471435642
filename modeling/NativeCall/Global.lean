import NativeCall.Json.Schema
import NativeCall.Object

/-!
The global values of a runtime that native methods read: the standard streams and the separators of
fields and records. Four of the separators can be assigned.
-/

set_option autoImplicit false
set_option relaxedAutoImplicit false

namespace NativeCall

inductive Global where
  | stdin
  | stdout
  | stderr
  | fieldSeparator
  | outputFieldSeparator
  | recordSeparator
  | outputRecordSeparator
  /-- What the record separator is at first; it cannot be assigned. -/
  | defaultRecordSeparator
  deriving DecidableEq, Repr

namespace Global

def all : List Global :=
  [stdin, stdout, stderr, fieldSeparator, outputFieldSeparator, recordSeparator,
    outputRecordSeparator, defaultRecordSeparator]

def nativeName : Global → String
  | stdin => "rb_stdin"
  | stdout => "rb_stdout"
  | stderr => "rb_stderr"
  | fieldSeparator => "rb_fs"
  | outputFieldSeparator => "rb_output_fs"
  | recordSeparator => "rb_rs"
  | outputRecordSeparator => "rb_output_rs"
  | defaultRecordSeparator => "rb_default_rs"

def documentName : Global → String
  | stdin => "Stdin"
  | stdout => "Stdout"
  | stderr => "Stderr"
  | fieldSeparator => "Fs"
  | outputFieldSeparator => "OutputFs"
  | recordSeparator => "Rs"
  | outputRecordSeparator => "OutputRs"
  | defaultRecordSeparator => "DefaultRs"

def nativeLabels : Labels Global := ⟨all, nativeName⟩

def documentLabels : Labels Global := ⟨all, documentName⟩

def hostVariable : Global → Option String
  | stdin => some "$stdin"
  | stdout => some "$stdout"
  | stderr => some "$stderr"
  | fieldSeparator => some "$;"
  | outputFieldSeparator => some "$,"
  | recordSeparator => some "$/"
  | outputRecordSeparator => some "$\\"
  | defaultRecordSeparator => none

end Global

/-- What the globals hold. A separator that is absent reads as nil. -/
structure Globals where
  stdin : Int32 := 0
  stdout : Int32 := 1
  stderr : Int32 := 2
  fieldSeparator : Option String := none
  outputFieldSeparator : Option String := none
  recordSeparator : Option String := some "\n"
  outputRecordSeparator : Option String := none
  defaultRecordSeparator : String := "\n"
  deriving DecidableEq, Repr

namespace Globals

def separator : Option String → Object
  | none => .nil
  | some s => .string s

def resolve (globals : Globals) : Global → Object
  | .stdin => .io globals.stdin
  | .stdout => .io globals.stdout
  | .stderr => .io globals.stderr
  | .fieldSeparator => separator globals.fieldSeparator
  | .outputFieldSeparator => separator globals.outputFieldSeparator
  | .recordSeparator => separator globals.recordSeparator
  | .outputRecordSeparator => separator globals.outputRecordSeparator
  | .defaultRecordSeparator => .string globals.defaultRecordSeparator

/-- Assigns a separator, and says whether the global can be assigned at all. -/
def assign (globals : Globals) (global : Global) (value : Option String) : Bool × Globals :=
  match global with
  | .fieldSeparator => (true, { globals with fieldSeparator := value })
  | .outputFieldSeparator => (true, { globals with outputFieldSeparator := value })
  | .recordSeparator => (true, { globals with recordSeparator := value })
  | .outputRecordSeparator => (true, { globals with outputRecordSeparator := value })
  | .stdin => (false, globals)
  | .stdout => (false, globals)
  | .stderr => (false, globals)
  | .defaultRecordSeparator => (false, globals)

inductive Step where
  | resolve (global : Global)
  | assign (global : Global) (value : Option String)
  deriving DecidableEq, Repr

inductive Answer where
  | value (v : Object)
  | assigned (accepted : Bool)

def perform (globals : Globals) : Step → Answer × Globals
  | .resolve global => (.value (globals.resolve global), globals)
  | .assign global value =>
    let (accepted, globals) := globals.assign global value
    (.assigned accepted, globals)

def run (globals : Globals) : List Step → List Answer × Globals
  | [] => ([], globals)
  | step :: steps =>
    let (answer, globals) := globals.perform step
    let (answers, globals) := run globals steps
    (answer :: answers, globals)

open Json (Record)

def record : Record Globals where
  title := "struct GlobalsConfig"
  blank := {}
  abridged := true
  fields := [
    .of "stdin_fd" true Json.readInt32 fun n g => { g with stdin := n },
    .of "stdout_fd" true Json.readInt32 fun n g => { g with stdout := n },
    .of "stderr_fd" true Json.readInt32 fun n g => { g with stderr := n },
    .of "field_separator" true (Json.readOption Json.readString)
      fun s g => { g with fieldSeparator := s },
    .of "output_field_separator" true (Json.readOption Json.readString)
      fun s g => { g with outputFieldSeparator := s },
    .of "record_separator" true (Json.readOption Json.readString)
      fun s g => { g with recordSeparator := s },
    .of "output_record_separator" true (Json.readOption Json.readString)
      fun s g => { g with outputRecordSeparator := s },
    .of "default_record_separator" true Json.readString
      fun s g => { g with defaultRecordSeparator := s }]

def ofJson (text : String) : Except Json.Fault Globals :=
  Json.readText record.read text

def toJson (globals : Globals) : Json :=
  .object [
    ("stdin_fd", .ofInt globals.stdin.toInt),
    ("stdout_fd", .ofInt globals.stdout.toInt),
    ("stderr_fd", .ofInt globals.stderr.toInt),
    ("field_separator", .ofOption .string globals.fieldSeparator),
    ("output_field_separator", .ofOption .string globals.outputFieldSeparator),
    ("record_separator", .ofOption .string globals.recordSeparator),
    ("output_record_separator", .ofOption .string globals.outputRecordSeparator),
    ("default_record_separator", .string globals.defaultRecordSeparator)]

end Globals

end NativeCall
