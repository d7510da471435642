import NativeCall.Config
import NativeCall.Format.Json
import NativeCall.Object.Host
import NativeCall.Object.Inspect
import NativeCall.Object.Json
import NativeCall.Scanner

/-!
What the command answers: the report of a scan, the warnings that go with it, and the description of
a global.
-/

set_option autoImplicit false
set_option relaxedAutoImplicit false

namespace NativeCall.Command

open Text

def slotJson (kind : SlotKind) (value : Object) : Json :=
  .object [
    ("kind", .string kind.name),
    ("value", value.toJson),
    ("inspect", .string value.inspect)]

def reportJson (format : Format) (output : Output Object) : Json :=
  .object [
    ("format", .string format.render),
    ("shape", format.toJson),
    ("min_args", .ofNat format.minArgs),
    ("max_args", .ofOption .ofNat format.maxArgs),
    ("slots", .array (output.slots.map fun (kind, value) => slotJson kind value)),
    ("argc", .ofNat output.argc)]

def droppedSlots (format : Format) : Nat :=
  format.slotCount - maxOutputSlots

def droppedMessage (format : Format) : String :=
  "format " ++ format.render ++ " describes " ++ Decimal.text format.slotCount
    ++ " slots; the last " ++ Decimal.text (droppedSlots format) ++ " were dropped"

def noKeywordsMessage (format : Format) : String :=
  "no keyword hash passed to " ++ format.render ++ "; keyword slot is nil"

/-- Warns about dropped slots, and additionally about a keyword slot that stayed empty: then every
argument that was passed counts as positional. -/
def warn (format : Format) (output : Output Object) (passed : Nat) (warnings : Warnings) :
    Warnings :=
  let warnings :=
    if 0 < droppedSlots format then (warnings.ordinary (droppedMessage format)).2 else warnings
  if format.keywords && output.argc == passed then (warnings.extra (noKeywordsMessage format)).2
  else warnings

/-- A scan as the command does it: its report, the scanner after it, and its warnings. -/
structure Inspection (τ : Type) where
  result : Except ScanError Json
  scanner : Scanner τ
  warnings : Warnings

def inspectScan {τ : Type} [Tracer τ] (scanner : Scanner τ) (block : Option Object)
    (text : String) (args : List Object) (warnings : Warnings) : Inspection τ :=
  match scanner.shape text with
  | (.error e, scanner) => ⟨.error e, scanner, warnings⟩
  | (.ok format, scanner) =>
    match ((scanner.bind (Object.host block) format args).run ()).1 with
    | (.error e, scanner) => ⟨.error e, scanner, warnings⟩
    | (.ok output, scanner) =>
      ⟨.ok (reportJson format output), scanner, warn format output args.length warnings⟩

def globalJson (globals : Globals) (global : Global) : Json :=
  .object [
    ("global", .string global.nativeName),
    ("variable", .ofOption .string global.hostVariable),
    ("value", (globals.resolve global).toJson)]

end NativeCall.Command
