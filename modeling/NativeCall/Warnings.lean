import NativeCall.Labels

/-!
Warnings. An ordinary warning is shown unless warnings are silenced, an extra one only when the
level is verbose, and what goes to the log is always written.
-/

set_option autoImplicit false
set_option relaxedAutoImplicit false

namespace NativeCall

inductive Verbosity where
  | silent
  | normal
  | verbose
  deriving DecidableEq, Repr

namespace Verbosity

def name : Verbosity → String
  | silent => "silent"
  | normal => "normal"
  | verbose => "verbose"

def labels : Labels Verbosity :=
  ⟨[silent, normal, verbose], name⟩

def ofFlag : Option Bool → Verbosity
  | none => silent
  | some false => normal
  | some true => verbose

def showsOrdinary (level : Verbosity) : Bool :=
  level != silent

def showsExtra (level : Verbosity) : Bool :=
  level == verbose

end Verbosity

structure Warnings where
  level : Verbosity := .normal
  lines : List String := []
  deriving DecidableEq, Repr

namespace Warnings

def write (warnings : Warnings) (line : String) : Warnings :=
  { warnings with lines := warnings.lines ++ [line] }

/-- Writes a warning if it is to be shown, and says whether it was. -/
def emitIf (warnings : Warnings) (shown : Bool) (message : String) : Bool × Warnings :=
  (shown, if shown then warnings.write ("warning: " ++ message) else warnings)

def ordinary (warnings : Warnings) (message : String) : Bool × Warnings :=
  warnings.emitIf warnings.level.showsOrdinary message

def extra (warnings : Warnings) (message : String) : Bool × Warnings :=
  warnings.emitIf warnings.level.showsExtra message

def log (warnings : Warnings) (message : String) : Warnings :=
  warnings.write ("[ruby] WARNING " ++ message)

inductive Step where
  | ordinary (message : String)
  | extra (message : String)
  | log (message : String)
  | setLevel (level : Verbosity)
  deriving DecidableEq, Repr

def perform (warnings : Warnings) : Step → Option Bool × Warnings
  | .ordinary message =>
    let (shown, warnings) := warnings.ordinary message
    (some shown, warnings)
  | .extra message =>
    let (shown, warnings) := warnings.extra message
    (some shown, warnings)
  | .log message => (none, warnings.log message)
  | .setLevel level => (none, { warnings with level })

def run (warnings : Warnings) : List Step → List (Option Bool × Warnings)
  | [] => []
  | step :: steps =>
    let (answer, warnings) := warnings.perform step
    (answer, warnings) :: run warnings steps

end Warnings

end NativeCall
