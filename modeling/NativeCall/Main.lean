import NativeCall.Command.Outcome

/-!
The command as a program: it reads the one file that is asked for, and writes what the outcome says.
-/

set_option autoImplicit false
set_option relaxedAutoImplicit false

namespace NativeCall

def systemError : IO.Error → UInt32 × String
  | .alreadyExists _ code name => (code, name)
  | .otherError code name => (code, name)
  | .resourceBusy code name => (code, name)
  | .resourceVanished code name => (code, name)
  | .unsupportedOperation code name => (code, name)
  | .hardwareFault code name => (code, name)
  | .unsatisfiedConstraints code name => (code, name)
  | .illegalOperation code name => (code, name)
  | .protocolError code name => (code, name)
  | .timeExpired code name => (code, name)
  | .interrupted _ code name => (code, name)
  | .noFileOrDirectory _ code name => (code, name)
  | .invalidArgument _ code name => (code, name)
  | .permissionDenied _ code name => (code, name)
  | .resourceExhausted _ code name => (code, name)
  | .inappropriateType _ code name => (code, name)
  | .noSuchThing _ code name => (code, name)
  | .unexpectedEof => (0, "unexpected end of file")
  | .userError name => (0, name)

def oneFile (text : Except Command.ReadError String) (strerror : String) :
    Command.Surroundings where
  files _ := text
  strerror _ := strerror
  configWording := .placeless "the text is not JSON"
  argumentsWording := .placeless "the text is not JSON"

def surroundings (words : List String) : IO Command.Surroundings := do
  match Command.Options.parse words with
  | .ok { config := some path, .. } =>
    try
      return oneFile (Command.Files.text (← IO.FS.readBinFile path)) ""
    catch e =>
      let (code, name) := systemError e
      return oneFile (.error (.system ⟨code.toNat⟩)) name
  | _ => return oneFile (.error (.system .noEntry)) ""

end NativeCall

def main (words : List String) : IO UInt32 := do
  let outcome := NativeCall.Command.run words (← NativeCall.surroundings words)
  let err ← IO.getStderr
  for line in outcome.stderr do
    err.putStrLn line
  let out ← IO.getStdout
  out.putStr outcome.stdout
  out.flush
  return UInt32.ofNat outcome.code
