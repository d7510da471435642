import NativeCall.Json.Schema
import NativeCall.ScanError

/-!
Scan errors as JSON documents: the name of the failure and a record of its circumstances.
-/

set_option autoImplicit false
set_option relaxedAutoImplicit false

namespace NativeCall.ScanError

open Json (Record Field Reader)

inductive Failure where
  | invalidFormat
  | arity
  deriving DecidableEq, Repr

namespace Failure

def name : Failure → String
  | invalidFormat => "InvalidFormat"
  | arity => "Arity"

def labels : Labels Failure :=
  ⟨[invalidFormat, arity], name⟩

end Failure

def failure : ScanError → Failure
  | invalidFormat _ => .invalidFormat
  | arity _ _ _ => .arity

def formatRecord : Record String where
  title := "struct variant ScanError::InvalidFormat"
  blank := ""
  abridged := false
  fields := [.of "format" false Json.readString fun text _ => text]

structure Count where
  actual : UInt64
  min : UInt64
  max : Option UInt64

/-- The record of a wrong number of arguments. An object may leave out the maximum, which then is
absent. -/
def countRecord : Record Count where
  title := "struct variant ScanError::Arity"
  blank := ⟨0, 0, none⟩
  abridged := false
  fields := [
    .of "actual" false Json.readSize fun n count => { count with actual := n },
    .of "min" false Json.readSize fun n count => { count with min := n },
    .of "max" true (Json.readOption Json.readSize) fun n count => { count with max := n }]

def read : Reader ScanError :=
  Json.readTagged Failure.labels
    (fun _ => .error (.mismatch (.wrongType .bareName "struct variant")))
    fun
      | .invalidFormat => fun draft => invalidFormat <$> formatRecord.read draft
      | .arity => fun draft => do
        let count ← countRecord.read draft
        return arity count.actual.toNat count.min.toNat (count.max.map UInt64.toNat)

def ofJson (text : String) : Except Json.Fault ScanError :=
  Json.readText read text

def toJson (e : ScanError) : Json :=
  let circumstances : Json := match e with
    | invalidFormat format => .object [("format", .string format)]
    | arity actual min max => .object [
      ("actual", .ofNat actual), ("min", .ofNat min), ("max", .ofOption .ofNat max)]
  .object [(e.failure.name, circumstances)]

end NativeCall.ScanError
