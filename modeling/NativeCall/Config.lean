import NativeCall.Global
import NativeCall.Memo
import NativeCall.Warnings

/-!
The configuration of the command. Every part has a default, so that a document may name only what
it changes.
-/

set_option autoImplicit false
set_option relaxedAutoImplicit false

namespace NativeCall

structure Config where
  verbosity : Verbosity := .normal
  /-- How many formats a scanner remembers; zero turns remembering off. -/
  capacity : UInt64 := UInt64.ofNat Memo.defaultCapacity
  globals : Globals := {}
  deriving DecidableEq, Repr

namespace Config

open Json (Record)

def record : Record Config where
  title := "struct ShimConfig"
  blank := {}
  abridged := true
  fields := [
    .of "verbosity" true (Json.readChoice Verbosity.labels)
      fun level config => { config with verbosity := level },
    .of "spec_cache_capacity" true Json.readSize fun n config => { config with capacity := n },
    .of "globals" true Globals.record.read fun globals config => { config with globals }]

def ofJson (text : String) : Except Json.Fault Config :=
  Json.readText record.read text

def toJson (config : Config) : Json :=
  .object [
    ("verbosity", .string config.verbosity.name),
    ("spec_cache_capacity", .ofNat config.capacity.toNat),
    ("globals", config.globals.toJson)]

end Config

end NativeCall
