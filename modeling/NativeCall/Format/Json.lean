import NativeCall.Format
import NativeCall.Json.Schema

/-!
Shapes as JSON documents.
-/

set_option autoImplicit false
set_option relaxedAutoImplicit false

namespace NativeCall

namespace Format

open Json (Record Field)

def record : Record Format where
  title := "struct ArgSpec"
  blank := {}
  abridged := false
  fields := [
    .of "required_leading" false Json.readByte fun n format => { format with leading := n },
    .of "optional" false Json.readByte fun n format => { format with optional := n },
    .of "has_rest" false Json.readBool fun b format => { format with rest := b },
    .of "required_trailing" false Json.readByte fun n format => { format with trailing := n },
    .of "accepts_keywords" false Json.readBool fun b format => { format with keywords := b },
    .of "accepts_block" false Json.readBool fun b format => { format with block := b }]

def ofJson (text : String) : Except Json.Fault Format :=
  Json.readText record.read text

def toJson (format : Format) : Json :=
  .object [
    ("required_leading", .ofNat format.leading.toNat),
    ("optional", .ofNat format.optional.toNat),
    ("has_rest", .boolean format.rest),
    ("required_trailing", .ofNat format.trailing.toNat),
    ("accepts_keywords", .boolean format.keywords),
    ("accepts_block", .boolean format.block)]

end Format

end NativeCall
