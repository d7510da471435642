import NativeCall.Json.Draft
import NativeCall.Labels

/-!
Documents with a fixed shape: bounded whole numbers, truth values, texts, choices by name, and
records. A record is written as an object, whose unknown fields are passed over, or as an array of
its fields in declaration order. The first problem from the left is the one that is reported.
-/

set_option autoImplicit false
set_option relaxedAutoImplicit false

namespace NativeCall.Json

abbrev Reader (α : Type) := Draft → Except Fault α

def readWhole (least greatest : Int) (expected : String) : Reader Int
  | .number (some (.integer n)) =>
    if least ≤ n ∧ n ≤ greatest then .ok n else .error (.mismatch (.outOfRange n expected))
  | draft => .error (draft.refuse expected)

def readByte (draft : Draft) : Except Fault UInt8 :=
  return UInt8.ofNat (← readWhole 0 255 "u8" draft).toNat

def readInt32 (draft : Draft) : Except Fault Int32 :=
  return Int32.ofInt (← readWhole (-0x80000000) 0x7fffffff "i32" draft)

def readSize (draft : Draft) : Except Fault UInt64 :=
  return UInt64.ofNat (← readWhole 0 greatestUnsigned "usize" draft).toNat

def readBool : Reader Bool
  | .boolean b => .ok b
  | draft => .error (draft.refuse "a boolean")

def readString : Reader String
  | .string (some s) => .ok s
  | draft => .error (draft.refuse "a string")

def readOption {α : Type} (reader : Reader α) : Reader (Option α)
  | .null => .ok none
  | draft => some <$> reader draft

def readNull : Reader Unit
  | .null => .ok ()
  | draft => .error (draft.refuse "unit")

def choose {α : Type} (labels : Labels α) : Option String → Except Fault α
  | none => .error .malformed
  | some name =>
    match labels.find? name with
    | some a => .ok a
    | none => .error (.mismatch (.unknownName name labels.names))

/-- A choice: a bare name, or an object whose only key is the name; nothing else is well formed. The
alternative says what its bare name and what its value under the name denote. -/
def readTagged {α β : Type} (labels : Labels α) (bare : α → Except Fault β)
    (under : α → Reader β) : Reader β
  | .string name => choose labels name >>= bare
  | .object ((name, value) :: others) closed => do
    let a ← choose labels name
    let b ← under a value
    if others.isEmpty && closed then return b else throw .malformed
  | _ => .error .malformed

def readChoice {α : Type} (labels : Labels α) : Reader α :=
  readTagged labels .ok fun a draft => (fun _ => a) <$> readNull draft

/-- A field of a record: its name, whether an object may leave it out, and how its value is put into
the record. -/
structure Field (α : Type) where
  name : String
  optional : Bool
  put : Draft → α → Except Fault α

def Field.of {α β : Type} (name : String) (optional : Bool) (reader : Reader β)
    (set : β → α → α) : Field α :=
  ⟨name, optional, fun draft a => return set (← reader draft) a⟩

/-- A record: its name in faults, the record before any field is put, its fields in declaration
order, and whether an array may leave out fields at its end. -/
structure Record (α : Type) where
  title : String
  blank : α
  fields : List (Field α)
  abridged : Bool

namespace Record

variable {α : Type}

/-- Puts the entries of an object one by one. Of a known name only the first entry is accepted, and
of an unknown name any value that is complete. -/
def putEntries (fields : List (Field α)) :
    List (Option String × Draft) → α × List String → Except Fault (α × List String)
  | [], filled => .ok filled
  | (none, _) :: _, _ => .error .malformed
  | (some name, draft) :: entries, (a, seen) =>
    match fields.find? (·.name == name) with
    | none => if draft.complete then putEntries fields entries (a, seen) else .error .malformed
    | some field =>
      if name ∈ seen then .error (.mismatch (.duplicateField name))
      else do
        let a ← field.put draft a
        putEntries fields entries (a, name :: seen)

def elements (record : Record α) : String :=
  let count := record.fields.length
  record.title ++ " with " ++ Text.Decimal.text count
    ++ (if count = 1 then " element" else " elements")

/-- Puts the items of an array one by one. When they run out early, the rest of the record stays
blank or the array is too short. -/
def putItems (record : Record α) (closed : Bool) :
    List (Field α) → List Draft → α → Except Fault α
  | [], [], a => if closed then .ok a else .error .malformed
  | [], _ :: _, _ => .error .malformed
  | field :: fields, item :: items, a => do
    let a ← field.put item a
    putItems record closed fields items a
  | field :: fields, [], a =>
    if !closed then .error .malformed
    else if record.abridged then .ok a
    else
      let given := record.fields.length - (field :: fields).length
      .error (.mismatch (.wrongLength given record.elements))

def read (record : Record α) : Reader α
  | .object entries closed => do
    let (a, seen) ← putEntries record.fields entries (record.blank, [])
    if !closed then throw .malformed
    match record.fields.find? fun field => !field.optional && !seen.contains field.name with
    | some field => throw (.mismatch (.missingField field.name))
    | none => return a
  | .array items closed => record.putItems closed record.fields items record.blank
  | draft => .error (draft.refuse record.title)

end Record

end NativeCall.Json
