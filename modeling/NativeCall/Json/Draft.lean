import NativeCall.Json.Fault
import NativeCall.Json.Token

/-!
What can be read of a JSON text, up to the first place where it stops being JSON. A draft is a tree
whose last branch may be broken off, so that a reader that walks it from left to right meets the
problems of the text in their order.
-/

set_option autoImplicit false
set_option relaxedAutoImplicit false

namespace NativeCall.Json

/-- A JSON value as far as a text holds it. An array or object is closed if its bracket or brace is,
so one whose items or entries break off is not. Numbers beyond the greatest double and strings with
half of a surrogate pair are kept as `none`: whether they matter is for the reader to say. -/
inductive Draft where
  | null
  | boolean (b : Bool)
  | number (n : Option Number)
  | string (s : Option String)
  | array (items : List Draft) (closed : Bool)
  | object (entries : List (Option String × Draft)) (closed : Bool)
  /-- No value can be read here. -/
  | broken
  deriving Repr

namespace Draft

/-- What a draft is, for the wording of a difference; `none` if the text stops being JSON here. -/
def found? : Draft → Option Found
  | null => some .null
  | boolean b => some (.boolean b)
  | number n => n.map .number
  | string s => s.map .string
  | array _ _ => some .sequence
  | object _ _ => some .map
  | broken => none

def refuse (expected : String) (draft : Draft) : Fault :=
  match draft.found? with
  | none => .malformed
  | some found => .mismatch (.wrongType found expected)

mutual

/-- The value at the front of the tokens, and the tokens after it unless the text stops being JSON
within. The fuel bounds the count of calls. -/
def read : Nat → List Token → Draft × Option (List Token)
  | 0, _ => (broken, none)
  | _ + 1, [] => (broken, none)
  | fuel + 1, token :: rest =>
    match token with
    | .null => (null, some rest)
    | .boolean b => (boolean b, some rest)
    | .number n => (number n, some rest)
    | .string s => (string s, some rest)
    | .openArray =>
      match rest with
      | .closeArray :: rest => (array [] true, some rest)
      | rest =>
        let (items, after) := readItems fuel rest
        (array items after.isSome, after)
    | .openObject =>
      match rest with
      | .closeObject :: rest => (object [] true, some rest)
      | .string key :: rest =>
        let (entries, after) := readEntries fuel key rest
        (object entries after.isSome, after)
      | _ => (object [] false, none)
    | _ => (broken, none)

def readItems : Nat → List Token → List Draft × Option (List Token)
  | 0, _ => ([broken], none)
  | fuel + 1, tokens =>
    match read fuel tokens with
    | (item, some (.closeArray :: rest)) => ([item], some rest)
    | (item, some (.comma :: rest)) =>
      let (items, after) := readItems fuel rest
      (item :: items, after)
    | (item, _) => ([item], none)

def readEntries : Nat → Option String → List Token →
    List (Option String × Draft) × Option (List Token)
  | 0, key, _ => ([(key, broken)], none)
  | fuel + 1, key, .colon :: tokens =>
    match read fuel tokens with
    | (value, some (.closeObject :: rest)) => ([(key, value)], some rest)
    | (value, some (.comma :: .string next :: rest)) =>
      let (entries, after) := readEntries fuel next rest
      ((key, value) :: entries, after)
    | (value, _) => ([(key, value)], none)
  | _ + 1, key, _ => ([(key, broken)], none)

end

def ofText (text : String) : Draft × Bool :=
  let tokens := Token.ofText text
  let (draft, after) := read (2 * tokens.length + 2) tokens
  (draft, after == some [])

mutual

/-- Whether the draft is a JSON value, however deep. Strings and numbers that stand for nothing are
let pass. -/
def complete : Draft → Bool
  | array items closed => completeItems items && closed
  | object entries closed => completeEntries entries && closed
  | broken => false
  | _ => true

def completeItems : List Draft → Bool
  | [] => true
  | item :: items => complete item && completeItems items

def completeEntries : List (Option String × Draft) → Bool
  | [] => true
  | (_, value) :: entries => complete value && completeEntries entries

end

mutual

/-- The value of a draft, if it is one with at most the given depth of arrays and objects. -/
def value? : Nat → Draft → Option Json
  | _, null => some .null
  | _, boolean b => some (.boolean b)
  | _, number n => n.map .number
  | _, string s => s.map .string
  | 0, array _ _ => none
  | depth + 1, array items closed =>
    if closed then (items? depth items).map .array else none
  | 0, object _ _ => none
  | depth + 1, object entries closed =>
    if closed then
      (entries? depth entries).map fun pairs => .object (Dictionary.ofPairs pairs)
    else none
  | _, broken => none

def items? : Nat → List Draft → Option (List Json)
  | _, [] => some []
  | depth, item :: items => do return (← value? depth item) :: (← items? depth items)

def entries? : Nat → List (Option String × Draft) → Option (List (String × Json))
  | _, [] => some []
  | depth, (key, value) :: entries => do
    return ((← key), ← value? depth value) :: (← entries? depth entries)

end

end Draft

def greatestDepth : Nat := 127

/-- Reads a whole text with a reader of drafts. The reader's fault comes before a fault in what
follows the value. -/
def readText {α : Type} (reader : Draft → Except Fault α) (text : String) : Except Fault α := do
  let (draft, whole) := Draft.ofText text
  let a ← reader draft
  if whole then return a else throw .malformed

def readAny (draft : Draft) : Except Fault Json :=
  match draft.value? greatestDepth with
  | some value => .ok value
  | none => .error .malformed

end NativeCall.Json
