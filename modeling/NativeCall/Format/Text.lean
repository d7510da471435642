import NativeCall.Format
import NativeCall.ScanError

/-!
The written form of a shape: a leading digit, an optional digit, `*`, a trailing digit, `:` and
`&`, each of them left out at will but never reordered. A text is read once from left to right,
each part taking what it can.
-/

set_option autoImplicit false
set_option relaxedAutoImplicit false

namespace NativeCall.Format

open Text

def digit? : List Char → Option UInt8 × List Char
  | [] => (none, [])
  | c :: rest => if c.isDigit then (some (UInt8.ofNat (c.toNat - 48)), rest) else (none, c :: rest)

def mark (m : Char) : List Char → Bool × List Char
  | [] => (false, [])
  | c :: rest => if c = m then (true, rest) else (false, c :: rest)

/-- The leading count, then the optional count, which is looked for only after a leading digit. -/
def counts (text : List Char) : UInt8 × UInt8 × List Char :=
  match digit? text with
  | (none, rest) => (0, 0, rest)
  | (some leading, rest) =>
    match digit? rest with
    | (none, rest) => (leading, 0, rest)
    | (some optional, rest) => (leading, optional, rest)

def read (text : List Char) : Format × List Char :=
  let (leading, optional, text) := counts text
  let (rest, text) := mark '*' text
  let (trailing, text) := digit? text
  let (keywords, text) := mark ':' text
  let (block, text) := mark '&' text
  (⟨leading, optional, rest, trailing.getD 0, keywords, block⟩, text)

def parse (text : String) : Except ScanError Format :=
  match read text.toList with
  | (format, []) => .ok format
  | (_, _ :: _) => .error (.invalidFormat text)

/-- Whether a trailing count has to be the third digit, because no `*` sets it off. -/
def trailingIsThird (format : Format) : Bool :=
  0 < format.trailing && !format.rest

def count (shown : Bool) (n : UInt8) : List Char :=
  if shown then Decimal.digits n.toNat else []

/-- The canonical form. A zero count is left out unless a later digit would then be read in its
place. -/
def encode (format : Format) : List Char :=
  count (0 < format.leading || 0 < format.optional || format.trailingIsThird) format.leading
    ++ count (0 < format.optional || format.trailingIsThird) format.optional
    ++ (if format.rest then ['*'] else [])
    ++ count (0 < format.trailing) format.trailing
    ++ (if format.keywords then [':'] else [])
    ++ (if format.block then ['&'] else [])

def render (format : Format) : String :=
  String.ofList format.encode

end NativeCall.Format
