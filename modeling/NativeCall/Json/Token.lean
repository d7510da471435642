import NativeCall.Json.Basic
import NativeCall.Number.Decimal

/-!
The tokens of a JSON text. Reading stops at the first place that belongs to no token, which is
itself reported as the last token, so that what comes before it can still be looked at.
-/

set_option autoImplicit false
set_option relaxedAutoImplicit false

namespace NativeCall.Json

open Text

inductive Token where
  | openArray
  | closeArray
  | openObject
  | closeObject
  | colon
  | comma
  | null
  | boolean (b : Bool)
  /-- A number, or `none` for one beyond the greatest double. -/
  | number (n : Option Number)
  /-- A string, or `none` for one that names half of a surrogate pair. -/
  | string (s : Option String)
  | junk
  deriving DecidableEq, Repr

/-- The parts of a written number: whole digits, digits after the point, and the exponent. -/
structure Numeral where
  negative : Bool
  whole : List Char
  fraction : Option (List Char)
  exponent : Option Int
  deriving DecidableEq, Repr

namespace Numeral

def integer? (n : Numeral) : Option Int :=
  match n.fraction, n.exponent with
  | none, none =>
    let magnitude : Int := Decimal.value n.whole
    some (if n.negative then -magnitude else magnitude)
  | _, _ => none

def double? (n : Numeral) : Option Number := do
  Number.ofDouble? (← Double.ofDecimal n.negative n.whole (n.fraction.getD []) (n.exponent.getD 0))

/-- A whole number is kept exactly if it fits and is not minus zero. -/
def number? (n : Numeral) : Option Number :=
  match n.integer? with
  | some i => if Number.fits i && !(n.negative && i == 0) then some (.integer i) else n.double?
  | none => n.double?

def digits1 (text : List Char) : Option (List Char × List Char) :=
  match text.takeWhile Char.isDigit with
  | [] => none
  | run => some (run, text.dropWhile Char.isDigit)

def readWhole (text : List Char) : Option (List Char × List Char) :=
  match digits1 text with
  | some ('0' :: _ :: _, _) => none
  | other => other

def readFraction : List Char → Option (Option (List Char) × List Char)
  | '.' :: text => (digits1 text).map fun (run, rest) => (some run, rest)
  | text => some (none, text)

def readSign : List Char → Bool × List Char
  | '-' :: text => (true, text)
  | '+' :: text => (false, text)
  | text => (false, text)

def readPower (text : List Char) : Option (Option Int × List Char) :=
  let (negative, text) := readSign text
  (digits1 text).map fun (run, rest) =>
    let magnitude : Int := Decimal.value run
    (some (if negative then -magnitude else magnitude), rest)

def readExponent : List Char → Option (Option Int × List Char)
  | 'e' :: text => readPower text
  | 'E' :: text => readPower text
  | text => some (none, text)

def read (text : List Char) : Option (Numeral × List Char) := do
  let (negative, text) := match text with
    | '-' :: text => (true, text)
    | text => (false, text)
  let (whole, text) ← readWhole text
  let (fraction, text) ← readFraction text
  let (exponent, text) ← readExponent text
  return (⟨negative, whole, fraction, exponent⟩, text)

end Numeral

/-- What one piece of a written string stands for: a character, or a UTF-16 unit given by
number. -/
inductive Piece where
  | char (c : Char)
  | unit (n : Nat)
  deriving DecidableEq, Repr

namespace Piece

def hexDigit? (c : Char) : Option Nat :=
  if '0' ≤ c ∧ c ≤ '9' then some (c.toNat - 48)
  else if 'a' ≤ c ∧ c ≤ 'f' then some (c.toNat - 87)
  else if 'A' ≤ c ∧ c ≤ 'F' then some (c.toNat - 55)
  else none

def hex4? (a b c d : Char) : Option Nat := do
  return (((← hexDigit? a) * 16 + (← hexDigit? b)) * 16 + (← hexDigit? c)) * 16 + (← hexDigit? d)

def short? : Char → Option Char
  | '"' => some '"'
  | '\\' => some '\\'
  | '/' => some '/'
  | 'b' => some '\x08'
  | 'f' => some '\x0c'
  | 'n' => some '\n'
  | 'r' => some '\r'
  | 't' => some '\t'
  | _ => none

def readAll : List Char → Option (List Piece × List Char)
  | [] => none
  | '"' :: text => some ([], text)
  | '\\' :: 'u' :: a :: b :: c :: d :: text =>
    match hex4? a b c d, readAll text with
    | some n, some (pieces, rest) => some (unit n :: pieces, rest)
    | _, _ => none
  | '\\' :: c :: text =>
    match short? c, readAll text with
    | some e, some (pieces, rest) => some (char e :: pieces, rest)
    | _, _ => none
  | c :: text =>
    if c = '\\' ∨ c.toNat < 0x20 then none
    else (readAll text).map fun (pieces, rest) => (char c :: pieces, rest)

def isHigh (n : Nat) : Bool := 0xd800 ≤ n && n ≤ 0xdbff

def isLow (n : Nat) : Bool := 0xdc00 ≤ n && n ≤ 0xdfff

def join (high low : Nat) : Char :=
  Char.ofNat (0x10000 + (high - 0xd800) * 0x400 + (low - 0xdc00))

/-- The characters of the pieces; a surrogate has to stand in a pair. -/
def chars? : List Piece → Option (List Char)
  | [] => some []
  | char c :: rest => (chars? rest).map (c :: ·)
  | unit high :: unit low :: rest =>
    if isHigh high && isLow low then (chars? rest).map (join high low :: ·)
    else if isHigh high || isLow high then none
    else (chars? (unit low :: rest)).map (Char.ofNat high :: ·)
  | unit n :: rest =>
    if isHigh n || isLow n then none else (chars? rest).map (Char.ofNat n :: ·)

end Piece

namespace Token

def isBlank (c : Char) : Bool :=
  c == ' ' || c == '\t' || c == '\n' || c == '\r'

/-- The token at the front of a text that does not begin with a blank, and what follows it. -/
def next : List Char → Token × List Char
  | '[' :: rest => (openArray, rest)
  | ']' :: rest => (closeArray, rest)
  | '\x7b' :: rest => (openObject, rest)
  | '\x7d' :: rest => (closeObject, rest)
  | ':' :: rest => (colon, rest)
  | ',' :: rest => (comma, rest)
  | 'n' :: 'u' :: 'l' :: 'l' :: rest => (null, rest)
  | 't' :: 'r' :: 'u' :: 'e' :: rest => (boolean true, rest)
  | 'f' :: 'a' :: 'l' :: 's' :: 'e' :: rest => (boolean false, rest)
  | '"' :: rest =>
    match Piece.readAll rest with
    | some (pieces, rest) => (string ((Piece.chars? pieces).map String.ofList), rest)
    | none => (junk, [])
  | other =>
    match Numeral.read other with
    | some (numeral, rest) => (number numeral.number?, rest)
    | none => (junk, [])

def readAll : Nat → List Char → List Token
  | 0, _ => []
  | fuel + 1, text =>
    match text.dropWhile isBlank with
    | [] => []
    | c :: rest =>
      match next (c :: rest) with
      | (junk, _) => [junk]
      | (token, rest) => token :: readAll fuel rest

def ofText (text : String) : List Token :=
  readAll (text.length + 1) text.toList

end Token

end NativeCall.Json
