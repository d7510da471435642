import NativeCall.Json.Basic
import NativeCall.Number.Layout

/-!
The written forms of a JSON value: a compact one without blanks, and an indented one with an entry a
line.
-/

set_option autoImplicit false
set_option relaxedAutoImplicit false

namespace NativeCall.Json

open Text

namespace Written

def byNumber (c : Char) : List Char :=
  let digits := Nat.toDigits 16 c.toNat
  ['\\', 'u'] ++ List.replicate (4 - digits.length) '0' ++ digits

def escape : Char → List Char
  | '"' => ['\\', '"']
  | '\\' => ['\\', '\\']
  | '\x08' => ['\\', 'b']
  | '\x0c' => ['\\', 'f']
  | '\n' => ['\\', 'n']
  | '\r' => ['\\', 'r']
  | '\t' => ['\\', 't']
  | c => if c.toNat < 0x20 then byNumber c else [c]

def string (s : String) : List Char :=
  '"' :: s.toList.flatMap escape ++ ['"']

def number : Number → List Char
  | .integer n => Decimal.signed n
  | .double d _ => d.documentText

def atom : Json → List Char
  | .null => ['n', 'u', 'l', 'l']
  | .boolean true => ['t', 'r', 'u', 'e']
  | .boolean false => ['f', 'a', 'l', 's', 'e']
  | .number n => number n
  | .string s => string s
  | .array _ => ['[', ']']
  | .object _ => ['\x7b', '\x7d']

mutual

def compact : Json → List Char
  | .array (item :: items) => '[' :: compact item ++ compactItems items
  | .object ((key, value) :: entries) =>
    '\x7b' :: string key ++ ':' :: compact value ++ compactEntries entries
  | value => atom value

def compactItems : List Json → List Char
  | [] => [']']
  | item :: items => ',' :: compact item ++ compactItems items

def compactEntries : List (String × Json) → List Char
  | [] => ['\x7d']
  | (key, value) :: entries =>
    ',' :: string key ++ ':' :: compact value ++ compactEntries entries

end

def newLine (level : Nat) : List Char :=
  '\n' :: List.replicate (2 * level) ' '

mutual

def pretty (level : Nat) : Json → List Char
  | .array (item :: items) =>
    '[' :: newLine (level + 1) ++ pretty (level + 1) item ++ prettyItems level items
  | .object ((key, value) :: entries) =>
    '\x7b' :: newLine (level + 1) ++ string key ++ ':' :: ' ' :: pretty (level + 1) value
      ++ prettyEntries level entries
  | value => atom value

def prettyItems (level : Nat) : List Json → List Char
  | [] => newLine level ++ [']']
  | item :: items =>
    ',' :: newLine (level + 1) ++ pretty (level + 1) item ++ prettyItems level items

def prettyEntries (level : Nat) : List (String × Json) → List Char
  | [] => newLine level ++ ['\x7d']
  | (key, value) :: entries =>
    ',' :: newLine (level + 1) ++ string key ++ ':' :: ' ' :: pretty (level + 1) value
      ++ prettyEntries level entries

end

end Written

def compactText (value : Json) : String :=
  String.ofList (Written.compact value)

def prettyText (value : Json) : String :=
  String.ofList (Written.pretty 0 value)

end NativeCall.Json
