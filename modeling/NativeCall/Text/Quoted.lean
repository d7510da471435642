import NativeCall.Text.Unprintable

/-!
Quoted text, as messages and inspected strings show it: between double quotes, with a backslash
before a quote or a backslash, four short escapes, and unprintable characters by number.
-/

set_option autoImplicit false
set_option relaxedAutoImplicit false

namespace NativeCall.Text.Quoted

def byNumber (c : Char) : List Char :=
  ['\\', 'u', '\x7b'] ++ Nat.toDigits 16 c.toNat ++ ['\x7d']

/-- What one character of the text is written as. A single quote stands for itself. -/
def escape : Char → List Char
  | '"' => ['\\', '"']
  | '\\' => ['\\', '\\']
  | '\x00' => ['\\', '0']
  | '\t' => ['\\', 't']
  | '\r' => ['\\', 'r']
  | '\n' => ['\\', 'n']
  | c => if Unprintable.holds c then byNumber c else [c]

def encode (text : List Char) : List Char :=
  '"' :: text.flatMap escape ++ ['"']

def quote (text : String) : String :=
  String.ofList (encode text.toList)

end NativeCall.Text.Quoted
