import NativeCall.Number.Layout
import NativeCall.Object
import NativeCall.Text.Quoted

/-!
Values as the host shows them for inspection.
-/

set_option autoImplicit false
set_option relaxedAutoImplicit false

namespace NativeCall

open Text

def HashKey.label : HashKey → String
  | nil => "nil => "
  | int n => Decimal.signedText n.toInt ++ " => "
  | string s => Quoted.quote s ++ " => "
  | symbol name => name ++ ": "

namespace Object

mutual

def inspect : Object → String
  | nil => "nil"
  | boolean b => if b then "true" else "false"
  | int n => Decimal.signedText n.toInt
  | float d => String.ofList d.inspect
  | string s => Quoted.quote s
  | symbol name => ":" ++ name
  | array items => "[" ++ inspectItems items ++ "]"
  | hash entries => "\x7b" ++ inspectEntries entries ++ "\x7d"
  | proc name => "#<Proc:" ++ name ++ ">"
  | io descriptor => "#<IO:fd " ++ Decimal.signedText descriptor.toInt ++ ">"

def inspectItems : List Object → String
  | [] => ""
  | [item] => inspect item
  | item :: items => inspect item ++ ", " ++ inspectItems items

def inspectEntries : List (HashKey × Object) → String
  | [] => ""
  | [(key, value)] => key.label ++ inspect value
  | (key, value) :: entries => key.label ++ inspect value ++ ", " ++ inspectEntries entries

end

end Object

end NativeCall
