import NativeCall.Host
import NativeCall.Object

/-!
The reference host: the capabilities of a call whose values are objects.
-/

set_option autoImplicit false
set_option relaxedAutoImplicit false

namespace NativeCall.Object

/-- A list with one more item; a value that is no list stays as it is. -/
def append (item : Object) : Object → Object
  | array items => array (items ++ [item])
  | other => other

def host (block : Option Object) : NativeCall.Host Unit Object where
  nil := pure nil
  isNil v := pure v.isNil
  isKeywordLike v strict := pure (v.isKeywordHash strict)
  blockGiven := pure block.isSome
  currentBlock := pure (block.getD nil)
  newSequence := pure (array [])
  append sequence v := pure (append v sequence)

end NativeCall.Object
