/-!
Enumerations with names. The names of a finite set of alternatives are read back by exact,
case-sensitive comparison.
-/

set_option autoImplicit false
set_option relaxedAutoImplicit false

namespace NativeCall

/-- A finite set of alternatives, in declaration order, and the name of each. -/
structure Labels (α : Type) where
  all : List α
  name : α → String

namespace Labels

variable {α : Type}

def names (labels : Labels α) : List String :=
  labels.all.map labels.name

def find? (labels : Labels α) (name : String) : Option α :=
  labels.all.find? (labels.name · == name)

end Labels

end NativeCall
