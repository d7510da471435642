import NativeCall.Dictionary
import NativeCall.Number.Double

/-!
Values of the reference host. A hash keeps its keys in insertion order and holds each of them once.
-/

set_option autoImplicit false
set_option relaxedAutoImplicit false

namespace NativeCall

inductive HashKey where
  | nil
  | int (n : Int64)
  | string (s : String)
  | symbol (name : String)
  deriving DecidableEq, Repr

inductive Object where
  | nil
  | boolean (b : Bool)
  | int (n : Int64)
  | float (d : Double)
  | string (s : String)
  | symbol (name : String)
  | array (items : List Object)
  | hash (entries : List (HashKey × Object))
  | proc (name : String)
  | io (descriptor : Int32)
  deriving Inhabited, Repr

namespace HashKey

def isSymbol : HashKey → Bool
  | symbol _ => true
  | _ => false

end HashKey

namespace Object

def isNil : Object → Bool
  | nil => true
  | _ => false

/-- The hash of a list of pairs, where a repeated key keeps its first position and takes its last
value. -/
def ofPairs (pairs : List (HashKey × Object)) : Object :=
  hash (Dictionary.ofPairs pairs)

/-- Whether a value can be a keyword hash. Strictly, its keys have to be symbols. -/
def isKeywordHash (strict : Bool) : Object → Bool
  | hash entries => !strict || entries.all (·.1.isSymbol)
  | _ => false

mutual

/-- Whether every hash in a value holds each of its keys once. -/
def distinctKeys : Object → Bool
  | array items => distinctKeysItems items
  | hash entries => distinctKeysEntries entries
  | _ => true

def distinctKeysItems : List Object → Bool
  | [] => true
  | item :: items => distinctKeys item && distinctKeysItems items

def distinctKeysEntries : List (HashKey × Object) → Bool
  | [] => true
  | (key, value) :: entries =>
    !(entries.map Prod.fst).contains key && distinctKeys value && distinctKeysEntries entries

end

theorem distinctKeys_array (items : List Object) :
    (array items).distinctKeys = true ↔ ∀ item ∈ items, item.distinctKeys = true := by
  rw [distinctKeys]
  induction items with
  | nil => simp [distinctKeysItems]
  | cons item items ih => rw [distinctKeysItems, Bool.and_eq_true, ih, List.forall_mem_cons]

theorem distinctKeys_hash (entries : List (HashKey × Object)) :
    (hash entries).distinctKeys = true ↔
      (entries.map Prod.fst).Nodup ∧ ∀ entry ∈ entries, entry.2.distinctKeys = true := by
  rw [distinctKeys]
  induction entries with
  | nil => simp [distinctKeysEntries]
  | cons entry entries ih =>
    obtain ⟨key, value⟩ := entry
    simp only [distinctKeysEntries, Bool.and_eq_true, Bool.not_eq_true', List.contains_eq_mem,
      decide_eq_false_iff_not, ih, List.map_cons, List.nodup_cons, List.forall_mem_cons]
    constructor
    · rintro ⟨⟨new, proper⟩, distinct, others⟩
      exact ⟨⟨new, distinct⟩, proper, others⟩
    · rintro ⟨⟨new, distinct⟩, proper, others⟩
      exact ⟨⟨new, proper⟩, distinct, others⟩

end Object

end NativeCall
