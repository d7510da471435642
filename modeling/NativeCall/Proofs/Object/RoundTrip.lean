import Mathlib.Data.List.Nodup
import NativeCall.Object.Json
import NativeCall.Proofs.Json.WellFormed

/-!
JSON on its way through values. A well-formed JSON value comes back as it was, order of keys
included, but for whole numbers beyond sixty-four bits with a sign, which come back as doubles.
-/

set_option autoImplicit false
set_option relaxedAutoImplicit false

namespace NativeCall

namespace Json

def Number.signed : Number → Bool
  | .integer n => leastSigned ≤ n && n ≤ greatestSigned
  | .double _ _ => true

mutual

def signed : Json → Bool
  | number n => n.signed
  | array items => signedItems items
  | object entries => signedEntries entries
  | _ => true

def signedItems : List Json → Bool
  | [] => true
  | item :: items => signed item && signedItems items

def signedEntries : List (String × Json) → Bool
  | [] => true
  | (_, value) :: entries => signed value && signedEntries entries

end

theorem ofDouble_of_isFinite {d : Double} (finite : d.isFinite = true) :
    ofDouble d = number (.double d finite) := by
  rw [ofDouble, Number.ofDouble?, dif_pos finite]

theorem ofDouble_of_not_isFinite {d : Double} (unbounded : d.isFinite = false) :
    ofDouble d = null := by
  rw [ofDouble, Number.ofDouble?, dif_neg (Bool.not_eq_true _ ▸ unbounded)]

/-- A number as a value keeps it: a whole number beyond sixty-four bits with a sign as a double. -/
def Number.rounded : Number → Json
  | .integer n =>
    if leastSigned ≤ n && n ≤ greatestSigned then number (.integer n)
    else ofDouble (Double.ofInt n)
  | .double d finite => number (.double d finite)

mutual

def rounded : Json → Json
  | number n => n.rounded
  | array items => array (roundedItems items)
  | object entries => object (roundedEntries entries)
  | other => other

def roundedItems : List Json → List Json
  | [] => []
  | item :: items => rounded item :: roundedItems items

def roundedEntries : List (String × Json) → List (String × Json)
  | [] => []
  | (key, value) :: entries => (key, rounded value) :: roundedEntries entries

end

mutual

theorem rounded_of_signed (value : Json) (small : value.signed = true) : value.rounded = value := by
  cases value with
  | number n =>
    cases n with
    | integer n => exact if_pos small
    | double d finite => rfl
  | array items => rw [rounded, roundedItems_of_signed items small]
  | object entries => rw [rounded, roundedEntries_of_signed entries small]
  | _ => rfl

theorem roundedItems_of_signed (items : List Json) (small : signedItems items = true) :
    roundedItems items = items := by
  cases items with
  | nil => rfl
  | cons item items =>
    rw [signedItems, Bool.and_eq_true] at small
    rw [roundedItems, rounded_of_signed item small.1, roundedItems_of_signed items small.2]

private theorem roundedEntries_of_signed (entries : List (String × Json))
    (small : signedEntries entries = true) : roundedEntries entries = entries := by
  match entries with
  | [] => rfl
  | (key, value) :: entries =>
    rw [signedEntries, Bool.and_eq_true] at small
    rw [roundedEntries, rounded_of_signed value small.1, roundedEntries_of_signed entries small.2]

end

private theorem map_fst_roundedEntries (entries : List (String × Json)) :
    (roundedEntries entries).map Prod.fst = entries.map Prod.fst := by
  induction entries with
  | nil => rfl
  | cons entry entries ih => rw [roundedEntries, List.map_cons, ih, List.map_cons]

end Json

namespace Object

open Json

theorem ofJsonItems_eq_map (items : List Json) : ofJsonItems items = items.map ofJson := by
  induction items with
  | nil => rfl
  | cons item items ih => rw [ofJsonItems, ih, List.map_cons]

theorem toJsonItems_eq_map (items : List Object) : toJsonItems items = items.map toJson := by
  induction items with
  | nil => rfl
  | cons item items ih => rw [toJsonItems, ih, List.map_cons]

theorem map_fst_ofJsonEntries (entries : List (String × Json)) :
    (ofJsonEntries entries).map Prod.fst = (entries.map Prod.fst).map HashKey.symbol := by
  induction entries with
  | nil => rfl
  | cons entry entries ih => rw [ofJsonEntries, List.map_cons, ih, List.map_cons, List.map_cons]

theorem ofJson_object {entries : List (String × Json)} (distinct : (entries.map Prod.fst).Nodup) :
    ofJson (.object entries) = hash (ofJsonEntries entries) := by
  have keys : ((ofJsonEntries entries).map Prod.fst).Nodup := by
    rw [map_fst_ofJsonEntries]
    exact List.Nodup.map (fun _ _ same => HashKey.symbol.inj same) distinct
  rw [ofJson, ofPairs, Dictionary.ofPairs_of_nodup keys]

private theorem toJson_ofText (s : String) : (ofText s).toJson = .string s := by
  unfold ofText
  split
  · next c name spelled =>
    have whole : ":" ++ String.ofList (c :: name) = s := by
      apply String.toList_inj.1
      simp [spelled]
    rw [toJson, whole]
  · rfl

private theorem toJson_ofNumber (n : Number) (proper : n.wellFormed = true) :
    (ofNumber n).toJson = n.rounded := by
  cases n with
  | integer n =>
    rw [ofNumber, Number.rounded]
    split
    · next small =>
      obtain ⟨least, greatest⟩ := Bool.and_eq_true_iff.1 small
      have below : n < 2 ^ 63 := Int.lt_of_le_of_lt (of_decide_eq_true greatest) (by decide)
      rw [toJson, Int64.toInt_ofInt_of_le (of_decide_eq_true least) below]
      rfl
    · rfl
  | double d finite => exact ofDouble_of_isFinite finite

mutual

/-- A JSON value that is read as a value and written again. -/
theorem toJson_ofJson (value : Json) (proper : value.wellFormed = true) :
    (ofJson value).toJson = value.rounded := by
  cases value with
  | number n => exact toJson_ofNumber n proper
  | string s => exact toJson_ofText s
  | array items => rw [ofJson, toJson, toJsonItems_ofJsonItems items proper, rounded]
  | object entries =>
    have distinct := ((wellFormedEntries_iff entries).1 proper).1
    rw [ofJson_object distinct, toJson, toJsonEntries_ofJsonEntries entries proper,
      Dictionary.ofPairs_of_nodup (by rw [map_fst_roundedEntries]; exact distinct), rounded]
  | _ => rfl

theorem toJsonItems_ofJsonItems (items : List Json) (proper : wellFormedItems items = true) :
    toJsonItems (ofJsonItems items) = roundedItems items := by
  cases items with
  | nil => rfl
  | cons item items =>
    rw [wellFormedItems, Bool.and_eq_true] at proper
    rw [ofJsonItems, toJsonItems, toJson_ofJson item proper.1,
      toJsonItems_ofJsonItems items proper.2, roundedItems]

private theorem toJsonEntries_ofJsonEntries (entries : List (String × Json))
    (proper : wellFormedEntries entries = true) :
    toJsonEntries (ofJsonEntries entries) = roundedEntries entries := by
  match entries with
  | [] => rfl
  | (key, value) :: entries =>
    rw [wellFormedEntries, Bool.and_eq_true, Bool.and_eq_true] at proper
    rw [ofJsonEntries, toJsonEntries, toJson_ofJson value proper.1.2,
      toJsonEntries_ofJsonEntries entries proper.2, roundedEntries, HashKey.jsonName]

end

end Object

end NativeCall
