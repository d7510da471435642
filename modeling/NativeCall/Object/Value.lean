import NativeCall.Json.Document
import NativeCall.Object.Equality
import NativeCall.Object.Json

/-!
Values as they can be built: every hash in them holds each of its keys once. They are read from
documents and written as documents.
-/

set_option autoImplicit false
set_option relaxedAutoImplicit false

namespace NativeCall

namespace Object

mutual

private theorem distinctKeys_ofJson (json : Json) : (ofJson json).distinctKeys = true := by
  match json with
  | .null | .boolean _ => rfl
  | .number (.double _ _) => rfl
  | .number (.integer n) =>
    rw [ofJson, ofNumber]
    split <;> rfl
  | .string s =>
    rw [ofJson, ofText]
    split <;> rfl
  | .array items => exact (distinctKeys_array _).2 (distinctKeys_ofJsonItems items)
  | .object entries =>
    refine (distinctKeys_hash _).2 ⟨Dictionary.nodup_keys_ofPairs _, fun entry held => ?_⟩
    exact distinctKeys_ofJsonEntries entries entry (Dictionary.mem_of_mem_ofPairs held)

private theorem distinctKeys_ofJsonItems (items : List Json) :
    ∀ item ∈ ofJsonItems items, item.distinctKeys = true := by
  match items with
  | [] => exact List.forall_mem_nil _
  | item :: items =>
    exact List.forall_mem_cons.2 ⟨distinctKeys_ofJson item, distinctKeys_ofJsonItems items⟩

private theorem distinctKeys_ofJsonEntries (entries : List (String × Json)) :
    ∀ entry ∈ ofJsonEntries entries, entry.2.distinctKeys = true := by
  match entries with
  | [] => exact List.forall_mem_nil _
  | (_, json) :: entries =>
    exact List.forall_mem_cons.2 ⟨distinctKeys_ofJson json, distinctKeys_ofJsonEntries entries⟩

end

private theorem wellFormed_ofInt {n : Int} (least : Json.leastSigned ≤ n)
    (greatest : n ≤ Json.greatestSigned) : (Json.ofInt n).wellFormed = true := by
  have most : n ≤ Json.greatestUnsigned := Int.le_trans greatest (by decide)
  exact Bool.and_eq_true_iff.2 ⟨decide_eq_true least, decide_eq_true most⟩

mutual

private theorem wellFormed_toJson (o : Object) : o.toJson.wellFormed = true := by
  match o with
  | nil | boolean _ | string _ | symbol _ | proc _ => rfl
  | int n => exact wellFormed_ofInt n.le_toInt (Int.le_sub_one_of_lt n.toInt_lt)
  | io descriptor =>
    have number : (Json.ofInt descriptor.toInt).wellFormed = true :=
      wellFormed_ofInt (Int.le_trans (by decide) descriptor.le_toInt)
        (Int.le_trans (Int.le_of_lt descriptor.toInt_lt) (by decide))
    exact (Json.wellFormedEntries_iff _).2 ⟨by simp, List.forall_mem_singleton.2 number⟩
  | float d =>
    rw [toJson, Json.ofDouble, Json.Number.ofDouble?]
    by_cases finite : d.isFinite = true
    · rw [dif_pos finite]
      rfl
    · rw [dif_neg finite]
      rfl
  | array items => exact wellFormed_toJsonItems items
  | hash entries =>
    refine (Json.wellFormedEntries_iff _).2 ⟨Dictionary.nodup_keys_ofPairs _, fun entry held => ?_⟩
    exact wellFormed_toJsonEntries entries entry (Dictionary.mem_of_mem_ofPairs held)

private theorem wellFormed_toJsonItems (items : List Object) :
    Json.wellFormedItems (toJsonItems items) = true := by
  match items with
  | [] => rfl
  | item :: items =>
    exact Bool.and_eq_true_iff.2 ⟨wellFormed_toJson item, wellFormed_toJsonItems items⟩

private theorem wellFormed_toJsonEntries (entries : List (HashKey × Object)) :
    ∀ entry ∈ toJsonEntries entries, entry.2.wellFormed = true := by
  match entries with
  | [] => exact List.forall_mem_nil _
  | (_, o) :: entries =>
    exact List.forall_mem_cons.2 ⟨wellFormed_toJson o, wellFormed_toJsonEntries entries⟩

end

end Object

@[ext]
structure Value where
  object : Object
  distinctKeys : object.distinctKeys = true

namespace Value

def ofDocument (document : Json.Document) : Value :=
  ⟨.ofJson document.json, Object.distinctKeys_ofJson document.json⟩

def toDocument (value : Value) : Json.Document :=
  ⟨value.object.toJson, Object.wellFormed_toJson value.object⟩

def eq (a b : Value) : Bool :=
  a.object.eq b.object

def ofText (text : String) : Except Json.Fault Value :=
  ofDocument <$> Json.parse text

end Value

end NativeCall
