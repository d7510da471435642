import Mathlib.Logic.Relation
import NativeCall.Object.Value
import NativeCall.Proofs.Object.Equality

/-!
Equality of values as a relation. It is symmetric and transitive, and a value is equal to itself
exactly if it holds no NaN. The order of the entries of a hash does not count, at any depth, and
values of different kinds are never equal. `Object.eq_partialEquivalence` puts these together.
-/

set_option autoImplicit false
set_option relaxedAutoImplicit false

namespace NativeCall

namespace Double

theorem eq_iff (a b : Double) :
    a.eq b = true ↔
      a.isNan = false ∧ b.isNan = false ∧ (a = b ∨ a.isZero = true ∧ b.isZero = true) := by
  have bits : a.bits = b.bits ↔ a = b := by
    cases a
    cases b
    rw [Double.mk.injEq]
  rw [Double.eq, Bool.and_eq_true, Bool.and_eq_true, Bool.not_eq_true', Bool.not_eq_true',
    Bool.or_eq_true, Bool.and_eq_true, beq_iff_eq, bits, and_assoc]

private theorem eq_symm {a b : Double} (same : a.eq b = true) : b.eq a = true := by
  obtain ⟨left, right, equal⟩ := (eq_iff a b).1 same
  refine (eq_iff b a).2 ⟨right, left, ?_⟩
  rcases equal with bits | ⟨zero, zero'⟩
  · exact .inl bits.symm
  · exact .inr ⟨zero', zero⟩

private theorem eq_trans {a b c : Double} (first : a.eq b = true) (second : b.eq c = true) :
    a.eq c = true := by
  obtain ⟨left, -, equal⟩ := (eq_iff a b).1 first
  obtain ⟨-, right, equal'⟩ := (eq_iff b c).1 second
  refine (eq_iff a c).2 ⟨left, right, ?_⟩
  rcases equal with rfl | ⟨zero, zero'⟩
  · exact equal'
  · rcases equal' with rfl | ⟨-, zero''⟩
    · exact .inr ⟨zero, zero'⟩
    · exact .inr ⟨zero, zero''⟩

private theorem eq_self_iff (a : Double) : a.eq a = true ↔ a.isNan = false := by
  rw [eq_iff]
  constructor
  · exact fun same => same.1
  · exact fun number => ⟨number, number, .inl rfl⟩

end Double

namespace Object

def isPlain : Object → Bool
  | float _ => false
  | array _ => false
  | hash _ => false
  | _ => true

private theorem of_eq_plain {a b : Object} (plain : a.isPlain = true) (same : eq a b = true) :
    a = b := by
  cases a <;> cases b <;> simp_all [isPlain, eq]

private theorem of_eq_float {x : Double} {b : Object} (same : eq (float x) b = true) :
    ∃ y, b = float y ∧ x.eq y = true := by
  cases b with
  | float y =>
    rw [eq] at same
    exact ⟨y, rfl, same⟩
  | _ => cases same

private theorem of_eq_array {items : List Object} {b : Object} (same : eq (array items) b = true) :
    ∃ others, b = array others ∧ List.Forall₂ (fun a b => eq a b = true) items others := by
  cases b with
  | array others => exact ⟨others, rfl, (eq_array_iff items others).1 same⟩
  | _ => cases same

private theorem of_eq_hash {entries : List (HashKey × Object)} {b : Object}
    (same : eq (hash entries) b = true) :
    ∃ others, b = hash others ∧ entries.length = others.length ∧
      ∀ entry ∈ entries, ∃ other,
        Dictionary.find? entry.1 others = some other ∧ eq entry.2 other = true := by
  cases b with
  | hash others => exact ⟨others, rfl, (eq_hash_iff entries others).1 same⟩
  | _ => cases same

private theorem kind_of_eq {a b : Object} (same : eq a b = true) : a.ctorIdx = b.ctorIdx := by
  cases a with
  | float x =>
    obtain ⟨y, rfl, -⟩ := of_eq_float same
    rfl
  | array items =>
    obtain ⟨others, rfl, -⟩ := of_eq_array same
    rfl
  | hash entries =>
    obtain ⟨others, rfl, -⟩ := of_eq_hash same
    rfl
  | _ => rw [of_eq_plain rfl same]

private theorem eq_symm {a b : Object} (distinct : a.distinctKeys = true)
    (distinct' : b.distinctKeys = true) (same : eq a b = true) : eq b a = true := by
  induction a using nestedInduction generalizing b with
  | float x =>
    obtain ⟨y, rfl, equal⟩ := of_eq_float same
    rw [eq]
    exact Double.eq_symm equal
  | array items ih =>
    obtain ⟨others, rfl, each⟩ := of_eq_array same
    rw [distinctKeys_array] at distinct distinct'
    obtain ⟨count, equal⟩ := List.forall₂_iff_get.1 each
    rw [eq_array_iff, List.forall₂_iff_get]
    refine ⟨count.symm, fun i inside' inside => ?_⟩
    have member := List.get_mem items ⟨i, inside⟩
    have member' := List.get_mem others ⟨i, inside'⟩
    exact ih _ member (distinct _ member) (distinct' _ member') (equal i inside inside')
  | hash entries ih =>
    obtain ⟨others, rfl, count, each⟩ := of_eq_hash same
    rw [distinctKeys_hash] at distinct distinct'
    have keys := perm_keys_of_eq distinct.1 same
    rw [eq_hash_iff]
    refine ⟨count.symm, fun other member => ?_⟩
    -- the entry under the same key is the one that led to this entry
    obtain ⟨entry, held, key⟩ := List.mem_map.1 (keys.mem_iff.2 (List.mem_map_of_mem member))
    obtain ⟨value, reached, equal⟩ := each entry held
    rw [key, Dictionary.find?_of_mem distinct'.1 member] at reached
    obtain rfl := Option.some.inj reached
    refine ⟨entry.2, ?_, ?_⟩
    · rw [← key]
      exact Dictionary.find?_of_mem distinct.1 held
    · exact ih entry held (distinct.2 entry held) (distinct'.2 other member) equal
  | _ =>
    obtain rfl := of_eq_plain rfl same
    exact same

private theorem eq_swap {a b : Object} (distinct : a.distinctKeys = true)
    (distinct' : b.distinctKeys = true) : eq a b = eq b a :=
  Bool.eq_iff_iff.2 ⟨eq_symm distinct distinct', eq_symm distinct' distinct⟩

private theorem eq_trans {a b c : Object} (first : eq a b = true) (second : eq b c = true) :
    eq a c = true := by
  induction a using nestedInduction generalizing b c with
  | float x =>
    obtain ⟨y, rfl, equal⟩ := of_eq_float first
    obtain ⟨z, rfl, equal'⟩ := of_eq_float second
    rw [eq]
    exact Double.eq_trans equal equal'
  | array items ih =>
    obtain ⟨others, rfl, each⟩ := of_eq_array first
    obtain ⟨last, rfl, each'⟩ := of_eq_array second
    obtain ⟨count, equal⟩ := List.forall₂_iff_get.1 each
    obtain ⟨count', equal'⟩ := List.forall₂_iff_get.1 each'
    rw [eq_array_iff, List.forall₂_iff_get]
    refine ⟨count.trans count', fun i inside inside'' => ?_⟩
    have inside' : i < others.length := count ▸ inside
    have member := List.get_mem items ⟨i, inside⟩
    exact ih _ member (equal i inside inside') (equal' i inside' inside'')
  | hash entries ih =>
    obtain ⟨others, rfl, count, each⟩ := of_eq_hash first
    obtain ⟨last, rfl, count', each'⟩ := of_eq_hash second
    rw [eq_hash_iff]
    refine ⟨count.trans count', fun entry held => ?_⟩
    obtain ⟨value, reached, equal⟩ := each entry held
    obtain ⟨value', reached', equal'⟩ := each' _ (Dictionary.mem_of_find? reached)
    exact ⟨value', reached', ih entry held equal equal'⟩
  | _ =>
    obtain rfl := of_eq_plain rfl first
    exact second

private theorem not_isNan_of_eq_self {a : Object} (distinct : a.distinctKeys = true)
    (same : eq a a = true) : ∀ d, Within (float d) a → d.isNan = false := by
  induction a using nestedInduction with
  | float x =>
    intro d inside
    cases inside
    rw [eq] at same
    exact (Double.eq_self_iff x).1 same
  | array items ih =>
    rw [distinctKeys_array] at distinct
    rw [eq_array_iff, List.forall₂_same] at same
    intro d inside
    cases inside with
    | item member inside => exact ih _ member (distinct _ member) (same _ member) d inside
  | hash entries ih =>
    rw [distinctKeys_hash] at distinct
    rw [eq_hash_iff] at same
    intro d inside
    cases inside with
    | value member inside =>
      obtain ⟨value, reached, equal⟩ := same.2 _ member
      rw [Dictionary.find?_of_mem distinct.1 member] at reached
      obtain rfl := Option.some.inj reached
      exact ih _ member (distinct.2 _ member) equal d inside
  | _ =>
    intro d inside
    cases inside

private theorem eq_self_iff {a : Object} (distinct : a.distinctKeys = true) :
    eq a a = true ↔ ∀ d, Within (float d) a → d.isNan = false := by
  constructor
  · exact not_isNan_of_eq_self distinct
  · intro ordered
    refine eq_self a distinct fun part inside d number => ordered d ?_
    rw [← number]
    exact inside

/-- The entries of one hash come in another order: those of the value itself, or those of a hash
anywhere inside it. -/
inductive Reordered : Object → Object → Prop where
  | entries {entries others : List (HashKey × Object)} (order : entries.Perm others) :
      Reordered (hash entries) (hash others)
  | item {a b : Object} (before after : List Object) (inside : Reordered a b) :
      Reordered (array (before ++ a :: after)) (array (before ++ b :: after))
  | value {a b : Object} (before after : List (HashKey × Object)) (key : HashKey)
      (inside : Reordered a b) :
      Reordered (hash (before ++ (key, a) :: after)) (hash (before ++ (key, b) :: after))

namespace Reordered

variable {a b : Object}

theorem distinctKeys (moved : Reordered a b) (distinct : a.distinctKeys = true) :
    b.distinctKeys = true := by
  induction moved with
  | entries order =>
    rw [distinctKeys_hash] at distinct ⊢
    refine ⟨(order.map Prod.fst).nodup_iff.1 distinct.1, fun entry member => ?_⟩
    exact distinct.2 entry (order.mem_iff.2 member)
  | item before after inside ih =>
    rw [distinctKeys_array, List.forall_mem_append, List.forall_mem_cons] at distinct ⊢
    exact ⟨distinct.1, ih distinct.2.1, distinct.2.2⟩
  | value before after key inside ih =>
    rw [distinctKeys_hash, List.forall_mem_append, List.forall_mem_cons] at distinct ⊢
    simp only [List.map_append, List.map_cons] at distinct ⊢
    exact ⟨distinct.1, distinct.2.1, ih distinct.2.2.1, distinct.2.2.2⟩

private theorem eqItems_left (alike : ∀ c, eq a c = eq b c) (before after others : List Object) :
    eqItems (before ++ a :: after) others = eqItems (before ++ b :: after) others := by
  induction before generalizing others with
  | nil =>
    cases others with
    | nil => rfl
    | cons other others => rw [List.nil_append, List.nil_append, eqItems, eqItems, alike]
  | cons item before ih =>
    cases others with
    | nil => rfl
    | cons other others => rw [List.cons_append, List.cons_append, eqItems, eqItems, ih]

/-- What a value is equal to does not change with the order of entries. -/
theorem eq_left (moved : Reordered a b) (c : Object) : eq a c = eq b c := by
  induction moved generalizing c with
  | entries order =>
    cases c with
    | hash others =>
      rw [Bool.eq_iff_iff, eq_hash_iff, eq_hash_iff, order.length_eq]
      simp only [order.mem_iff]
    | _ => rfl
  | item before after inside ih =>
    cases c with
    | array others =>
      rw [eq, eq]
      exact eqItems_left ih before after others
    | _ => rfl
  | value before after key inside ih =>
    cases c with
    | hash others =>
      rw [Bool.eq_iff_iff, eq_hash_iff, eq_hash_iff]
      simp only [List.length_append, List.length_cons, List.forall_mem_append,
        List.forall_mem_cons, ih]
    | _ => rfl

private theorem eq_of_many (moved : Relation.ReflTransGen Reordered a b) (c : Object)
    (distinct : a.distinctKeys = true) (distinct' : c.distinctKeys = true) :
    b.distinctKeys = true ∧ eq b c = eq a c ∧ eq c b = eq c a := by
  induction moved with
  | refl => exact ⟨distinct, rfl, rfl⟩
  | tail _ step ih =>
    obtain ⟨proper, left, right⟩ := ih
    have proper' := step.distinctKeys proper
    have left' := step.eq_left c
    refine ⟨proper', left'.symm.trans left, ?_⟩
    rw [eq_swap distinct' proper', ← left', eq_swap proper distinct', right]

end Reordered

/-- Equality is symmetric and transitive, and a value is equal to itself, and so to a copy of
itself, exactly if it holds no NaN at any depth. The order of the entries of a hash does not count,
wherever the hash stands. Values of different kinds are never equal; nor are hashes unless they have
the same keys, each of the same kind. -/
theorem eq_partialEquivalence (a b c : Value) :
    a.eq b = b.eq a ∧
    (a.eq b = true → b.eq c = true → a.eq c = true) ∧
    (a.eq a = true ↔ ∀ d, Within (float d) a.object → d.isNan = false) ∧
    (∀ moved, Relation.ReflTransGen Reordered a.object moved →
      eq moved b.object = a.eq b ∧ eq b.object moved = b.eq a) ∧
    (a.object.ctorIdx ≠ b.object.ctorIdx → a.eq b = false) ∧
    (∀ entries others, a.object = hash entries → b.object = hash others → a.eq b = true →
      (entries.map Prod.fst).Perm (others.map Prod.fst)) := by
  refine ⟨eq_swap a.distinctKeys b.distinctKeys, eq_trans, eq_self_iff a.distinctKeys, ?_, ?_, ?_⟩
  · intro moved moves
    exact (Reordered.eq_of_many moves b.object a.distinctKeys b.distinctKeys).2
  · intro other
    rw [← Bool.not_eq_true]
    exact fun same => other (kind_of_eq same)
  · intro entries others left right same
    have distinct := a.distinctKeys
    rw [Value.eq, left, right] at same
    rw [left, distinctKeys_hash] at distinct
    exact perm_keys_of_eq distinct.1 same

theorem eq_partialEquivalence_reordered :
    let one : HashKey × Object := (.symbol "x", .int 1)
    let two : HashKey × Object := (.string "x", .float ⟨0x3ff0000000000000⟩)
    let a : Value := ⟨.array [.hash [one, two], .float (.zero false)], by decide⟩
    let b : Value := ⟨.array [.hash [one, two], .float (.zero true)], by decide⟩
    let moved : Object := .array [.hash [two, one], .float (.zero false)]
    a.eq b = true ∧ b.eq a = true ∧ a.eq a = true ∧
      Relation.ReflTransGen Reordered a.object moved ∧ eq moved b.object = true ∧
      eq b.object moved = true ∧ eq (.int 1) (.float ⟨0x3ff0000000000000⟩) = false := by
  intro one two a b moved
  have same : a.eq b = true := by decide
  have swapped : Reordered a.object moved := .item [] _ (.entries (.swap two one []))
  have moves := Relation.ReflTransGen.single swapped
  obtain ⟨turned, through, -, order, -⟩ := eq_partialEquivalence a b a
  have back : b.eq a = true := turned.symm.trans same
  obtain ⟨left, right⟩ := order moved moves
  obtain ⟨-, -, -, -, apart, -⟩ := eq_partialEquivalence ⟨.int 1, rfl⟩
    ⟨.float ⟨0x3ff0000000000000⟩, rfl⟩ a
  exact ⟨same, back, through same back, moves, left.trans same, right.trans back,
    apart (by decide)⟩

end Object

end NativeCall
