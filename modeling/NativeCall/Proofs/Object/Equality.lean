import Mathlib.Data.List.Forall2
import Mathlib.Data.List.Perm.Subperm
import NativeCall.Object.Equality

/-!
Equality of values, container by container. A value with distinct keys and no NaN anywhere in it is
equal to itself: `Object.eq_self`.
-/

set_option autoImplicit false
set_option relaxedAutoImplicit false

namespace NativeCall

namespace Object

/-- What holds of a container if it holds of everything directly in it holds of every value. -/
@[elab_as_elim]
theorem nestedInduction {motive : Object → Prop} (nil : motive nil)
    (boolean : ∀ b, motive (boolean b)) (int : ∀ n, motive (int n))
    (float : ∀ d, motive (float d)) (string : ∀ s, motive (string s))
    (symbol : ∀ name, motive (symbol name))
    (array : ∀ items, (∀ item ∈ items, motive item) → motive (array items))
    (hash : ∀ entries, (∀ entry ∈ entries, motive entry.2) → motive (hash entries))
    (proc : ∀ name, motive (proc name)) (io : ∀ descriptor, motive (io descriptor))
    (o : Object) : motive o := by
  match o with
  | .nil => exact nil
  | .boolean b => exact boolean b
  | .int n => exact int n
  | .float d => exact float d
  | .string s => exact string s
  | .symbol name => exact symbol name
  | .array items =>
    exact array items fun item _ =>
      nestedInduction nil boolean int float string symbol array hash proc io item
  | .hash entries =>
    exact hash entries fun entry _ =>
      nestedInduction nil boolean int float string symbol array hash proc io entry.2
  | .proc name => exact proc name
  | .io descriptor => exact io descriptor
termination_by sizeOf o
decreasing_by
  · have smaller := List.sizeOf_lt_of_mem ‹item ∈ items›
    simp only [Object.array.sizeOf_spec]
    omega
  · have smaller := List.sizeOf_lt_of_mem ‹entry ∈ entries›
    obtain ⟨key, value⟩ := entry
    simp only [Object.hash.sizeOf_spec, Prod.mk.sizeOf_spec] at smaller ⊢
    omega

/-- A value occurs in another: it is that value, or it occurs in an item or under a key of it. -/
inductive Within (part : Object) : Object → Prop where
  | whole : Within part part
  | item {items : List Object} {item : Object} (member : item ∈ items)
    (inside : Within part item) : Within part (array items)
  | value {entries : List (HashKey × Object)} {entry : HashKey × Object} (member : entry ∈ entries)
    (inside : Within part entry.2) : Within part (hash entries)

def isLeaf : Object → Bool
  | array _ => false
  | hash _ => false
  | _ => true

theorem forall_within_leaf {P : Object → Prop} {o : Object} (leaf : o.isLeaf = true) :
    (∀ part, Within part o → P part) ↔ P o := by
  constructor
  · exact fun every => every o .whole
  · intro self part inside
    cases inside with
    | whole => exact self
    | item => cases leaf
    | value => cases leaf

theorem forall_within_array {P : Object → Prop} (items : List Object) :
    (∀ part, Within part (array items) → P part) ↔
      P (array items) ∧ ∀ item ∈ items, ∀ part, Within part item → P part := by
  constructor
  · intro every
    exact ⟨every _ .whole, fun item member part inside => every part (.item member inside)⟩
  · rintro ⟨self, each⟩ part inside
    cases inside with
    | whole => exact self
    | item member inside => exact each _ member part inside

theorem forall_within_hash {P : Object → Prop} (entries : List (HashKey × Object)) :
    (∀ part, Within part (hash entries) → P part) ↔
      P (hash entries) ∧ ∀ entry ∈ entries, ∀ part, Within part entry.2 → P part := by
  constructor
  · intro every
    exact ⟨every _ .whole, fun entry member part inside => every part (.value member inside)⟩
  · rintro ⟨self, each⟩ part inside
    cases inside with
    | whole => exact self
    | value member inside => exact each _ member part inside

theorem eq_array_iff (items others : List Object) :
    eq (array items) (array others) = true ↔
      List.Forall₂ (fun a b => eq a b = true) items others := by
  rw [eq]
  induction items generalizing others with
  | nil =>
    cases others with
    | nil => simp [eqItems]
    | cons other others => simp [eqItems]
  | cons item items ih =>
    cases others with
    | nil => simp [eqItems]
    | cons other others => rw [eqItems, Bool.and_eq_true, ih, List.forall₂_cons]

private theorem eqEntries_iff (entries others : List (HashKey × Object)) :
    eqEntries entries others = true ↔ ∀ entry ∈ entries, ∃ other,
      Dictionary.find? entry.1 others = some other ∧ eq entry.2 other = true := by
  induction entries with
  | nil => simp [eqEntries]
  | cons entry entries ih =>
    obtain ⟨key, value⟩ := entry
    rw [eqEntries, List.forall_mem_cons]
    cases Dictionary.find? key others with
    | none => simp
    | some other => simp [ih]

theorem eq_hash_iff (entries others : List (HashKey × Object)) :
    eq (hash entries) (hash others) = true ↔ entries.length = others.length ∧
      ∀ entry ∈ entries, ∃ other,
        Dictionary.find? entry.1 others = some other ∧ eq entry.2 other = true := by
  rw [eq, Bool.and_eq_true, beq_iff_eq, eqEntries_iff]

/-- Equal hashes have the same keys, because they have as many of them. -/
theorem perm_keys_of_eq {entries others : List (HashKey × Object)}
    (distinct : (entries.map Prod.fst).Nodup)
    (same : eq (hash entries) (hash others) = true) :
    (entries.map Prod.fst).Perm (others.map Prod.fst) := by
  obtain ⟨count, each⟩ := (eq_hash_iff entries others).1 same
  have found : entries.map Prod.fst ⊆ others.map Prod.fst := by
    intro key member
    obtain ⟨entry, held, rfl⟩ := List.mem_map.1 member
    obtain ⟨other, reached, -⟩ := each entry held
    exact List.mem_map.2 ⟨_, Dictionary.mem_of_find? reached, rfl⟩
  apply (List.subperm_of_subset distinct found).perm_of_length_le
  rw [List.length_map, List.length_map]
  exact Nat.le_of_eq count.symm

theorem eq_self (o : Object) (distinct : o.distinctKeys = true)
    (ordered : ∀ part, Within part o → ∀ d, part = float d → d.isNan = false) :
    eq o o = true := by
  induction o using nestedInduction with
  | nil => rfl
  | float d =>
    have number := ordered _ .whole d rfl
    rw [eq, Double.eq, number, BEq.rfl]
    rfl
  | array items ih =>
    rw [distinctKeys_array] at distinct
    rw [forall_within_array] at ordered
    rw [eq_array_iff, List.forall₂_same]
    intro item member
    exact ih item member (distinct item member) (ordered.2 item member)
  | hash entries ih =>
    rw [distinctKeys_hash] at distinct
    rw [forall_within_hash] at ordered
    rw [eq_hash_iff]
    refine ⟨rfl, fun entry member => ⟨entry.2, Dictionary.find?_of_mem distinct.1 member, ?_⟩⟩
    exact ih entry member (distinct.2 entry member) (ordered.2 entry member)
  | _ => simp [eq]

end Object

end NativeCall
