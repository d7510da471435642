/-!
Dictionaries in insertion order. A repeated key keeps its first position and takes its last value.
`find?_insert_self` and `find?_insert_of_ne` say what an insertion does to look-ups,
`map_fst_insert` what it does to the keys, and `nodup_keys_ofPairs` that no key is held twice. Pairs
whose keys are distinct are a dictionary as they stand: `ofPairs_of_nodup`.
-/

set_option autoImplicit false
set_option relaxedAutoImplicit false

namespace NativeCall

/-- Keys with their values, in the order in which the keys first came. -/
abbrev Dictionary (κ α : Type) := List (κ × α)

namespace Dictionary

variable {κ α : Type} [DecidableEq κ]

/-- Puts a value under a key: in place if the key is there, and at the end if it is new. -/
def insert (key : κ) (value : α) : Dictionary κ α → Dictionary κ α
  | [] => [(key, value)]
  | (k, v) :: rest => if k = key then (k, value) :: rest else (k, v) :: insert key value rest

def ofPairs (pairs : List (κ × α)) : Dictionary κ α :=
  pairs.foldl (fun dictionary (key, value) => insert key value dictionary) []

def find? (key : κ) : Dictionary κ α → Option α
  | [] => none
  | (k, v) :: rest => if k = key then some v else find? key rest

theorem find?_insert_self (key : κ) (value : α) (d : Dictionary κ α) :
    find? key (insert key value d) = some value := by
  induction d with
  | nil => simp [insert, find?]
  | cons entry rest ih =>
    obtain ⟨k, v⟩ := entry
    by_cases h : k = key <;> simp [insert, find?, h, ih]

theorem find?_insert_of_ne {key other : κ} (hne : other ≠ key) (value : α)
    (d : Dictionary κ α) : find? other (insert key value d) = find? other d := by
  induction d with
  | nil => simp [insert, find?, hne.symm]
  | cons entry rest ih =>
    obtain ⟨k, v⟩ := entry
    by_cases h : k = key
    · have hk : k ≠ other := fun e => hne (e.symm.trans h)
      simp [insert, find?, h, h ▸ hk]
    · simp only [insert, if_neg h, find?, ih]

theorem find?_eq_none_iff (key : κ) (d : Dictionary κ α) :
    find? key d = none ↔ key ∉ d.map Prod.fst := by
  induction d with
  | nil => simp [find?]
  | cons entry rest ih =>
    obtain ⟨k, v⟩ := entry
    by_cases h : k = key
    · simp [find?, h]
    · have hne : key ≠ k := fun e => h e.symm
      simp only [find?, if_neg h, ih, List.map_cons, List.mem_cons, hne, false_or]

theorem map_fst_insert (key : κ) (value : α) (d : Dictionary κ α) :
    (insert key value d).map Prod.fst =
      if key ∈ d.map Prod.fst then d.map Prod.fst else d.map Prod.fst ++ [key] := by
  induction d with
  | nil => simp [insert]
  | cons entry rest ih =>
    obtain ⟨k, v⟩ := entry
    by_cases h : k = key
    · simp [insert, h]
    · have hne : key ≠ k := fun e => h e.symm
      simp only [insert, if_neg h, List.map_cons, ih, List.mem_cons]
      split <;> simp_all

private theorem nodup_keys_insert (key : κ) (value : α) (d : Dictionary κ α)
    (h : (d.map Prod.fst).Nodup) : ((insert key value d).map Prod.fst).Nodup := by
  rw [map_fst_insert]
  split
  · exact h
  · next hk => exact List.nodup_append.2 ⟨h, by simp, by rintro a ha b hb rfl; simp_all⟩

private theorem nodup_keys_foldl (pairs : List (κ × α)) (d : Dictionary κ α)
    (h : (d.map Prod.fst).Nodup) :
    ((pairs.foldl (fun d (key, value) => insert key value d) d).map Prod.fst).Nodup := by
  induction pairs generalizing d with
  | nil => exact h
  | cons pair rest ih => exact ih _ (nodup_keys_insert _ _ _ h)

theorem nodup_keys_ofPairs (pairs : List (κ × α)) : ((ofPairs pairs).map Prod.fst).Nodup :=
  nodup_keys_foldl pairs [] (by simp)

private theorem eq_or_mem_of_mem_insert {key : κ} {value : α} {d : Dictionary κ α} {entry : κ × α}
    (found : entry ∈ insert key value d) : entry = (key, value) ∨ entry ∈ d := by
  induction d with
  | nil => exact .inl (List.mem_singleton.1 found)
  | cons first rest ih =>
    obtain ⟨k, v⟩ := first
    unfold insert at found
    split at found
    · next same =>
      rcases List.mem_cons.1 found with rfl | later
      · exact .inl (by rw [same])
      · exact .inr (List.mem_cons_of_mem _ later)
    · rcases List.mem_cons.1 found with rfl | later
      · exact .inr (List.mem_cons_self ..)
      · exact (ih later).imp_right (List.mem_cons_of_mem _)

private theorem mem_of_mem_foldl {pairs : List (κ × α)} {d : Dictionary κ α} {entry : κ × α}
    (found : entry ∈ pairs.foldl (fun d (key, value) => insert key value d) d) :
    entry ∈ d ∨ entry ∈ pairs := by
  induction pairs generalizing d with
  | nil => exact .inl found
  | cons pair rest ih =>
    rcases ih found with start | later
    · rcases eq_or_mem_of_mem_insert start with rfl | before
      · exact .inr (List.mem_cons_self ..)
      · exact .inl before
    · exact .inr (List.mem_cons_of_mem _ later)

theorem mem_of_mem_ofPairs {pairs : List (κ × α)} {entry : κ × α}
    (found : entry ∈ ofPairs pairs) : entry ∈ pairs := by
  rcases mem_of_mem_foldl found with start | later
  · cases start
  · exact later

private theorem insert_of_notMem {key : κ} (value : α) {d : Dictionary κ α}
    (new : key ∉ d.map Prod.fst) : insert key value d = d ++ [(key, value)] := by
  induction d with
  | nil => rfl
  | cons entry rest ih =>
    obtain ⟨k, v⟩ := entry
    simp only [List.map_cons, List.mem_cons, not_or] at new
    rw [insert, if_neg (Ne.symm new.1), ih new.2, List.cons_append]

private theorem foldl_insert_of_nodup (pairs : List (κ × α)) (d : Dictionary κ α)
    (distinct : ((d ++ pairs).map Prod.fst).Nodup) :
    pairs.foldl (fun d (key, value) => insert key value d) d = d ++ pairs := by
  induction pairs generalizing d with
  | nil => exact (List.append_nil d).symm
  | cons pair rest ih =>
    obtain ⟨key, value⟩ := pair
    have new : key ∉ d.map Prod.fst := by
      simp only [List.map_append, List.map_cons, List.nodup_append] at distinct
      exact fun found => distinct.2.2 _ found key (List.mem_cons_self ..) rfl
    have shift : d ++ [(key, value)] ++ rest = d ++ (key, value) :: rest := by
      rw [List.append_assoc, List.singleton_append]
    rw [List.foldl_cons]
    dsimp only
    rw [insert_of_notMem value new, ih _ (by rw [shift]; exact distinct), shift]

theorem ofPairs_of_nodup {pairs : List (κ × α)} (distinct : (pairs.map Prod.fst).Nodup) :
    ofPairs pairs = pairs :=
  foldl_insert_of_nodup pairs [] distinct

theorem mem_of_find? {key : κ} {value : α} {d : Dictionary κ α}
    (found : find? key d = some value) : (key, value) ∈ d := by
  induction d with
  | nil => cases found
  | cons entry rest ih =>
    obtain ⟨k, v⟩ := entry
    by_cases h : k = key
    · rw [find?, if_pos h] at found
      obtain rfl := Option.some.inj found
      rw [h]
      exact List.mem_cons_self ..
    · rw [find?, if_neg h] at found
      exact List.mem_cons_of_mem _ (ih found)

theorem find?_of_mem {key : κ} {value : α} {d : Dictionary κ α}
    (distinct : (d.map Prod.fst).Nodup) (held : (key, value) ∈ d) :
    find? key d = some value := by
  induction d with
  | nil => cases held
  | cons entry rest ih =>
    obtain ⟨k, v⟩ := entry
    rw [List.map_cons, List.nodup_cons] at distinct
    rcases List.mem_cons.1 held with same | later
    · obtain ⟨rfl, rfl⟩ := Prod.mk.inj same
      rw [find?, if_pos rfl]
    · have other : k ≠ key := fun same =>
        distinct.1 (List.mem_map.2 ⟨(key, value), later, same.symm⟩)
      rw [find?, if_neg other]
      exact ih distinct.2 later

end Dictionary

end NativeCall
