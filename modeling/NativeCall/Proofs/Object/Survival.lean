import Mathlib.Data.List.Perm.Subperm
import NativeCall.Object.Value
import NativeCall.Proofs.Number.Nearest
import NativeCall.Proofs.Object.Equality
import NativeCall.Proofs.Object.RoundTrip

/-!
Which values survive the trip through JSON. A value comes back equal to itself exactly if nothing in
it is lossy: `Object.eq_ofJson_toJson_iff`. Values that are read from JSON never hold anything
lossy, and so `Object.ofJson_survives` says how a JSON value fares on its own trip, how large whole
numbers are rounded included.
-/

set_option autoImplicit false
set_option relaxedAutoImplicit false

namespace NativeCall

namespace Double

private theorem not_isNan_of_isFinite {d : Double} (finite : d.isFinite = true) :
    d.isNan = false := by
  have field : d.exponentField ≠ topField := bne_iff_ne.1 finite
  simp [isNan, field]

end Double

namespace Json

@[elab_as_elim]
theorem nestedInduction {motive : Json → Prop} (null : motive null)
    (boolean : ∀ b, motive (boolean b)) (number : ∀ n, motive (number n))
    (string : ∀ s, motive (string s))
    (array : ∀ items, (∀ item ∈ items, motive item) → motive (array items))
    (object : ∀ entries, (∀ entry ∈ entries, motive entry.2) → motive (object entries))
    (value : Json) : motive value := by
  match value with
  | .null => exact null
  | .boolean b => exact boolean b
  | .number n => exact number n
  | .string s => exact string s
  | .array items =>
    exact array items fun item _ => nestedInduction null boolean number string array object item
  | .object entries =>
    exact object entries fun entry _ =>
      nestedInduction null boolean number string array object entry.2
termination_by sizeOf value
decreasing_by
  · have smaller := List.sizeOf_lt_of_mem ‹item ∈ items›
    simp only [Json.array.sizeOf_spec]
    omega
  · have smaller := List.sizeOf_lt_of_mem ‹entry ∈ entries›
    obtain ⟨key, value⟩ := entry
    simp only [Json.object.sizeOf_spec, Prod.mk.sizeOf_spec] at smaller ⊢
    omega

private theorem natAbs_lt_of_fits {n : Int} (fits : Number.fits n = true) : n.natAbs < 2 ^ 64 := by
  obtain ⟨least, greatest⟩ := Bool.and_eq_true_iff.1 fits
  have lower : -0x8000000000000000 ≤ n := of_decide_eq_true least
  have upper : n ≤ 0xffffffffffffffff := of_decide_eq_true greatest
  omega

private theorem rounded_integer {n : Int} (fits : Number.fits n = true) :
    ∃ nearest : (Double.ofInt n).Nearest n, (Number.integer n).rounded =
      if leastSigned ≤ n ∧ n ≤ greatestSigned then number (.integer n)
      else number (.double (Double.ofInt n) nearest.finite) := by
  have nearest := Double.nearest_ofInt (natAbs_lt_of_fits fits)
  refine ⟨nearest, ?_⟩
  rw [Number.rounded, ofDouble_of_isFinite nearest.finite]
  simp only [Bool.and_eq_true, decide_eq_true_eq]

end Json

namespace Object

open Json

/-- A value that is written as JSON, but is not read again as what it is. -/
inductive Lossy : Object → Prop where
  | float (d : Double) (unbounded : d.isFinite = false) : Lossy (float d)
  | string (s : String) (long : 1 < s.length) (colon : s.toList.head? = some ':') :
    Lossy (string s)
  | symbol : Lossy (symbol "")
  | key {entries : List (HashKey × Object)} (entry : HashKey × Object) (member : entry ∈ entries)
    (other : entry.1.isSymbol = false) : Lossy (hash entries)
  | proc (name : String) : Lossy (proc name)
  | io (descriptor : Int32) : Lossy (io descriptor)

private theorem ofText_symbol {name : String} (named : name ≠ "") :
    ofText (":" ++ name) = symbol name := by
  obtain ⟨c, rest, spelled⟩ : ∃ c rest, name.toList = c :: rest := by
    cases spelled : name.toList with
    | nil => exact absurd (String.toList_inj.1 spelled) named
    | cons c rest => exact ⟨c, rest, rfl⟩
  have whole : (":" ++ name).toList = ':' :: c :: rest := by
    rw [String.toList_append, spelled]
    rfl
  have back : String.ofList (c :: rest) = name := by rw [← spelled, String.ofList_toList]
  simp only [ofText, whole, back]

private theorem ofText_string {s : String} (kept : ¬ Lossy (string s)) : ofText s = string s := by
  unfold ofText
  split
  · next c name spelled =>
    refine absurd (Lossy.string s ?_ ?_) kept
    · rw [← String.length_toList, spelled, List.length_cons, List.length_cons]
      omega
    · rw [spelled]
      rfl
  · rfl

private theorem isLeaf_ofText (s : String) : (ofText s).isLeaf = true := by
  unfold ofText
  split <;> rfl

private theorem not_lossy_ofText (s : String) : ¬ Lossy (ofText s) := by
  unfold ofText
  split
  · next c name _ =>
    generalize spelled : String.ofList (c :: name) = text
    intro lossy
    cases lossy
    have characters := congrArg String.toList spelled
    rw [String.toList_ofList] at characters
    cases characters
  · next spelled =>
    intro lossy
    cases lossy with
    | string _ long colon =>
      rw [← String.length_toList] at long
      cases characters : s.toList with
      | nil => rw [characters] at colon; cases colon
      | cons first others =>
        rw [characters] at long colon
        obtain rfl : first = ':' := Option.some.inj colon
        cases others with
        | nil => simp at long
        | cons c name => exact spelled c name characters

private theorem isLeaf_ofNumber (n : Number) : (ofNumber n).isLeaf = true := by
  cases n with
  | integer n => rw [ofNumber]; split <;> rfl
  | double d => rfl

private theorem not_lossy_ofNumber {n : Number} (proper : n.wellFormed = true) :
    ¬ Lossy (ofNumber n) := by
  cases n with
  | integer n =>
    rw [ofNumber]
    split
    · rintro ⟨⟩
    · rintro ⟨_, unbounded⟩
      exact Bool.false_ne_true
        (unbounded.symm.trans (Double.nearest_ofInt (natAbs_lt_of_fits proper)).finite)
  | double d finite =>
    rintro ⟨_, unbounded⟩
    exact Bool.false_ne_true (unbounded.symm.trans finite)

private theorem ofJson_ofInt (n : Int64) : ofJson (.ofInt n.toInt) = int n := by
  have signed : (leastSigned ≤ n.toInt && n.toInt ≤ greatestSigned) = true := by
    have least := n.le_toInt
    have greatest := n.toInt_lt
    exact Bool.and_eq_true_iff.2
      ⟨decide_eq_true least, decide_eq_true (Int.le_sub_one_of_lt greatest)⟩
  rw [Json.ofInt, ofJson, ofNumber, if_pos signed, Int64.ofInt_toInt]

private theorem ofJsonEntries_eq_map (entries : List (String × Json)) :
    ofJsonEntries entries = entries.map fun entry => (.symbol entry.1, ofJson entry.2) := by
  induction entries with
  | nil => rfl
  | cons entry entries ih => rw [ofJsonEntries, ih, List.map_cons]

private theorem toJsonEntries_eq_map (entries : List (HashKey × Object)) :
    toJsonEntries entries = entries.map fun entry => (entry.1.jsonName, toJson entry.2) := by
  induction entries with
  | nil => rfl
  | cons entry entries ih => rw [toJsonEntries, ih, List.map_cons]

private theorem symbol_jsonName {key : HashKey} (named : key.isSymbol = true) :
    .symbol key.jsonName = key := by
  cases key with
  | symbol name => rfl
  | _ => cases named

private theorem ofJson_toJson_hash {entries : List (HashKey × Object)}
    (distinct : (entries.map Prod.fst).Nodup)
    (symbols : ∀ entry ∈ entries, entry.1.isSymbol = true) :
    ofJson (hash entries).toJson =
      hash (entries.map fun entry => (entry.1, ofJson entry.2.toJson)) := by
  have names : ((toJsonEntries entries).map Prod.fst).Nodup := by
    rw [toJsonEntries_eq_map, List.map_map]
    refine List.Nodup.of_map HashKey.symbol ?_
    rw [List.map_map]
    have same : entries.map (HashKey.symbol ∘ Prod.fst ∘ fun entry =>
        (entry.1.jsonName, toJson entry.2)) = entries.map Prod.fst :=
      List.map_congr_left fun entry member => symbol_jsonName (symbols entry member)
    rw [same]
    exact distinct
  rw [toJson, Dictionary.ofPairs_of_nodup names, ofJson_object names, ofJsonEntries_eq_map,
    toJsonEntries_eq_map, List.map_map]
  congr 1
  refine List.map_congr_left fun entry member => ?_
  rw [Function.comp_apply, symbol_jsonName (symbols entry member)]

private theorem ofJson_toJson_of_lossless (o : Object) (distinct : o.distinctKeys = true)
    (lossless : ∀ part, Within part o → ¬ Lossy part) : ofJson o.toJson = o := by
  induction o using nestedInduction with
  | nil => rfl
  | boolean b => rfl
  | int n => exact ofJson_ofInt n
  | float d =>
    have finite : d.isFinite = true := by
      rw [← Bool.not_eq_false]
      exact fun unbounded => lossless _ .whole (.float d unbounded)
    rw [toJson, ofDouble_of_isFinite finite, ofJson, ofNumber]
  | string s => exact ofText_string (lossless _ .whole)
  | symbol name =>
    refine ofText_symbol fun empty => lossless _ .whole ?_
    rw [empty]
    exact .symbol
  | array items ih =>
    rw [distinctKeys_array] at distinct
    rw [forall_within_array] at lossless
    rw [toJson, ofJson, toJsonItems_eq_map, ofJsonItems_eq_map, List.map_map]
    congr 1
    refine (List.map_congr_left fun item member => ?_).trans (List.map_id items)
    exact ih item member (distinct item member) (lossless.2 item member)
  | hash entries ih =>
    rw [distinctKeys_hash] at distinct
    rw [forall_within_hash] at lossless
    have symbols : ∀ entry ∈ entries, entry.1.isSymbol = true := fun entry member => by
      rw [← Bool.not_eq_false]
      exact fun other => lossless.1 (.key entry member other)
    rw [ofJson_toJson_hash distinct.1 symbols]
    congr 1
    refine (List.map_congr_left fun entry member => ?_).trans (List.map_id entries)
    rw [ih entry member (distinct.2 entry member) (lossless.2 entry member), id]
  | proc name => exact absurd (.proc name) (lossless _ .whole)
  | io descriptor => exact absurd (.io descriptor) (lossless _ .whole)

/-- Only a hash whose keys are symbols can come back equal, since the hash that comes back has
symbols for keys and as many of them. -/
theorem symbols_of_eq {entries : List (HashKey × Object)}
    (same : eq (ofJson (hash entries).toJson) (hash entries) = true) :
    ∀ entry ∈ entries, entry.1.isSymbol = true := by
  have names := Dictionary.nodup_keys_ofPairs (toJsonEntries entries)
  rw [toJson, ofJson_object names] at same
  generalize Dictionary.ofPairs (toJsonEntries entries) = written at names same
  have keys := map_fst_ofJsonEntries written
  have nodup : ((ofJsonEntries written).map Prod.fst).Nodup := by
    rw [keys]
    exact names.map fun _ _ alike => HashKey.symbol.inj alike
  have every := perm_keys_of_eq nodup same
  intro entry member
  have held := every.mem_iff.2 (List.mem_map_of_mem member)
  rw [keys] at held
  obtain ⟨name, -, symbol⟩ := List.mem_map.1 held
  rw [← symbol]
  rfl

private theorem not_lossy_of_eq {o : Object}
    (same : eq (ofJson o.toJson) o = true) : ¬ Lossy o := by
  intro lossy
  cases lossy with
  | float d unbounded =>
    rw [toJson, ofDouble_of_not_isFinite unbounded] at same
    cases same
  | string s long colon =>
    obtain ⟨c, name, spelled⟩ : ∃ c name, s.toList = ':' :: c :: name := by
      rw [← String.length_toList] at long
      match characters : s.toList with
      | [] => rw [characters] at colon; cases colon
      | [_] => rw [characters] at long; exact absurd long (Nat.lt_irrefl 1)
      | first :: c :: name =>
        rw [characters] at colon
        obtain rfl : first = ':' := Option.some.inj colon
        exact ⟨c, name, rfl⟩
    simp only [toJson, ofJson, ofText, spelled] at same
    cases same
  | symbol => cases same
  | key entry member other =>
    exact Bool.false_ne_true (other.symm.trans (symbols_of_eq same entry member))
  | proc name => cases same
  | io descriptor => cases same

private theorem lossless_of_eq (o : Object) (distinct : o.distinctKeys = true)
    (same : eq (ofJson o.toJson) o = true) : ∀ part, Within part o → ¬ Lossy part := by
  have whole := not_lossy_of_eq same
  induction o using nestedInduction with
  | array items ih =>
    rw [distinctKeys_array] at distinct
    rw [toJson, ofJson, eq_array_iff, toJsonItems_eq_map, ofJsonItems_eq_map, List.map_map,
      List.forall₂_map_left_iff, List.forall₂_same] at same
    rw [forall_within_array]
    refine ⟨whole, fun item member => ?_⟩
    exact ih item member (distinct item member) (same item member)
      (not_lossy_of_eq (same item member))
  | hash entries ih =>
    rw [distinctKeys_hash] at distinct
    rw [ofJson_toJson_hash distinct.1 (symbols_of_eq same), eq_hash_iff] at same
    rw [forall_within_hash]
    refine ⟨whole, fun entry member => ?_⟩
    obtain ⟨value, reached, equal⟩ := same.2 _ (List.mem_map_of_mem member)
    rw [Dictionary.find?_of_mem distinct.1 member] at reached
    obtain rfl := Option.some.inj reached
    exact ih entry member (distinct.2 entry member) equal (not_lossy_of_eq equal)
  | _ =>
    intro part inside
    cases inside
    exact whole

/-- A value comes back from JSON equal to itself exactly if it holds, at no depth, a float that is
not finite, a string that reads as a symbol, a symbol without a name, a hash with a key that is no
symbol, a block or a stream. -/
theorem eq_ofJson_toJson_iff (value : Value) :
    (Value.ofDocument value.toDocument).eq value = true ↔
      ∀ part, Within part value.object → ¬ Lossy part := by
  constructor
  · exact lossless_of_eq value.object value.distinctKeys
  · intro lossless
    have same : Value.ofDocument value.toDocument = value :=
      Value.ext (ofJson_toJson_of_lossless value.object value.distinctKeys lossless)
    rw [same]
    refine eq_self value.object value.distinctKeys fun part inside d number => ?_
    have finite : d.isFinite = true := by
      rw [← Bool.not_eq_false]
      exact fun unbounded => lossless part inside (number ▸ .float d unbounded)
    exact Double.not_isNan_of_isFinite finite

theorem eq_ofJson_toJson_iff_keys_alike :
    let value : Value := ⟨.array [.hash [(.nil, .int 1), (.string "nil", .int 2)]], by decide⟩
    (Value.ofDocument value.toDocument).eq value = false := by
  intro value
  rw [← Bool.not_eq_true, eq_ofJson_toJson_iff value]
  intro lossless
  exact lossless _ (.item (List.mem_singleton.2 rfl) .whole)
    (.key (.nil, .int 1) (List.mem_cons_self ..) rfl)

private theorem lossless_ofJson (value : Json) (proper : value.wellFormed = true) :
    ∀ part, Within part (ofJson value) → ¬ Lossy part := by
  induction value using Json.nestedInduction with
  | null => exact (forall_within_leaf rfl).2 (by rintro ⟨⟩)
  | boolean b => exact (forall_within_leaf rfl).2 (by rintro ⟨⟩)
  | number n => exact (forall_within_leaf (isLeaf_ofNumber n)).2 (not_lossy_ofNumber proper)
  | string s => exact (forall_within_leaf (isLeaf_ofText s)).2 (not_lossy_ofText s)
  | array items ih =>
    have each := (wellFormedItems_iff items).1 proper
    rw [ofJson, ofJsonItems_eq_map, forall_within_array, List.forall_mem_map]
    exact ⟨by rintro ⟨⟩, fun item member => ih item member (each item member)⟩
  | object entries ih =>
    obtain ⟨distinct, each⟩ := (wellFormedEntries_iff entries).1 proper
    rw [ofJson_object distinct, forall_within_hash, ofJsonEntries_eq_map, List.forall_mem_map]
    refine ⟨fun lossy => ?_, fun entry member => ih entry member (each entry member)⟩
    cases lossy with
    | key entry member other =>
      obtain ⟨_, -, rfl⟩ := List.mem_map.1 member
      cases other

/-- A JSON value comes back from its trip as it was, but for whole numbers beyond sixty-four bits
with a sign: those come back as the nearest doubles. A second trip changes nothing, because what is
read from JSON holds nothing lossy. -/
theorem ofJson_survives (document : Document) :
    let value := Value.ofDocument document
    value.toDocument.json = document.json.rounded ∧
    (∀ n, Number.fits n = true →
      ∃ nearest : (Double.ofInt n).Nearest n, (Number.integer n).rounded =
        if leastSigned ≤ n ∧ n ≤ greatestSigned then .number (.integer n)
        else .number (.double (Double.ofInt n) nearest.finite)) ∧
    (document.json.signed = true → value.toDocument = document) ∧
    Value.ofDocument value.toDocument = value ∧
    ∀ part, Within part value.object → ¬ Lossy part := by
  intro value
  have rounded : value.toDocument.json = document.json.rounded :=
    toJson_ofJson document.json document.wellFormed
  have lossless := lossless_ofJson document.json document.wellFormed
  refine ⟨rounded, fun n fits => rounded_integer fits, fun signed => ?_, ?_, lossless⟩
  · apply Document.ext
    rw [rounded, rounded_of_signed document.json signed]
  · apply Value.ext
    exact ofJson_toJson_of_lossless value.object value.distinctKeys lossless

theorem ofJson_survives_nested :
    let document : Document := ⟨.object [("b", .array [.number (.integer 18446744073709551615),
      .string ":x", .string ":", .string "::x"]), ("a", .number (.double ⟨0x3ff0000000000000⟩ rfl))],
      by decide⟩
    let value := Value.ofDocument document
    value.toDocument.json = .object [("b", .array [.number (.double ⟨0x43f0000000000000⟩ rfl),
        .string ":x", .string ":", .string "::x"]),
        ("a", .number (.double ⟨0x3ff0000000000000⟩ rfl))] ∧
      Value.ofDocument value.toDocument = value := by
  intro document value
  obtain ⟨rounded, -, -, again, -⟩ := ofJson_survives document
  exact ⟨rounded.trans rfl, again⟩

end Object

end NativeCall
