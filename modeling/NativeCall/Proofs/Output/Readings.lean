import NativeCall.Proofs.Binding.Loops

/-!
The ways to read what a scan has bound: by position, by kind, as pairs, as a list of fixed length,
and written into destinations. Each of them is put in terms of the first, and then `scanInto_readings`
says of every scan that they agree, that the two rows which the loops fill are read alike, and that
a scan that fails writes nothing.
-/

set_option autoImplicit false
set_option relaxedAutoImplicit false

namespace NativeCall

variable {σ V : Type}

namespace Output

variable (output : Output V)

private theorem length_values : output.values.length = output.size :=
  List.length_map ..

private theorem length_kinds : output.kinds.length = output.size :=
  List.length_map ..

private theorem isSome_get? (i : Nat) : (output.get? i).isSome = true ↔ i < output.size := by
  rw [get?, isSome_getElem?, length_values]

private theorem isSome_kind? (i : Nat) : (output.kind? i).isSome = true ↔ i < output.size := by
  rw [kind?, isSome_getElem?, length_kinds]

private theorem getElem?_slots (i : Nat) :
    output.slots[i]? = (output.kind? i).bind fun kind => (output.get? i).map (kind, ·) := by
  simp only [kind?, get?, kinds, values, List.getElem?_map]
  cases output.slots[i]? with
  | none => rfl
  | some slot => rfl

private theorem length_spread (n : Nat) (values : List V) : (spread n values).length = n := by
  induction n generalizing values with
  | zero => rfl
  | succ n ih =>
    cases values with
    | nil => rw [spread, List.length_cons, ih]
    | cons value values => rw [spread, List.length_cons, ih]

/-- The first slot of a kind is the one that no other of the kind comes before. -/
theorem firstOf_eq_get? {kind : SlotKind} {i : Nat} (found : output.kind? i = some kind)
    (first : ∀ j, j < i → output.kind? j ≠ some kind) : output.firstOf kind = output.get? i := by
  simp only [kind?, kinds, List.getElem?_map, ne_eq, Option.map_eq_some_iff] at found first
  obtain ⟨slot, here, same⟩ := found
  have earliest : output.slots.find? (·.1 == kind) = some slot := by
    rw [List.find?_eq_some_iff_getElem]
    obtain ⟨bound, held⟩ := List.getElem?_eq_some_iff.1 here
    refine ⟨beq_iff_eq.2 same, i, bound, held, ?_⟩
    intro j before
    rw [Bool.not_eq_true', beq_eq_false_iff_ne]
    intro equal
    exact first j before ⟨output.slots[j], List.getElem?_eq_getElem _, equal⟩
  rw [firstOf, earliest, get?, values, List.getElem?_map, here]

private theorem firstOf_eq_none_iff (kind : SlotKind) :
    output.firstOf kind = none ↔ kind ∉ output.kinds := by
  rw [firstOf, Option.map_eq_none_iff, List.find?_eq_none, kinds, List.mem_map]
  constructor
  · rintro absent ⟨slot, stored, rfl⟩
    exact absent slot stored (beq_self_eq_true _)
  · intro absent slot stored same
    exact absent ⟨slot, stored, beq_iff_eq.1 same⟩

/-- The ways to read an output, each in terms of the kind and the value at a position. -/
structure Agrees : Prop where
  values : ∀ i, (output.get? i).isSome = true ↔ i < output.size
  kinds : ∀ i, (output.kind? i).isSome = true ↔ i < output.size
  pairs : ∀ i, output.slots[i]? =
    (output.kind? i).bind fun kind => (output.get? i).map (kind, ·)
  fixed : ∀ n, (output.toFixed n).length = n ∧
    ∀ i, i < n → (output.toFixed n)[i]? = some (output.get? i)
  first : ∀ kind i, output.kind? i = some kind → (∀ j, j < i → output.kind? j ≠ some kind) →
    output.firstOf kind = output.get? i
  absent : ∀ kind, output.firstOf kind = none ↔ kind ∉ output.kinds

private theorem agrees : output.Agrees where
  values := output.isSome_get?
  kinds := output.isSome_kind?
  pairs := output.getElem?_slots
  fixed n := ⟨length_spread n output.values, fun i => getElem?_spread n i output.values⟩
  first _ _ := output.firstOf_eq_get?
  absent := output.firstOf_eq_none_iff

private theorem getElem?_put (destinations : Destinations V) (values : List V) (i : Nat) :
    (put destinations values)[i]? =
      destinations[i]?.map fun destination => destination.map fun held => values[i]?.getD held := by
  induction destinations generalizing values i with
  | nil => rfl
  | cons destination destinations ih =>
    cases values with
    | nil =>
      -- past the values nothing is written
      have kept (destination : Option V) :
          (destination.map fun held => ([] : List V)[i]?.getD held) = destination := by
        cases destination <;> rfl
      simp only [put, kept, Option.map_id']
    | cons value values =>
      cases i with
      | zero => cases destination <;> rfl
      | succ i =>
        have others := ih values i
        cases destination with
        | none => exact others
        | some held => exact others

end Output

namespace Rows

variable (rows : Rows V)

/-- The value of the first slot of a kind. Its place is found in one row and read in the other,
which may be too short to answer. -/
def firstOf (kind : SlotKind) : Option (Option V) :=
  match rows.kinds.findIdx? (· == kind) with
  | some i => rows.values[i]?.map some
  | none => some none

variable {rows}

private theorem values_output (same : rows.kinds.length = rows.values.length) :
    rows.output.values = rows.values :=
  List.map_snd_zip (Nat.le_of_eq same.symm)

private theorem kinds_output (same : rows.kinds.length = rows.values.length) :
    rows.output.kinds = rows.kinds :=
  List.map_fst_zip (Nat.le_of_eq same)

private theorem firstOf_output (same : rows.kinds.length = rows.values.length) (kind : SlotKind) :
    rows.firstOf kind = some (rows.output.firstOf kind) := by
  obtain ⟨kinds, values, argc⟩ := rows
  simp only [firstOf, output, Output.firstOf]
  induction kinds generalizing values with
  | nil => rfl
  | cons other kinds ih =>
    cases values with
    | nil => cases same
    | cons value values =>
      have others := ih values (Nat.succ.inj same)
      rw [List.findIdx?_cons, List.zip_cons_cons, List.find?_cons]
      cases other == kind with
      | true => rfl
      | false =>
        rw [← others]
        cases kinds.findIdx? (· == kind) with
        | none => rfl
        | some i => rfl

end Rows

theorem scan_eq (host : Host σ V) (text : String) (args : List V) :
    scan host text args = match Format.parse text with
      | .ok format => Binding.result <$> bindArgs host format args
      | .error e => pure (.error e) := by
  have anew : (Scanner.plain Silent.mk).Faithful := fun memo held => by cases held
  rw [← anew.fst_scan, anew.scan_eq]
  cases Format.parse text with
  | ok format => exact Scanner.fst_bind ..
  | error e => rfl

variable (host : Host σ V)

private theorem length_rows (format : Format) (args : List V) (s : σ) {looped : Looped V} {t : σ}
    {rows : Rows V} (looping : bindInLoops host format args s = some (looped, t))
    (filled : looped.result = .ok rows) : rows.kinds.length = rows.values.length := by
  by_cases few : args.length < format.minArgs
  · rw [bindInLoops_few host format args s few] at looping
    cases looping
    cases filled
  · have made := length_planned host format args s
    rw [bindInLoops_eq host format args s (Nat.not_lt.1 few)] at looping
    cases looping
    dsimp only at filled
    split at filled
    · cases filled
    · cases filled
      rw [List.length_take, List.length_take, made]

private theorem rows_of_scan (text : String) (args : List V) (s : σ) {output : Output V}
    (scanned : ((scan host text args).run s).1 = .ok output) :
    ∃ format looped rows, Format.parse text = .ok format ∧
      bindInLoops host format args s = some (looped, ((scan host text args).run s).2) ∧
      looped.result = .ok rows ∧ rows.output = output := by
  rw [scan_eq] at scanned ⊢
  cases read : Format.parse text with
  | error e =>
    rw [read] at scanned
    cases scanned
  | ok format =>
    rw [read] at scanned
    obtain ⟨⟨looped, t⟩, looping, agree⟩ :=
      Option.map_eq_some_iff.1 (bindArgs_eq_bindInLoops host format args s).symm
    rw [run_map, ← agree] at scanned ⊢
    have result : looped.result.map Rows.output = .ok output := scanned
    cases filled : looped.result with
    | error e =>
      rw [filled] at result
      cases result
    | ok rows =>
      rw [filled] at result
      exact ⟨format, looped, rows, rfl, looping, filled, Except.ok.inj result⟩

section Into

variable {text : String} {args : List V} {s : σ} (destinations : Output.Destinations V)

private theorem scanInto_of_error {e : ScanError}
    (failed : ((scan host text args).run s).1 = .error e) :
    (scanInto host text args destinations).run s =
      ((.error e, destinations), ((scan host text args).run s).2) := by
  rw [scanInto, run_seq, failed]
  rfl

private theorem scanInto_of_ok {output : Output V}
    (scanned : ((scan host text args).run s).1 = .ok output) :
    (scanInto host text args destinations).run s =
      ((.ok output.argc, output.writeInto destinations), ((scan host text args).run s).2) := by
  rw [scanInto, run_seq, scanned]
  rfl

end Into

/-- However a scan is read, it says the same: by position, by kind, as pairs, as a list of fixed
length, from the rows that the loops fill, and from the destinations that it is written into. A scan
that fails leaves every destination as it was. -/
theorem scanInto_readings (text : String) (args : List V) (destinations : Output.Destinations V)
    (s : σ) :
    let scanned := (scan host text args).run s
    let written := (scanInto host text args destinations).run s
    written.2 = scanned.2 ∧
    (∀ e, scanned.1 = .error e → written.1 = (.error e, destinations)) ∧
    ∀ output, scanned.1 = .ok output →
      written.1.1 = .ok output.argc ∧
      (∀ i : Nat, written.1.2[i]? = destinations[i]?.map fun destination =>
        destination.map fun held => (output.get? i).getD held) ∧
      output.Agrees ∧
      ∃ format looped rows, Format.parse text = .ok format ∧
        bindInLoops host format args s = some (looped, scanned.2) ∧ looped.result = .ok rows ∧
        rows.output = output ∧ rows.kinds = output.kinds ∧ rows.values = output.values ∧
        ∀ kind, rows.firstOf kind = some (output.firstOf kind) := by
  intro scanned written
  cases verdict : scanned.1 with
  | error e =>
    have unwritten : written = ((.error e, destinations), scanned.2) :=
      scanInto_of_error host destinations verdict
    rw [unwritten]
    refine ⟨rfl, ?_, ?_⟩
    · intro other same
      rw [Except.error.inj same]
    · intro output same
      cases same
  | ok output =>
    have into : written = ((.ok output.argc, output.writeInto destinations), scanned.2) :=
      scanInto_of_ok host destinations verdict
    rw [into]
    refine ⟨rfl, ?_, ?_⟩
    · intro e same
      cases same
    · intro other same
      obtain rfl := Except.ok.inj same
      obtain ⟨format, looped, rows, read, looping, filled, together⟩ :=
        rows_of_scan host text args s verdict
      have length := length_rows host format args s looping filled
      refine ⟨rfl, ?_, output.agrees, format, looped, rows, read, looping, filled, together,
        ?_, ?_, ?_⟩
      · intro i
        exact Output.getElem?_put destinations output.values i
      · rw [← together, Rows.kinds_output length]
      · rw [← together, Rows.values_output length]
      · intro kind
        rw [← together, Rows.firstOf_output length]

example :
    ((scanInto (Object.host none) "2" [.int 1, .int 2]
      [none, some .nil, some (.int 99)]).run ()).1 =
      (.ok 2, [none, some (.int 2), some (.int 99)]) := rfl

end NativeCall
