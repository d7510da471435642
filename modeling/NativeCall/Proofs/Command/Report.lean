import NativeCall.Object.Value
import NativeCall.Proofs.Binding.KeywordSlot
import NativeCall.Proofs.Command.Phases
import NativeCall.Proofs.Format.Canonical
import NativeCall.Proofs.Json.Documents

/-!
What the report of a scan tells about the JSON that the arguments were given in. Slots are cut from
the arguments without a look at their values, so that cutting and reading from JSON can change
places: what is shown in the slots is cut from the JSON itself, which comes through values
unchanged. `run_report` says so of every command line that ends with a report.
-/

set_option autoImplicit false
set_option relaxedAutoImplicit false

namespace NativeCall

variable {V W : Type}

namespace Filling

def map (f : V → W) : Filling V → Filling W
  | given v => given (f v)
  | empty => empty
  | collected vs => collected (vs.map f)
  | block => block

private theorem map_ofOption (f : V → W) (v : Option V) :
    (ofOption v).map f = ofOption (v.map f) := by
  cases v <;> rfl

end Filling

namespace Format

/-- Slots are filled without regard to the values. -/
theorem slicing_map (f : V → W) (format : Format) (args : List V) (argc : Nat) :
    format.slicing (args.map f) argc =
      (format.slicing args argc).map fun slot => (slot.1, slot.2.map f) := by
  have slice (start stop : Nat) :
      (args.map f).extract start stop = (args.extract start stop).map f := by
    simp only [List.extract_eq_take_drop, List.map_drop, List.map_take]
  simp only [slicing, positional, slice, List.getElem?_map, ← Filling.map_ofOption,
    List.map_append, List.map_map, List.map_replicate]
  cases format.rest <;> cases format.keywords <;> cases format.block <;> rfl

private theorem filling_of_keywords {format : Format} {args : List V} {argc : Nat}
    {filling : Filling V} (found : (.keywords, filling) ∈ format.slicing args argc) :
    filling = .ofOption args[argc]? := by
  simp only [slicing, positional, List.mem_append, List.mem_map, List.mem_replicate,
    List.mem_ite_nil_right, List.mem_singleton, Prod.mk.injEq, reduceCtorEq, false_and, and_false,
    exists_false, or_false, false_or, true_and] at found
  exact found.2

end Format

namespace Filling

def object (block : Option Object) : Filling Object → Object
  | given v => v
  | empty => .nil
  | collected vs => .array vs
  | .block => block.getD .nil

/-- What a report shows in a slot. -/
def shown (passed : Bool) : Filling Json → Json
  | given v => v
  | empty => .null
  | collected vs => .array vs
  | block => if passed then .object [("$proc", .string "block")] else .null

theorem foldlM_append (block : Option Object) (items start : List Object) :
    ((items.foldlM (Object.host block).append (.array start)).run ()).1 =
      .array (start ++ items) := by
  induction items generalizing start with
  | nil => rw [List.append_nil]; rfl
  | cons item items ih =>
    rw [List.foldlM_cons, run_seq]
    have first : ((Object.host block).append (.array start) item).run () =
        (.array (start ++ [item]), ()) := rfl
    rw [first, ih, List.append_assoc, List.singleton_append]

private theorem value_host (block : Option Object) (filling : Filling Object) :
    ((filling.value (Object.host block)).run ()).1 = filling.object block := by
  cases filling with
  | given v => rfl
  | empty => rfl
  | collected vs => exact foldlM_append block vs []
  | block => cases block <;> rfl

private theorem toJson_object (passed : Bool) (filling : Filling Object) :
    (filling.object (Command.passedBlock passed)).toJson =
      (filling.map Object.toJson).shown passed := by
  cases filling with
  | given v => rfl
  | empty => rfl
  | collected vs => rw [object, Object.toJson, Object.toJsonItems_eq_map, map, shown]
  | block => cases passed <;> rfl

end Filling

namespace Binding

open Object in
private theorem slots_of_ok {block : Option Object} {format : Format} {args : List Object}
    {output : Output Object}
    (bound : ((bindArgs (host block) format args).run ()).1.result = .ok output) :
    output.slots = ((format.slicing args output.argc).map
      fun slot => (slot.1, slot.2.object block)).take maxOutputSlots := by
  obtain ⟨enough, fits⟩ := (ok_iff _ _ _ _).1 ⟨output, bound⟩
  have whole := outcome_eq (host_steady block) format args () ()
  rw [if_neg (Nat.not_lt.2 enough), if_pos ((fitsPositionally_iff _ _).2 fits)] at whole
  rw [result_bindArgs, show ((bindAll (host block) format args).run ()).1 = _ from whole] at bound
  obtain rfl := Except.ok.inj bound
  simp only [Filling.value_host]
  rfl

end Binding

namespace Object

open Json

private theorem isSymbol_of_mem_ofJsonEntries {entries : List (String × Json)}
    {entry : HashKey × Object}
    (found : entry ∈ ofJsonEntries entries) : entry.1.isSymbol = true := by
  have listed : entry.1 ∈ (ofJsonEntries entries).map Prod.fst := List.mem_map_of_mem found
  rw [map_fst_ofJsonEntries] at listed
  obtain ⟨key, -, same⟩ := List.mem_map.1 listed
  rw [← same]
  rfl

/-- Every object of JSON can stand for keywords, since its keys become symbols. -/
theorem isKeywordHash_ofJson (entries : List (String × Json)) :
    (ofJson (.object entries)).isKeywordHash true = true :=
  List.all_eq_true.2 fun _ found =>
    isSymbol_of_mem_ofJsonEntries (Dictionary.mem_of_mem_ofPairs found)

end Object

namespace Binding

open Object in
private theorem isPending_of_object (block : Option Object) {format : Format} {items : List Json}
    {entries : List (String × Json)} (accepts : format.keywords = true)
    (more : format.minArgs < items.length) (ending : items.getLast? = some (.object entries)) :
    isPending (host block) format (ofJsonItems items) () = true := by
  rw [isPending_iff (host_steady block) format _ () () accepts]
  rw [ofJsonItems_eq_map, List.length_map]
  refine ⟨more, ofJson (.object entries), ?_, ?_⟩
  · rw [List.getLast?_map, ending]
    rfl
  · exact isKeywordHash_ofJson entries

end Binding

def Json.field? (key : String) : Json → Option Json
  | object entries => Dictionary.find? key entries
  | _ => none

namespace Command

/-- A report that tells what a scan does with the items of a JSON array, of which so many count as
positional. -/
structure FaithfulReport (shape : Format) (passed : Bool) (items : List Json) (report : Json)
    (argc : Nat) (slots : List Json) : Prop where
  showsShape : report.field? "shape" = some shape.toJson
  readsShape : ∀ document, report.field? "shape" = some document →
    Format.ofJson document.compactText = .ok shape
  showsFormat : ∃ text, report.field? "format" = some (.string text) ∧ Format.parse text = .ok shape
  showsLeast : report.field? "min_args" = some (.ofNat shape.minArgs)
  showsMost : report.field? "max_args" = some (.ofOption .ofNat shape.maxArgs)
  showsCount : report.field? "argc" = some (.ofNat argc)
  showsSlots : report.field? "slots" = some (.array slots)
  least : shape.minArgs ≤ argc
  most : ∀ max, shape.maxArgs = some max → argc ≤ max
  length : slots.length = min 10 shape.slotCount
  kinds : slots.map (Json.field? "kind") =
    (shape.slots.take 10).map fun kind => some (.string kind.name)
  /-- The slots show what is cut from the items, whatever the items are. -/
  values : slots.map (Json.field? "value") =
    ((shape.slicing items argc).take 10).map fun slot => some (slot.2.shown passed)
  /-- No item that counts as positional is left out or taken up twice. -/
  positional : takenUp (shape.slicing items argc) = items.take argc
  ending : items.length = argc ∨ shape.keywords = true ∧ items.length = argc + 1
  /-- An object at the end that no mandatory slot needs is the keyword hash. -/
  keywords : shape.keywords = true → shape.minArgs < items.length →
    ∀ entries, items.getLast? = some (.object entries) → items.length = argc + 1 ∧
      ∀ i : Nat, i < 10 → shape.slots[i]? = some .keywords →
        slots[i]?.bind (Json.field? "value") = some (.object entries)

section

variable {text : String} {shape : Format} {passed : Bool} {items : List Json}
  {output : Output Object}

private theorem map_toJson_ofJsonItems (proper : Json.wellFormedItems items = true)
    (small : Json.signedItems items = true) :
    (Object.ofJsonItems items).map Object.toJson = items := by
  rw [← Object.toJsonItems_eq_map, Object.toJsonItems_ofJsonItems items proper,
    Json.roundedItems_of_signed items small]

private theorem shown_slots (proper : Json.wellFormedItems items = true)
    (small : Json.signedItems items = true)
    (bound : ((bindArgs (Object.host (passedBlock passed)) shape
      (Object.ofJsonItems items)).run ()).1.result = .ok output) :
    (output.slots.map fun slot => (slot.1, slot.2.toJson)) =
      ((shape.slicing items output.argc).take 10).map
        fun slot => (slot.1, slot.2.shown passed) := by
  rw [Binding.slots_of_ok bound, ← List.map_take, List.map_map]
  -- cutting the values and writing them is writing the values and cutting the JSON
  have cut := shape.slicing_map Object.toJson (Object.ofJsonItems items) output.argc
  rw [map_toJson_ofJsonItems proper small] at cut
  rw [cut, ← List.map_take, List.map_map]
  refine List.map_congr_left fun slot _ => ?_
  simp only [Function.comp_apply, Filling.toJson_object]

private theorem shown_values (proper : Json.wellFormedItems items = true)
    (small : Json.signedItems items = true)
    (bound : ((bindArgs (Object.host (passedBlock passed)) shape
      (Object.ofJsonItems items)).run ()).1.result = .ok output) :
    (output.slots.map fun (kind, value) => slotJson kind value).map (Json.field? "value") =
      ((shape.slicing items output.argc).take 10).map fun slot => some (slot.2.shown passed) := by
  have second := congrArg (List.map fun slot => some slot.2) (shown_slots proper small bound)
  rw [List.map_map, List.map_map] at second
  rw [List.map_map]
  exact second

private theorem shown_kinds (proper : Json.wellFormedItems items = true)
    (small : Json.signedItems items = true)
    (bound : ((bindArgs (Object.host (passedBlock passed)) shape
      (Object.ofJsonItems items)).run ()).1.result = .ok output)
    (kinds : (shape.slicing items output.argc).map Prod.fst = shape.slots) :
    (output.slots.map fun (kind, value) => slotJson kind value).map (Json.field? "kind") =
      (shape.slots.take 10).map fun kind => some (.string kind.name) := by
  have first := congrArg (List.map fun slot => some (Json.string slot.1.name))
    (shown_slots proper small bound)
  rw [List.map_map, List.map_map] at first
  rw [List.map_map, ← kinds, ← List.map_take, List.map_map]
  exact first

/-- The keyword slot shows the item past the positional ones. -/
private theorem shown_keywords {argc : Nat} {slots : List Json} {v : Json}
    (kinds : (shape.slicing items argc).map Prod.fst = shape.slots)
    (values : slots.map (Json.field? "value") =
      ((shape.slicing items argc).take 10).map fun slot => some (slot.2.shown passed))
    (last : items[argc]? = some v) {i : Nat} (stored : i < 10)
    (found : shape.slots[i]? = some .keywords) : slots[i]?.bind (Json.field? "value") = some v := by
  rw [← kinds, List.getElem?_map] at found
  obtain ⟨⟨kind, filling⟩, cut, rfl⟩ := Option.map_eq_some_iff.1 found
  have filled : filling = .given v := by
    rw [Format.filling_of_keywords (List.mem_of_getElem? cut), last]
    rfl
  have shown : (slots.map (Json.field? "value"))[i]? = some (some v) := by
    rw [values, List.getElem?_map, List.getElem?_take_of_lt stored, cut, filled]
    rfl
  rw [List.getElem?_map] at shown
  obtain ⟨slot, held, value⟩ := Option.map_eq_some_iff.1 shown
  rw [held]
  exact value

private theorem faithful_report (known : Format.parse text = .ok shape)
    (proper : Json.wellFormedItems items = true) (small : Json.signedItems items = true)
    (bound : ((bindArgs (Object.host (passedBlock passed)) shape
      (Object.ofJsonItems items)).run ()).1.result = .ok output) :
    FaithfulReport shape passed items (reportJson shape output) output.argc
      (output.slots.map fun (kind, value) => slotJson kind value) := by
  have count : (Object.ofJsonItems items).length = items.length := by
    rw [Object.ofJsonItems_eq_map, List.length_map]
  obtain ⟨argc, least, most⟩ := Binding.of_ok _ _ _ _ bound
  have fits := ((Binding.ok_iff _ _ _ _).1 ⟨output, bound⟩).2
  have passes := Binding.length_eq (Object.host (passedBlock passed)) shape
    (Object.ofJsonItems items) ()
  rw [← argc] at fits
  rw [← argc, count] at passes
  have within : output.argc ≤ items.length := by omega
  have kinds := shape.map_fst_slicing items output.argc least within
  have values := shown_values proper small bound
  have names := shown_kinds proper small bound kinds
  exact {
    showsShape := rfl
    readsShape := by
      intro document shown
      obtain rfl := Option.some.inj shown
      exact (Json.survives shape.whole_toJson shape.read_toJson).1
    showsFormat := ⟨shape.render, rfl, Format.parse_render known⟩
    showsLeast := rfl
    showsMost := rfl
    showsCount := rfl
    showsSlots := rfl
    least := least
    most := most
    length := by
      rw [← List.length_map (Json.field? "kind"), names, List.length_map, List.length_take,
        Format.length_slots]
    kinds := names
    values := values
    positional := shape.takenUp_slicing items output.argc least fits
    ending := by
      cases pending : Binding.isPending (Object.host (passedBlock passed)) shape
        (Object.ofJsonItems items) () with
      | false => exact .inl (by rw [passes, pending]; rfl)
      | true =>
        exact .inr ⟨(Binding.of_isPending _ _ _ _ pending).1, by rw [passes, pending]; rfl⟩
    keywords := by
      intro accepts more entries ending
      have pending := Binding.isPending_of_object (passedBlock passed) accepts more ending
      rw [pending, Bool.toNat_true] at passes
      refine ⟨passes, fun i stored found => shown_keywords kinds values ?_ stored found⟩
      rw [← ending, List.getLast?_eq_getElem?, passes, Nat.add_sub_cancel] }

end

theorem Given.wellFormed {arguments : Option String} {items : List Json}
    (given : Given arguments items) : Json.wellFormedItems items = true := by
  cases given with
  | nothing => rfl
  | @array _ _ proper _ => exact proper

private theorem wellFormedItems_map (documents : List Json.Document) :
    Json.wellFormedItems (documents.map (·.json)) = true := by
  rw [Json.wellFormedItems_iff, List.forall_mem_map]
  exact fun document _ => document.wellFormed

private theorem map_ofDocument (documents : List Json.Document) :
    (documents.map fun document => (Value.ofDocument document).object) =
      Object.ofJsonItems (documents.map (·.json)) := by
  rw [Object.ofJsonItems_eq_map, List.map_map]
  rfl

/-- The report of a scan is faithful to the documents that its arguments are given as, as long as
their whole numbers have at most sixty-four bits with a sign. A command line that gets to the end of
a scan prints such a report of the items of its JSON array, an item or entry a line. -/
theorem run_report (text : String) (passed : Bool) :
    (∀ (τ : Type) [Tracer τ] (tracer : τ) (capacity : Nat) (level : Verbosity) (report : Json)
      (documents : List Json.Document), Json.signedItems (documents.map (·.json)) = true →
      (inspectScan (.ofCapacity tracer capacity) (passedBlock passed) text
        (documents.map fun document => (Value.ofDocument document).object)
        { level }).result = .ok report →
      ∃ shape argc slots, Format.parse text = .ok shape ∧
        FaithfulReport shape passed (documents.map (·.json)) report argc slots) ∧
    (∀ (words : List String) (around : Surroundings) (options : Options) (items : List Json),
      Json.signedItems items = true →
      Options.parse words = .ok options → options.global = none → options.format = some text →
      options.block = passed → Given options.arguments items → (run words around).code = 0 →
      ∃ shape report argc slots, Format.parse text = .ok shape ∧
        (run words around).stdout = report.prettyText ++ "\n" ∧
        report.PrintedAs report.prettyText ∧
        FaithfulReport shape passed items report argc slots) := by
  constructor
  · intro τ _ tracer capacity level report documents small done
    rw [map_ofDocument] at done
    have proper := wellFormedItems_map documents
    generalize documents.map (·.json) = items at small done proper ⊢
    obtain ⟨memo, scanned⟩ := inspectScan_eq (passedBlock passed) text (Object.ofJsonItems items)
      tracer capacity { level }
    rw [scanned] at done
    rcases reported_cases (passedBlock passed) text (Object.ofJsonItems items) level with
      ⟨e, -, failed, -⟩ | ⟨shape, known, ⟨e, -, failed, -⟩ | ⟨output, bound, reported, -⟩⟩
    · cases done.symm.trans failed
    · cases done.symm.trans failed
    · obtain rfl := Except.ok.inj (done.symm.trans reported)
      exact ⟨shape, _, _, known, faithful_report known proper small bound⟩
  · rintro words around options items small read scans written rfl given done
    have ends := run_ends words around
    generalize run words around = outcome at ends done ⊢
    cases ends with
    | failed first => exact absurd done Nat.one_ne_zero
    | answered answers clear =>
      cases answers with
      | global read' loaded asked =>
        obtain rfl := Except.ok.inj (read.symm.trans read')
        cases scans.symm.trans asked
      | scan read' loaded _ written' given' known bound =>
        obtain rfl := Except.ok.inj (read.symm.trans read')
        obtain rfl := Option.some.inj (written.symm.trans written')
        obtain rfl := given.unique given'
        exact ⟨_, _, _, _, known, rfl, Json.printedAs_prettyText _,
          faithful_report known given.wellFormed small bound⟩

theorem run_report_nested :
    let words := ["1*:&", "[\":a\",[1,\x7b\"b\":null\x7d],\x7b\"k\":\":v\"\x7d]", "--block"]
    let around : Surroundings :=
      ⟨fun _ => .error (.system .noEntry), fun _ => "", .placeless "", .placeless ""⟩
    let last : Json := .object [("k", .string ":v")]
    let items := [.string ":a", .array [.ofInt 1, .object [("b", .null)]], last]
    Json.signedItems items = true ∧ (run words around).code = 0 ∧
    ∃ shape report argc slots, Format.parse "1*:&" = .ok shape ∧
      (run words around).stdout = report.prettyText ++ "\n" ∧
      report.PrintedAs report.prettyText ∧ FaithfulReport shape true items report argc slots := by
  intro words around last items
  have read : Options.parse words =
      .ok { format := some "1*:&", arguments := words[1]?, block := true } := by decide
  have tokens : Json.Token.ofText "[\":a\",[1,\x7b\"b\":null\x7d],\x7b\"k\":\":v\"\x7d]" =
      [.openArray, .string (some ":a"), .comma, .openArray, .number (some (.integer 1)), .comma,
        .openObject, .string (some "b"), .colon, .null, .closeObject, .closeArray, .comma,
        .openObject, .string (some "k"), .colon, .string (some ":v"), .closeObject,
        .closeArray] := by decide +kernel
  have given : Given words[1]? items := .array (Json.parse_of_readAny (by
    unfold Json.readText Json.Draft.ofText
    rw [tokens]
    rfl))
  have done : (run words around).code = 0 := by decide +kernel
  exact ⟨rfl, done,
    (run_report "1*:&" true).2 words around _ items rfl read rfl rfl rfl given done⟩

end Command

end NativeCall
