import NativeCall.Config
import NativeCall.Format.Json
import NativeCall.Proofs.Json.Records
import NativeCall.Proofs.Json.WrittenForms
import NativeCall.ScanError.Json

/-!
The documents of shapes, scan errors, globals and configurations. Each of them is laid out in parts,
and `Json.documents_survive` says that each value is read back from either of its written forms.
-/

set_option autoImplicit false
set_option relaxedAutoImplicit false

namespace NativeCall

open Json (Layout Part)

def Format.layout : Layout Format where
  parts := [
    ⟨"required_leading", false, Json.readByte, leading,
      fun n format => { format with leading := n }⟩,
    ⟨"optional", false, Json.readByte, optional, fun n format => { format with optional := n }⟩,
    ⟨"has_rest", false, Json.readBool, rest, fun b format => { format with rest := b }⟩,
    ⟨"required_trailing", false, Json.readByte, trailing,
      fun n format => { format with trailing := n }⟩,
    ⟨"accepts_keywords", false, Json.readBool, keywords,
      fun b format => { format with keywords := b }⟩,
    ⟨"accepts_block", false, Json.readBool, block, fun b format => { format with block := b }⟩]
  distinct := by decide
  own := by simp
  apart := by simp [Part.apart_iff]
  ext := by
    rintro ⟨⟩ ⟨⟩ same
    simpa using same

theorem Format.fields_eq : record.fields = layout.fields := rfl

def ScanError.formatLayout : Layout String where
  parts := [⟨"format", false, Json.readString, id, fun text _ => text⟩]
  distinct := by decide
  own := by simp
  apart := List.pairwise_singleton _ _
  ext := by simp

private theorem ScanError.formatFields_eq : formatRecord.fields = formatLayout.fields := rfl

def ScanError.countLayout : Layout Count where
  parts := [
    ⟨"actual", false, Json.readSize, Count.actual, fun n count => { count with actual := n }⟩,
    ⟨"min", false, Json.readSize, Count.min, fun n count => { count with min := n }⟩,
    ⟨"max", true, Json.readOption Json.readSize, Count.max,
      fun n count => { count with max := n }⟩]
  distinct := by decide
  own := by simp
  apart := by simp [Part.apart_iff]
  ext := by
    rintro ⟨⟩ ⟨⟩ same
    simpa using same

private theorem ScanError.countFields_eq : countRecord.fields = countLayout.fields := rfl

def Globals.layout : Layout Globals where
  parts := [
    ⟨"stdin_fd", true, Json.readInt32, stdin, fun n globals => { globals with stdin := n }⟩,
    ⟨"stdout_fd", true, Json.readInt32, stdout, fun n globals => { globals with stdout := n }⟩,
    ⟨"stderr_fd", true, Json.readInt32, stderr, fun n globals => { globals with stderr := n }⟩,
    ⟨"field_separator", true, Json.readOption Json.readString, fieldSeparator,
      fun s globals => { globals with fieldSeparator := s }⟩,
    ⟨"output_field_separator", true, Json.readOption Json.readString, outputFieldSeparator,
      fun s globals => { globals with outputFieldSeparator := s }⟩,
    ⟨"record_separator", true, Json.readOption Json.readString, recordSeparator,
      fun s globals => { globals with recordSeparator := s }⟩,
    ⟨"output_record_separator", true, Json.readOption Json.readString, outputRecordSeparator,
      fun s globals => { globals with outputRecordSeparator := s }⟩,
    ⟨"default_record_separator", true, Json.readString, defaultRecordSeparator,
      fun s globals => { globals with defaultRecordSeparator := s }⟩]
  distinct := by decide
  own := by simp
  apart := by simp [Part.apart_iff]
  ext := by
    rintro ⟨⟩ ⟨⟩ same
    simpa using same

theorem Globals.fields_eq : record.fields = layout.fields := rfl

def Config.layout : Layout Config where
  parts := [
    ⟨"verbosity", true, Json.readChoice Verbosity.labels, verbosity,
      fun level config => { config with verbosity := level }⟩,
    ⟨"spec_cache_capacity", true, Json.readSize, capacity,
      fun n config => { config with capacity := n }⟩,
    ⟨"globals", true, Globals.record.read, globals, fun globals config => { config with globals }⟩]
  distinct := by decide
  own := by simp
  apart := by simp [Part.apart_iff]
  ext := by
    rintro ⟨⟩ ⟨⟩ same
    simpa using same

theorem Config.fields_eq : record.fields = layout.fields := rfl

theorem Verbosity.mem_all (level : Verbosity) : level ∈ labels.all := by
  cases level <;> decide

theorem Verbosity.name_injective : Function.Injective labels.name := by
  intro level level' same
  revert same
  cases level <;> cases level' <;> decide

theorem ScanError.Failure.mem_all (failure : Failure) : failure ∈ labels.all := by
  cases failure <;> decide

theorem ScanError.Failure.name_injective : Function.Injective labels.name := by
  intro failure failure' same
  revert same
  cases failure <;> cases failure' <;> decide

namespace Json

private theorem fits_of_bounds {n : Int} (lower : -0x8000000000000000 ≤ n)
    (upper : n ≤ 0xffffffffffffffff) : Number.fits n = true :=
  Bool.and_eq_true_iff.2 ⟨decide_eq_true lower, decide_eq_true upper⟩

private theorem whole_byte (n : UInt8) : (ofNat n.toNat).whole = true := by
  have bound := n.toNat_lt
  exact fits_of_bounds (by omega) (by omega)

private theorem whole_size (n : UInt64) : (ofNat n.toNat).whole = true := by
  have bound := n.toNat_lt
  exact fits_of_bounds (by omega) (by omega)

private theorem whole_int32 (n : Int32) : (ofInt n.toInt).whole = true := by
  have lower := n.le_toInt
  have upper := n.toInt_lt
  exact fits_of_bounds (by omega) (by omega)

private theorem readOption_string (s : Option String) :
    readOption readString (ofOption .string s).draft = .ok s := by
  cases s <;> rfl

private theorem whole_ofOption_string (s : Option String) : (ofOption .string s).whole = true := by
  cases s <;> rfl

def drafts (entries : List (String × Json)) : List (String × Draft) :=
  entries.map fun entry => (entry.1, entry.2.draft)

theorem draft_object (entries : List (String × Json)) :
    draft (.object entries) = .ofEntries (drafts entries) := by
  rw [draft, Draft.ofEntries, drafts, List.map_map]
  congr 1
  induction entries with
  | nil => rfl
  | cons entry entries ih => rw [draftEntries, List.map_cons, ih]; rfl

/-- A record that is written part by part is read back. -/
theorem Record.read_object {α : Type} {record : Record α} {layout : Layout α}
    (laid : record.fields = layout.fields) {entries : List (String × Json)} {a : α}
    (each : List.Forall₂ (fun entry part => entry.1 = part.name ∧
      part.reader entry.2.draft = .ok (part.get a)) entries layout.parts) :
    record.read (draft (.object entries)) = .ok a := by
  have complete := complete_draft (.object entries)
  rw [draft_object] at complete ⊢
  exact read_ofEntries_of_forall₂ laid complete (List.forall₂_map_left_iff.2 each)

end Json

theorem Format.read_toJson (format : Format) : record.read format.toJson.draft = .ok format :=
  Json.Record.read_object fields_eq <|
    .cons ⟨rfl, Json.readByte_eq_ok_iff.2 rfl⟩ <| .cons ⟨rfl, Json.readByte_eq_ok_iff.2 rfl⟩ <|
    .cons ⟨rfl, Json.readBool_eq_ok_iff.2 rfl⟩ <| .cons ⟨rfl, Json.readByte_eq_ok_iff.2 rfl⟩ <|
    .cons ⟨rfl, Json.readBool_eq_ok_iff.2 rfl⟩ <| .cons ⟨rfl, Json.readBool_eq_ok_iff.2 rfl⟩ .nil

theorem Format.whole_toJson (format : Format) : format.toJson.whole = true := by
  simp [toJson, Json.whole, Json.wholeEntries, Json.whole_byte]

namespace ScanError

private theorem read_toJson_invalidFormat (text : String) :
    read (invalidFormat text).toJson.draft = .ok (invalidFormat text) := by
  have inner : formatRecord.read (Json.draft (.object [("format", .string text)])) = .ok text :=
    Json.Record.read_object formatFields_eq (.cons ⟨rfl, Json.readString_eq_ok_iff.2 rfl⟩ .nil)
  refine (Json.readTagged_eq_ok_iff Failure.mem_all Failure.name_injective).2 (.inr ?_)
  exact ⟨.invalidFormat, _, rfl, Json.map_eq_ok_iff.2 ⟨text, inner, rfl⟩⟩

private theorem read_toJson_arity (actual min : UInt64) (max : Option UInt64) :
    read (arity actual.toNat min.toNat (max.map UInt64.toNat)).toJson.draft =
      .ok (arity actual.toNat min.toNat (max.map UInt64.toNat)) := by
  have bound : Json.readOption Json.readSize
      (Json.ofOption .ofNat (max.map UInt64.toNat)).draft = .ok max := by
    cases max with
    | none => rfl
    | some n => exact Json.map_eq_ok_iff.2 ⟨n, Json.readSize_eq_ok_iff.2 rfl, rfl⟩
  have inner : countRecord.read (Json.draft (.object [("actual", .ofNat actual.toNat),
      ("min", .ofNat min.toNat), ("max", .ofOption .ofNat (max.map UInt64.toNat))])) =
      .ok ⟨actual, min, max⟩ :=
    Json.Record.read_object countFields_eq <|
      .cons ⟨rfl, Json.readSize_eq_ok_iff.2 rfl⟩ <| .cons ⟨rfl, Json.readSize_eq_ok_iff.2 rfl⟩ <|
      .cons ⟨rfl, bound⟩ .nil
  refine (Json.readTagged_eq_ok_iff Failure.mem_all Failure.name_injective).2 (.inr ?_)
  exact ⟨.arity, _, rfl, Json.bind_eq_ok_iff.2 ⟨_, inner, rfl⟩⟩

private theorem whole_toJson_arity (actual min : UInt64) (max : Option UInt64) :
    (arity actual.toNat min.toNat (max.map UInt64.toNat)).toJson.whole = true := by
  cases max <;> simp [toJson, Json.whole, Json.wholeEntries, Json.whole_size, Json.ofOption]

end ScanError

namespace Globals

theorem read_toJson (globals : Globals) : record.read globals.toJson.draft = .ok globals :=
  Json.Record.read_object fields_eq <|
    .cons ⟨rfl, Json.readInt32_eq_ok_iff.2 rfl⟩ <| .cons ⟨rfl, Json.readInt32_eq_ok_iff.2 rfl⟩ <|
    .cons ⟨rfl, Json.readInt32_eq_ok_iff.2 rfl⟩ <| .cons ⟨rfl, Json.readOption_string _⟩ <|
    .cons ⟨rfl, Json.readOption_string _⟩ <| .cons ⟨rfl, Json.readOption_string _⟩ <|
    .cons ⟨rfl, Json.readOption_string _⟩ <| .cons ⟨rfl, Json.readString_eq_ok_iff.2 rfl⟩ .nil

theorem whole_toJson (globals : Globals) : globals.toJson.whole = true := by
  simp [toJson, Json.whole, Json.wholeEntries, Json.whole_int32, Json.whole_ofOption_string]

end Globals

namespace Config

theorem read_toJson (config : Config) : record.read config.toJson.draft = .ok config :=
  Json.Record.read_object fields_eq <|
    .cons ⟨rfl, (Json.readChoice_eq_ok_iff Verbosity.mem_all Verbosity.name_injective).2
      (.inl rfl)⟩ <|
    .cons ⟨rfl, Json.readSize_eq_ok_iff.2 rfl⟩ <|
    .cons ⟨rfl, Globals.read_toJson config.globals⟩ .nil

theorem whole_toJson (config : Config) : config.toJson.whole = true := by
  simp [toJson, Json.whole, Json.wholeEntries, Json.whole_size, Globals.whole_toJson]

end Config

namespace Json

/-- A value is read back from both of its written forms. -/
def Survives {α : Type} (encode : α → Json) (decode : String → Except Fault α) (a : α) : Prop :=
  decode (compactText (encode a)) = .ok a ∧ decode (prettyText (encode a)) = .ok a

theorem survives {α : Type} {encode : α → Json} {reader : Reader α} {a : α}
    (proper : (encode a).whole = true) (read : reader (encode a).draft = .ok a) :
    Survives encode (readText reader) a := by
  constructor
  · rw [readText_of_writtenAs (writtenAs_compactText proper), read]
  · rw [readText_of_writtenAs (writtenAs_prettyText proper), read]

/-- Shapes, scan errors with counts of sixty-four bits, globals and configurations are read back
from their texts: an absent separator as absent, whatever its default is. -/
theorem documents_survive :
    (∀ format : Format, Survives Format.toJson Format.ofJson format) ∧
      (∀ text : String, Survives ScanError.toJson ScanError.ofJson (.invalidFormat text)) ∧
      (∀ (actual min : UInt64) (max : Option UInt64),
        Survives ScanError.toJson ScanError.ofJson
          (.arity actual.toNat min.toNat (max.map UInt64.toNat))) ∧
      (∀ globals : Globals, Survives Globals.toJson Globals.ofJson globals) ∧
      ∀ config : Config, Survives Config.toJson Config.ofJson config := by
  refine ⟨fun format => ?_, fun text => ?_, fun actual min max => ?_, fun globals => ?_,
    fun config => ?_⟩
  · exact survives format.whole_toJson format.read_toJson
  · exact survives rfl (ScanError.read_toJson_invalidFormat text)
  · exact survives (ScanError.whole_toJson_arity actual min max)
      (ScanError.read_toJson_arity actual min max)
  · exact survives globals.whole_toJson globals.read_toJson
  · exact survives config.whole_toJson config.read_toJson

end Json

end NativeCall
