import NativeCall.Proofs.Json.Documents

/-!
Configurations that are written in part. A document replaces exactly the parts that it names, at
both levels: `Config.ofJson_overrides` says when a configuration is read, which one it is, and that
neither the order of the entries nor the unknown ones among them matter.
-/

set_option autoImplicit false
set_option relaxedAutoImplicit false

namespace NativeCall

open Json (Draft Given among compactText drafts prettyText)

/-- The written forms of a level: its name, or an object with its name and null. -/
inductive IsLevel : Draft → Verbosity → Prop where
  | name (level : Verbosity) : IsLevel (.string (some level.name)) level
  | tagged (level : Verbosity) : IsLevel (.object [(some level.name, .null)] true) level

def IsInt32 (draft : Draft) (n : Int32) : Prop :=
  draft = .number (some (.integer n.toInt))

def IsSize (draft : Draft) (n : UInt64) : Prop :=
  draft = .number (some (.integer n.toNat))

def IsText (draft : Draft) (s : String) : Prop :=
  draft = .string (some s)

def IsSeparator (draft : Draft) : Option String → Prop
  | none => draft = .null
  | some s => IsText draft s

private theorem readChoice_level :
    (fun draft level => Json.readChoice Verbosity.labels draft = .ok level) = IsLevel := by
  funext draft level
  rw [Json.readChoice_eq_ok_iff Verbosity.mem_all Verbosity.name_injective]
  refine propext ⟨?_, ?_⟩
  · rintro (rfl | rfl)
    · exact .name level
    · exact .tagged level
  · rintro (_ | _)
    · exact .inl rfl
    · exact .inr rfl

private theorem readInt32_means : (fun draft n => Json.readInt32 draft = .ok n) = IsInt32 := by
  funext draft n
  exact propext Json.readInt32_eq_ok_iff

private theorem readSize_means : (fun draft n => Json.readSize draft = .ok n) = IsSize := by
  funext draft n
  exact propext Json.readSize_eq_ok_iff

private theorem readString_means : (fun draft s => Json.readString draft = .ok s) = IsText := by
  funext draft s
  exact propext Json.readString_eq_ok_iff

private theorem readSeparator_means :
    (fun draft s => Json.readOption Json.readString draft = .ok s) = IsSeparator := by
  funext draft s
  have reads := @Json.readOption_eq_ok_iff _ _ _ (fun _ _ => Json.readString_eq_ok_iff)
    (fun _ same => by cases same) draft s
  rw [reads]
  cases s with
  | none => rfl
  | some s => rfl

namespace Globals

def names : List String :=
  ["stdin_fd", "stdout_fd", "stderr_fd", "field_separator", "output_field_separator",
    "record_separator", "output_record_separator", "default_record_separator"]

/-- No part has two entries. -/
def Unrepeated (entries : List (String × Draft)) : Prop :=
  ((among names entries).map Prod.fst).Nodup

/-- Globals with the parts that the entries name, and the others as they are at first. -/
@[mk_iff]
structure Overrides (entries : List (String × Draft)) (globals : Globals) : Prop where
  stdin : Given entries "stdin_fd" IsInt32 ({} : Globals).stdin globals.stdin
  stdout : Given entries "stdout_fd" IsInt32 ({} : Globals).stdout globals.stdout
  stderr : Given entries "stderr_fd" IsInt32 ({} : Globals).stderr globals.stderr
  fieldSeparator : Given entries "field_separator" IsSeparator ({} : Globals).fieldSeparator
    globals.fieldSeparator
  outputFieldSeparator : Given entries "output_field_separator" IsSeparator
    ({} : Globals).outputFieldSeparator globals.outputFieldSeparator
  recordSeparator : Given entries "record_separator" IsSeparator ({} : Globals).recordSeparator
    globals.recordSeparator
  outputRecordSeparator : Given entries "output_record_separator" IsSeparator
    ({} : Globals).outputRecordSeparator globals.outputRecordSeparator
  defaultRecordSeparator : Given entries "default_record_separator" IsText
    ({} : Globals).defaultRecordSeparator globals.defaultRecordSeparator

/-- Every part that the entries name has a value of its type. -/
@[mk_iff]
structure Accepted (entries : List (String × Draft)) : Prop where
  stdin : ∀ draft, ("stdin_fd", draft) ∈ entries → ∃ n, IsInt32 draft n
  stdout : ∀ draft, ("stdout_fd", draft) ∈ entries → ∃ n, IsInt32 draft n
  stderr : ∀ draft, ("stderr_fd", draft) ∈ entries → ∃ n, IsInt32 draft n
  fieldSeparator : ∀ draft, ("field_separator", draft) ∈ entries → ∃ s, IsSeparator draft s
  outputFieldSeparator :
    ∀ draft, ("output_field_separator", draft) ∈ entries → ∃ s, IsSeparator draft s
  recordSeparator : ∀ draft, ("record_separator", draft) ∈ entries → ∃ s, IsSeparator draft s
  outputRecordSeparator :
    ∀ draft, ("output_record_separator", draft) ∈ entries → ∃ s, IsSeparator draft s
  defaultRecordSeparator :
    ∀ draft, ("default_record_separator", draft) ∈ entries → ∃ s, IsText draft s

variable {entries : List (String × Draft)}

private theorem read_iff (complete : (Draft.ofEntries entries).complete = true)
    {globals : Globals} :
    record.read (.ofEntries entries) = .ok globals ↔
      Unrepeated entries ∧ Overrides entries globals := by
  rw [Json.Record.read_ofEntries_iff fields_eq complete, overrides_iff]
  refine and_congr Iff.rfl ?_
  simp only [Json.Layout.GivenBy, layout, List.forall_mem_cons, Json.Part.GivenBy, readInt32_means,
    readSeparator_means, readString_means]
  simp [record]

private theorem exists_read_iff (complete : (Draft.ofEntries entries).complete = true) :
    (∃ globals, record.read (.ofEntries entries) = .ok globals) ↔
      Unrepeated entries ∧ Accepted entries := by
  rw [Json.Record.exists_read_ofEntries_iff fields_eq complete, accepted_iff]
  refine and_congr Iff.rfl ?_
  simp only [layout, List.forall_mem_cons, ← readInt32_means, ← readSeparator_means,
    ← readString_means]
  simp

end Globals

private theorem Json.Draft.ofEntries_injective : Function.Injective Draft.ofEntries := by
  intro entries entries' same
  injection same with same
  refine List.map_injective_iff.2 ?_ same
  intro entry entry' same
  exact Prod.ext (Option.some.inj (Prod.mk.inj same).1) (Prod.mk.inj same).2

namespace Config

def names : List String :=
  ["verbosity", "spec_cache_capacity", "globals"]

def Unrepeated (entries : List (String × Draft)) : Prop :=
  ((among names entries).map Prod.fst).Nodup ∧
    ∀ inner, ("globals", .ofEntries inner) ∈ entries → Globals.Unrepeated inner

@[mk_iff]
structure Overrides (entries : List (String × Draft)) (config : Config) : Prop where
  verbosity : Given entries "verbosity" IsLevel ({} : Config).verbosity config.verbosity
  capacity : Given entries "spec_cache_capacity" IsSize ({} : Config).capacity config.capacity
  globals : Given entries "globals" (fun draft globals =>
    ∃ inner, draft = .ofEntries inner ∧ Globals.Overrides inner globals) ({} : Config).globals
    config.globals

@[mk_iff]
structure Accepted (entries : List (String × Draft)) : Prop where
  verbosity : ∀ draft, ("verbosity", draft) ∈ entries → ∃ level, IsLevel draft level
  capacity : ∀ draft, ("spec_cache_capacity", draft) ∈ entries → ∃ n, IsSize draft n
  globals : ∀ inner, ("globals", .ofEntries inner) ∈ entries → Globals.Accepted inner

def Nested (entries : List (String × Draft)) : Prop :=
  ∀ draft, ("globals", draft) ∈ entries → ∃ inner, draft = .ofEntries inner

variable {entries : List (String × Draft)}

private theorem globals_iff (complete : (Draft.ofEntries entries).complete = true)
    (nested : Nested entries) {default globals : Globals} :
    Given entries "globals" (fun draft globals => Globals.record.read draft = .ok globals)
        default globals ↔
      (∀ inner, ("globals", .ofEntries inner) ∈ entries → Globals.Unrepeated inner) ∧
        Given entries "globals" (fun draft globals =>
          ∃ inner, draft = .ofEntries inner ∧ Globals.Overrides inner globals) default globals := by
  have whole (inner : List (String × Draft)) (found : ("globals", .ofEntries inner) ∈ entries) :
      (Draft.ofEntries inner).complete = true :=
    Draft.complete_of_ofEntries complete _ found
  constructor
  · intro given
    have read (inner : List (String × Draft)) (found : ("globals", .ofEntries inner) ∈ entries) :=
      (Globals.read_iff (whole inner found)).1 (given.written _ found)
    refine ⟨fun inner found => (read inner found).1, fun draft found => ?_, given.absent⟩
    obtain ⟨inner, rfl⟩ := nested draft found
    exact ⟨inner, rfl, (read inner found).2⟩
  · rintro ⟨unrepeated, given⟩
    refine ⟨fun draft found => ?_, given.absent⟩
    obtain ⟨inner, rfl, overrides⟩ := given.written draft found
    exact (Globals.read_iff (whole inner found)).2 ⟨unrepeated inner found, overrides⟩

private theorem read_iff (complete : (Draft.ofEntries entries).complete = true)
    (nested : Nested entries) {config : Config} :
    record.read (.ofEntries entries) = .ok config ↔
      Unrepeated entries ∧ Overrides entries config := by
  rw [Json.Record.read_ofEntries_iff fields_eq complete, overrides_iff, Unrepeated, and_assoc]
  refine and_congr Iff.rfl ?_
  simp only [Json.Layout.GivenBy, layout, List.forall_mem_cons, Json.Part.GivenBy, readChoice_level,
    readSize_means, globals_iff complete nested]
  constructor
  · rintro ⟨-, verbosity, capacity, ⟨unrepeated, globals⟩, -⟩
    exact ⟨unrepeated, verbosity, capacity, globals⟩
  · rintro ⟨unrepeated, verbosity, capacity, globals⟩
    exact ⟨by simp, verbosity, capacity, ⟨unrepeated, globals⟩, List.forall_mem_nil _⟩

private theorem globals_readable_iff (complete : (Draft.ofEntries entries).complete = true)
    (nested : Nested entries) :
    (∀ draft, ("globals", draft) ∈ entries →
        ∃ globals, Globals.record.read draft = .ok globals) ↔
      (∀ inner, ("globals", .ofEntries inner) ∈ entries → Globals.Unrepeated inner) ∧
        ∀ inner, ("globals", .ofEntries inner) ∈ entries → Globals.Accepted inner := by
  have whole (inner : List (String × Draft)) (found : ("globals", .ofEntries inner) ∈ entries) :
      (Draft.ofEntries inner).complete = true :=
    Draft.complete_of_ofEntries complete _ found
  constructor
  · intro readable
    have read (inner : List (String × Draft)) (found : ("globals", .ofEntries inner) ∈ entries) :=
      (Globals.exists_read_iff (whole inner found)).1 (readable _ found)
    exact ⟨fun inner found => (read inner found).1, fun inner found => (read inner found).2⟩
  · rintro ⟨unrepeated, accepted⟩ draft found
    obtain ⟨inner, rfl⟩ := nested draft found
    exact (Globals.exists_read_iff (whole inner found)).2
      ⟨unrepeated inner found, accepted inner found⟩

private theorem exists_read_iff (complete : (Draft.ofEntries entries).complete = true)
    (nested : Nested entries) :
    (∃ config, record.read (.ofEntries entries) = .ok config) ↔
      Unrepeated entries ∧ Accepted entries := by
  rw [Json.Record.exists_read_ofEntries_iff fields_eq complete, accepted_iff, Unrepeated, and_assoc]
  refine and_congr Iff.rfl ?_
  simp only [layout, List.forall_mem_cons, ← readChoice_level, ← readSize_means,
    globals_readable_iff complete nested]
  constructor
  · rintro ⟨-, verbosity, capacity, ⟨unrepeated, globals⟩, -⟩
    exact ⟨unrepeated, verbosity, capacity, globals⟩
  · rintro ⟨unrepeated, verbosity, capacity, globals⟩
    exact ⟨by simp, verbosity, capacity, ⟨unrepeated, globals⟩, List.forall_mem_nil _⟩

/-- Entries that name the same: equal ones, or two entries of globals whose known entries are the
same in some order. -/
inductive Same : String × Draft → String × Draft → Prop where
  | refl (entry : String × Draft) : Same entry entry
  | globals {inner inner' : List (String × Draft)}
      (alike : (among Globals.names inner).Perm (among Globals.names inner')) :
      Same ("globals", .ofEntries inner) ("globals", .ofEntries inner')

/-- Entries whose known ones are the same in some order, at both levels. -/
def Alike (entries entries' : List (String × Draft)) : Prop :=
  ∃ reordered, (among names entries).Perm reordered ∧
    List.Forall₂ Same reordered (among names entries')

private theorem Same.name_eq {entry entry' : String × Draft} (same : Same entry entry') :
    entry.1 = entry'.1 := by
  cases same with
  | refl => rfl
  | globals => rfl

private theorem Same.reader_iff {part : Json.Part Config} (mem : part ∈ layout.parts)
    {draft draft' : Draft}
    (same : Same (part.name, draft) (part.name, draft')) (complete : draft.complete = true)
    (complete' : draft'.complete = true) (value : part.β) :
    part.reader draft = .ok value ↔ part.reader draft' = .ok value := by
  -- The names in the two pairs are no variables, so the pairs are named before the cases.
  generalize entry : (part.name, draft) = first at same
  generalize entry' : (part.name, draft') = second at same
  cases same with
  | refl =>
    rw [← entry'] at entry
    rw [(Prod.mk.inj entry).2]
  | globals alike =>
    obtain ⟨named, rfl⟩ := Prod.mk.inj entry
    obtain ⟨-, rfl⟩ := Prod.mk.inj entry'
    simp only [layout, List.mem_cons, List.not_mem_nil, or_false] at mem
    rcases mem with rfl | rfl | rfl
    · exact absurd named (by decide)
    · exact absurd named (by decide)
    · exact Json.Record.read_ofEntries_of_alike Globals.fields_eq complete complete'
        (.of_perm alike) value

theorem Alike.layout {entries' : List (String × Draft)} (alike : Alike entries entries')
    (complete : (Draft.ofEntries entries).complete = true)
    (complete' : (Draft.ofEntries entries').complete = true) : layout.Alike entries entries' := by
  obtain ⟨reordered, perm, each⟩ := alike
  have known {part : Json.Part Config} (mem : part ∈ Config.layout.parts) : part.name ∈ names :=
    List.mem_map_of_mem mem
  have whole := Draft.complete_of_ofEntries complete
  have whole' := Draft.complete_of_ofEntries complete'
  refine ⟨?_, fun part mem draft found => ?_, fun part mem draft' found => ?_⟩
  · have firsts := map_eq_map_of_forall₂ (each.imp fun _ _ same => same.name_eq)
    have moved := perm.map Prod.fst
    rw [firsts] at moved
    exact moved
  · have moved := perm.mem_iff.1 ((Json.mem_among (known mem) draft).2 found)
    obtain ⟨⟨name, draft'⟩, held, same⟩ := exists_mem_of_forall₂ each moved
    obtain rfl := same.name_eq
    have held' := (Json.mem_among (known mem) draft').1 held
    exact ⟨draft', held', same.reader_iff mem (whole _ found) (whole' _ held')⟩
  · have held := (Json.mem_among (known mem) draft').2 found
    obtain ⟨⟨name, draft⟩, moved, same⟩ := exists_mem_of_forall₂ each.flip held
    obtain rfl := same.name_eq
    have held' := (Json.mem_among (known mem) draft).1 (perm.mem_iff.2 moved)
    exact ⟨draft, held', fun value =>
      (same.reader_iff mem (whole _ held') (whole' _ found) value).symm⟩

/-- Reads a configuration from an object that may leave out parts at both levels. It is read if no
part is repeated and every part that is written has a value of its type; then it has just these
parts, and the others by default. Texts that differ in the order of their entries and in unknown
entries are read alike. -/
theorem ofJson_overrides {text : String} {entries : List (String × Draft)}
    (written : (Draft.ofEntries entries).WrittenAs text) (nested : Nested entries) :
    ((∃ config, ofJson text = .ok config) ↔ Unrepeated entries ∧ Accepted entries) ∧
      (∀ config, ofJson text = .ok config ↔ Unrepeated entries ∧ Overrides entries config) ∧
      ∀ text' entries', (Draft.ofEntries entries').WrittenAs text' → Alike entries entries' →
        ∀ config, ofJson text' = .ok config ↔ ofJson text = .ok config := by
  have read : ofJson text = record.read (.ofEntries entries) :=
    Json.readText_of_writtenAs written _
  rw [read]
  refine ⟨exists_read_iff written.1 nested, fun config => read_iff written.1 nested, ?_⟩
  intro text' entries' written' alike config
  have read' : ofJson text' = record.read (.ofEntries entries') :=
    Json.readText_of_writtenAs written' _
  rw [read']
  exact (Json.Record.read_ofEntries_of_alike fields_eq written.1 written'.1
    (alike.layout written.1 written'.1) config).symm

def mixedGlobals : List (String × Json) :=
  [("record_separator", .null), ("unknown", .array [.ofInt 1]), ("stdin_fd", .ofInt 7)]

def plainGlobals : List (String × Json) :=
  [("stdin_fd", .ofInt 7), ("record_separator", .null)]

def mixed : List (String × Json) :=
  [("unknown", .object []), ("globals", .object mixedGlobals), ("verbosity", .string "silent")]

def plain : List (String × Json) :=
  [("verbosity", .string "silent"), ("globals", .object plainGlobals)]

theorem ofJson_overrides_mixed :
    ofJson (prettyText (.object mixed)) =
        .ok { verbosity := .silent, globals := { stdin := 7, recordSeparator := none } } ∧
      ofJson (compactText (.object plain)) = ofJson (prettyText (.object mixed)) := by
  have written : (Draft.ofEntries (drafts mixed)).WrittenAs
      (prettyText (.object mixed)) := by
    rw [← Json.draft_object]
    exact Json.writtenAs_prettyText (by decide)
  have written' : (Draft.ofEntries (drafts plain)).WrittenAs
      (compactText (.object plain)) := by
    rw [← Json.draft_object]
    exact Json.writtenAs_compactText (by decide)
  have held {draft : Draft}
      (found : ("globals", draft) ∈ drafts mixed) :
      draft = .ofEntries (drafts mixedGlobals) := by
    simpa [drafts, mixed, Json.draft_object] using found
  have alike : Alike (drafts mixed)
      (drafts plain) := by
    refine ⟨_, .swap _ _ _, .cons (.refl _) (.cons ?_ .nil)⟩
    dsimp only
    rw [Json.draft_object, Json.draft_object]
    exact .globals (.swap _ _ _)
  have named : IsLevel (.string (some "silent")) .silent := .name .silent
  have overrides : Globals.Overrides (drafts mixedGlobals)
      { stdin := 7, recordSeparator := none } := by
    simp [Globals.overrides_iff, Json.given_iff, drafts, mixedGlobals, Json.draft, Json.ofInt,
      IsInt32, IsSeparator]
  obtain ⟨-, known, ordered⟩ := ofJson_overrides written fun draft found => ⟨_, held found⟩
  have read : ofJson (prettyText (.object mixed)) =
      .ok { verbosity := .silent, globals := { stdin := 7, recordSeparator := none } } := by
    refine (known _).2 ⟨⟨by decide, fun inner found => ?_⟩, ?_, ?_, fun draft found => ?_, ?_⟩
    · rw [Json.Draft.ofEntries_injective (held found), Globals.Unrepeated]
      decide
    · simp [Json.given_iff, drafts, mixed, Json.draft, named]
    · simp [Json.given_iff, drafts, mixed]
    · exact ⟨_, held found, overrides⟩
    · simp [drafts, mixed]
  exact ⟨read, ((ordered _ _ written' alike _).2 read).trans read.symm⟩

end Config

end NativeCall
