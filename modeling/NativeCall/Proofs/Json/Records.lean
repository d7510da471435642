import Mathlib.Data.List.Nodup
import Mathlib.Tactic.MkIffOfInductiveProp
import NativeCall.Proofs.Json.Grammar
import NativeCall.Proofs.Json.Readers

/-!
Records as objects. A record is laid out in parts that do not overlap. `Record.read_ofEntries_iff`
says what an object is read as, whatever the order of its entries, and
`Record.exists_read_ofEntries_iff` when it is read at all; objects that differ in their order and in
unknown entries are read alike by `Record.read_ofEntries_of_alike`.
-/

set_option autoImplicit false
set_option relaxedAutoImplicit false

namespace NativeCall

theorem map_eq_map_of_forall₂ {α : Type*} {β : Type*} {γ : Type*} {f : α → γ} {g : β → γ}
    {as : List α} {bs : List β} (each : List.Forall₂ (fun a b => f a = g b) as bs) :
    as.map f = bs.map g :=
  List.forall₂_eq_eq_eq ▸ List.forall₂_map_left_iff.2 (List.forall₂_map_right_iff.2 each)

theorem exists_mem_of_forall₂ {α : Type*} {β : Type*} {R : α → β → Prop} {as : List α}
    {bs : List β} (each : List.Forall₂ R as bs) {a : α} (mem : a ∈ as) : ∃ b ∈ bs, R a b := by
  induction each with
  | nil => cases mem
  | @cons a' b as bs first _ ih =>
    rcases List.mem_cons.1 mem with rfl | later
    · exact ⟨b, List.mem_cons_self, first⟩
    · obtain ⟨b', found, related⟩ := ih later
      exact ⟨b', List.mem_cons_of_mem b found, related⟩

namespace Json

def Draft.ofEntries (entries : List (String × Draft)) : Draft :=
  .object (entries.map fun entry => (some entry.1, entry.2)) true

theorem Draft.complete_of_ofEntries {entries : List (String × Draft)}
    (whole : (ofEntries entries).complete = true) : ∀ entry ∈ entries, entry.2.complete = true := by
  have all : completeEntries (entries.map fun entry => (some entry.1, entry.2)) = true :=
    (Bool.and_eq_true_iff.1 whole).1
  clear whole
  induction entries with
  | nil => exact List.forall_mem_nil _
  | cons entry entries ih =>
    obtain ⟨first, others⟩ := Bool.and_eq_true_iff.1 all
    exact List.forall_mem_cons.2 ⟨first, ih others⟩

def among (names : List String) (entries : List (String × Draft)) : List (String × Draft) :=
  entries.filter fun entry => entry.1 ∈ names

/-- What entries say of a value: it is what is written under its name, and the default if nothing
is. -/
@[mk_iff]
structure Given {β : Type} (entries : List (String × Draft)) (name : String)
    (means : Draft → β → Prop) (default value : β) : Prop where
  written : ∀ draft, (name, draft) ∈ entries → means draft value
  absent : name ∉ entries.map Prod.fst → value = default

private theorem given_cons_of_ne {β : Type} {name other : String} (ne : name ≠ other)
    {draft : Draft}
    {entries : List (String × Draft)} {means : Draft → β → Prop} {default value : β} :
    Given ((other, draft) :: entries) name means default value ↔
      Given entries name means default value := by
  have passed : name ∉ ((other, draft) :: entries).map Prod.fst ↔ name ∉ entries.map Prod.fst := by
    rw [List.map_cons, List.mem_cons, not_or]
    exact and_iff_right ne
  constructor
  · intro given
    exact ⟨fun draft mem => given.written draft (List.mem_cons_of_mem _ mem),
      fun missing => given.absent (passed.2 missing)⟩
  · intro given
    refine ⟨fun draft mem => ?_, fun missing => given.absent (passed.1 missing)⟩
    rcases List.mem_cons.1 mem with same | later
    · exact absurd (congrArg Prod.fst same) ne
    · exact given.written draft later

structure Part (α : Type) where
  {β : Type}
  name : String
  optional : Bool
  reader : Reader β
  get : α → β
  set : β → α → α

namespace Part

variable {α : Type}

def field (part : Part α) : Field α :=
  .of part.name part.optional part.reader part.set

/-- Parts of which neither is touched when the other is set. -/
@[mk_iff]
structure Apart (part other : Part α) : Prop where
  left : ∀ value a, other.get (part.set value a) = other.get a
  right : ∀ value a, part.get (other.set value a) = part.get a

abbrev GivenBy (part : Part α) (entries : List (String × Draft)) (blank a : α) : Prop :=
  Given entries part.name (fun draft value => part.reader draft = .ok value) (part.get blank)
    (part.get a)

end Part

structure Layout (α : Type) where
  parts : List (Part α)
  distinct : (parts.map Part.name).Nodup
  own : ∀ part ∈ parts, ∀ value a, part.get (part.set value a) = value
  apart : parts.Pairwise Part.Apart
  ext : ∀ a a', (∀ part ∈ parts, part.get a = part.get a') → a = a'

namespace Layout

variable {α : Type} (layout : Layout α)

def names : List String :=
  layout.parts.map Part.name

def fields : List (Field α) :=
  layout.parts.map Part.field

variable {layout}

private theorem eq_of_name {part other : Part α} (mem : part ∈ layout.parts)
    (other_mem : other ∈ layout.parts) (same : part.name = other.name) : part = other :=
  List.inj_on_of_nodup_map layout.distinct mem other_mem same

private theorem get_set_of_ne {part other : Part α} (mem : part ∈ layout.parts)
    (other_mem : other ∈ layout.parts) (ne : part.name ≠ other.name) (value : part.β) (a : α) :
    other.get (part.set value a) = other.get a := by
  have symmetric : Std.Symm (@Part.Apart α) := ⟨fun _ _ apart => ⟨apart.right, apart.left⟩⟩
  have different : part ≠ other := fun same => ne (congrArg Part.name same)
  exact (layout.apart.forall mem other_mem different).left value a

private theorem find?_field {part : Part α} (mem : part ∈ layout.parts) :
    layout.fields.find? (·.name == part.name) = some part.field := by
  have named : ((fun field : Field α => field.name == part.name) ∘ Part.field) =
      fun other => other.name == part.name := rfl
  rw [fields, List.find?_map, named]
  cases found : layout.parts.find? fun other => other.name == part.name with
  | none =>
    have missed := List.find?_eq_none.1 found part mem
    exact absurd (beq_self_eq_true part.name) missed
  | some other =>
    have same := List.find?_some found
    rw [eq_of_name (List.mem_of_find?_eq_some found) mem (eq_of_beq same)]
    rfl

private theorem find?_unknown {name : String} (unknown : name ∉ layout.names) :
    layout.fields.find? (·.name == name) = none := by
  rw [fields, List.find?_map, Option.map_eq_none_iff, List.find?_eq_none]
  intro part mem same
  exact unknown (List.mem_map.2 ⟨part, mem, eq_of_beq same⟩)

/-- What entries say of a record: each part is what is written under its name, and as it was if
nothing is. -/
def GivenBy (layout : Layout α) (entries : List (String × Draft)) (blank a : α) : Prop :=
  ∀ part ∈ layout.parts, part.GivenBy entries blank a

private theorem givenBy_nil (a a' : α) : layout.GivenBy [] a a' ↔ a = a' := by
  constructor
  · intro given
    exact layout.ext a a' fun part mem => ((given part mem).absent List.not_mem_nil).symm
  · rintro rfl part -
    exact ⟨fun _ found => absurd found List.not_mem_nil, fun _ => rfl⟩

private theorem givenBy_unknown {name : String} (unknown : name ∉ layout.names) (draft : Draft)
    (entries : List (String × Draft)) (a a' : α) :
    layout.GivenBy ((name, draft) :: entries) a a' ↔ layout.GivenBy entries a a' := by
  refine forall₂_congr fun part mem => given_cons_of_ne ?_
  rintro rfl
  exact unknown (List.mem_map_of_mem mem)

private theorem givenBy_known {part : Part α} (mem : part ∈ layout.parts) (draft : Draft)
    (entries : List (String × Draft)) (a a' : α) :
    layout.GivenBy ((part.name, draft) :: entries) a a' ↔
      part.reader draft = .ok (part.get a') ∧
        layout.GivenBy entries (part.set (part.get a') a) a' := by
  constructor
  · intro given
    refine ⟨(given part mem).written draft List.mem_cons_self, fun other other_mem => ?_⟩
    by_cases same : other.name = part.name
    · obtain rfl := eq_of_name other_mem mem same
      exact ⟨fun draft later => (given other mem).written draft (List.mem_cons_of_mem _ later),
        fun _ => (layout.own other mem _ a).symm⟩
    · have kept := get_set_of_ne mem other_mem (Ne.symm same) (part.get a') a
      rw [Part.GivenBy, kept]
      exact (given_cons_of_ne same).1 (given other other_mem)
  · rintro ⟨read, given⟩ other other_mem
    by_cases same : other.name = part.name
    · obtain rfl := eq_of_name other_mem mem same
      refine ⟨fun draft' found => ?_, fun missing => ?_⟩
      · rcases List.mem_cons.1 found with first | later
        · rw [(Prod.mk.inj first).2]
          exact read
        · exact (given other mem).written draft' later
      · exact absurd List.mem_cons_self missing
    · have kept := get_set_of_ne mem other_mem (Ne.symm same) (part.get a') a
      have later := given other other_mem
      rw [Part.GivenBy, kept] at later
      exact (given_cons_of_ne same).2 later

def namesIn (layout : Layout α) (entries : List (String × Draft)) : List String :=
  (among layout.names entries).map Prod.fst

private theorem namesIn_unknown {name : String} (unknown : name ∉ layout.names) (draft : Draft)
    (entries : List (String × Draft)) :
    layout.namesIn ((name, draft) :: entries) = layout.namesIn entries := by
  rw [namesIn, among, List.filter_cons_of_neg (by simpa using unknown)]
  rfl

private theorem namesIn_known {part : Part α} (mem : part ∈ layout.parts) (draft : Draft)
    (entries : List (String × Draft)) :
    layout.namesIn ((part.name, draft) :: entries) = part.name :: layout.namesIn entries := by
  have known : part.name ∈ layout.names := List.mem_map_of_mem mem
  rw [namesIn, among, List.filter_cons_of_pos (by simpa using known)]
  rfl

private theorem mem_namesIn {part : Part α} (mem : part ∈ layout.parts)
    (entries : List (String × Draft)) :
    part.name ∈ layout.namesIn entries ↔ part.name ∈ entries.map Prod.fst := by
  have known : part.name ∈ layout.names := List.mem_map_of_mem mem
  simp [namesIn, among, known]

/-- A part that is set and has no later entry keeps its value. -/
theorem get_of_givenBy_set {part : Part α} (mem : part ∈ layout.parts) {value : part.β}
    {entries : List (String × Draft)} {a a' : α}
    (given : layout.GivenBy entries (part.set value a) a')
    (last : part.name ∉ layout.namesIn entries) : part.get a' = value := by
  rw [mem_namesIn mem] at last
  exact ((given part mem).absent last).trans (layout.own part mem value a)

private theorem putEntries_known {part : Part α} (mem : part ∈ layout.parts) (draft : Draft)
    (entries : List (Option String × Draft)) (a : α) (seen : List String) :
    Record.putEntries layout.fields ((some part.name, draft) :: entries) (a, seen) =
      if part.name ∈ seen then .error (.mismatch (.duplicateField part.name))
      else part.reader draft >>= fun value =>
        Record.putEntries layout.fields entries (part.set value a, part.name :: seen) := by
  rw [Record.putEntries, find?_field mem]
  cases read : part.reader draft with
  | error e => simp only [Part.field, Field.of, read, bind, Except.bind]
  | ok value =>
    simp only [Part.field, Field.of, read, bind, Except.bind]
    rfl

/-- Entries are put into a record if no part has two of them and each of them can be read; the parts
without an entry stay as they are. -/
theorem putEntries_iff {entries : List (String × Draft)}
    (complete : ∀ entry ∈ entries, entry.2.complete = true) {seen seen' : List String}
    (fresh : seen.Nodup) {a a' : α} :
    Record.putEntries layout.fields (entries.map fun entry => (some entry.1, entry.2)) (a, seen) =
        .ok (a', seen') ↔
      (seen.reverse ++ layout.namesIn entries).Nodup ∧ layout.GivenBy entries a a' ∧
        seen' = (layout.namesIn entries).reverse ++ seen := by
  -- The record and the names seen so far change with each known entry, so the induction is over all
  -- of them; a name that comes back is caught because seen names stay in front of the others.
  induction entries generalizing a seen with
  | nil =>
    rw [givenBy_nil]
    constructor
    · intro same
      obtain ⟨rfl, rfl⟩ := Prod.mk.inj (Except.ok.inj same)
      exact ⟨(List.append_nil seen.reverse).symm ▸ List.nodup_reverse.2 fresh, rfl, rfl⟩
    · rintro ⟨-, rfl, rfl⟩
      rfl
  | cons entry entries ih =>
    obtain ⟨name, draft⟩ := entry
    obtain ⟨first, others⟩ := List.forall_mem_cons.1 complete
    by_cases known : name ∈ layout.names
    · obtain ⟨part, mem, rfl⟩ := List.mem_map.1 known
      have moved : (part.name :: seen).reverse ++ layout.namesIn entries =
          seen.reverse ++ part.name :: layout.namesIn entries := by
        rw [List.reverse_cons, List.append_assoc, List.singleton_append]
      have passed : (part.name :: layout.namesIn entries).reverse ++ seen =
          (layout.namesIn entries).reverse ++ part.name :: seen := by
        rw [List.reverse_cons, List.append_assoc, List.singleton_append]
      rw [List.map_cons, putEntries_known mem, givenBy_known mem, namesIn_known mem, passed]
      split
      · next repeated =>
        refine iff_of_false (fun same => by cases same) fun held => ?_
        exact (List.nodup_append.1 held.1).2.2 _ (List.mem_reverse.2 repeated) _
          List.mem_cons_self rfl
      · next unseen =>
        have distinct := List.nodup_cons.2 ⟨unseen, fresh⟩
        rw [bind_eq_ok_iff]
        constructor
        · rintro ⟨value, read, put⟩
          obtain ⟨unrepeated, given, rfl⟩ := (ih others distinct).1 put
          rw [moved] at unrepeated
          have last : part.name ∉ layout.namesIn entries :=
            (List.nodup_cons.1 (List.nodup_append.1 unrepeated).2.1).1
          obtain rfl := get_of_givenBy_set mem given last
          exact ⟨unrepeated, ⟨read, given⟩, rfl⟩
        · rintro ⟨unrepeated, ⟨read, given⟩, rfl⟩
          rw [← moved] at unrepeated
          exact ⟨part.get a', read, (ih others distinct).2 ⟨unrepeated, given, rfl⟩⟩
    · rw [givenBy_unknown known, namesIn_unknown known, ← ih others fresh, List.map_cons,
        Record.putEntries, find?_unknown known]
      rw [if_pos first]

private theorem exists_givenBy {entries : List (String × Draft)}
    (unrepeated : (layout.namesIn entries).Nodup)
    (readable : ∀ part ∈ layout.parts, ∀ draft, (part.name, draft) ∈ entries →
      ∃ value, part.reader draft = .ok value) (a : α) :
    ∃ a', layout.GivenBy entries a a' := by
  induction entries generalizing a with
  | nil => exact ⟨a, (givenBy_nil a a).2 rfl⟩
  | cons entry entries ih =>
    obtain ⟨name, draft⟩ := entry
    have later : ∀ part ∈ layout.parts, ∀ draft, (part.name, draft) ∈ entries →
        ∃ value, part.reader draft = .ok value :=
      fun part mem draft found => readable part mem draft (List.mem_cons_of_mem _ found)
    by_cases known : name ∈ layout.names
    · obtain ⟨part, mem, rfl⟩ := List.mem_map.1 known
      rw [namesIn_known mem, List.nodup_cons] at unrepeated
      obtain ⟨value, read⟩ := readable part mem draft List.mem_cons_self
      obtain ⟨a', given⟩ := ih unrepeated.2 later (part.set value a)
      obtain rfl := get_of_givenBy_set mem given unrepeated.1
      exact ⟨a', (givenBy_known mem draft entries a a').2 ⟨read, given⟩⟩
    · rw [namesIn_unknown known] at unrepeated
      obtain ⟨a', given⟩ := ih unrepeated later a
      exact ⟨a', (givenBy_unknown known draft entries a a').2 given⟩

end Layout

theorem mem_among {names : List String} {entries : List (String × Draft)} {name : String}
    (known : name ∈ names) (draft : Draft) :
    (name, draft) ∈ among names entries ↔ (name, draft) ∈ entries := by
  simp [among, known]

/-- Two lists of entries that give the same parts, and values that are read alike. -/
structure Layout.Alike {α : Type} (layout : Layout α) (entries entries' : List (String × Draft)) :
    Prop where
  names : (layout.namesIn entries).Perm (layout.namesIn entries')
  forth : ∀ part ∈ layout.parts, ∀ draft, (part.name, draft) ∈ entries →
    ∃ draft', (part.name, draft') ∈ entries' ∧
      ∀ value, part.reader draft = .ok value ↔ part.reader draft' = .ok value
  back : ∀ part ∈ layout.parts, ∀ draft', (part.name, draft') ∈ entries' →
    ∃ draft, (part.name, draft) ∈ entries ∧
      ∀ value, part.reader draft' = .ok value ↔ part.reader draft = .ok value

namespace Layout.Alike

variable {α : Type} {layout : Layout α} {entries entries' : List (String × Draft)}

theorem symm (alike : layout.Alike entries entries') : layout.Alike entries' entries :=
  ⟨alike.names.symm, alike.back, alike.forth⟩

theorem of_perm (perm : (among layout.names entries).Perm (among layout.names entries')) :
    layout.Alike entries entries' := by
  have same {part : Part α} (mem : part ∈ layout.parts) (draft : Draft) :
      (part.name, draft) ∈ entries ↔ (part.name, draft) ∈ entries' := by
    have known : part.name ∈ layout.names := List.mem_map_of_mem mem
    rw [← mem_among known, perm.mem_iff, mem_among known]
  refine ⟨perm.map Prod.fst, fun part mem draft found => ?_, fun part mem draft found => ?_⟩
  · exact ⟨draft, (same mem draft).1 found, fun _ => Iff.rfl⟩
  · exact ⟨draft, (same mem draft).2 found, fun _ => Iff.rfl⟩

private theorem mem_names (alike : layout.Alike entries entries') {part : Part α}
    (mem : part ∈ layout.parts) :
    part.name ∈ entries.map Prod.fst ↔ part.name ∈ entries'.map Prod.fst := by
  rw [← mem_namesIn mem, alike.names.mem_iff, mem_namesIn mem]

private theorem givenBy (alike : layout.Alike entries entries') {a a' : α}
    (given : layout.GivenBy entries a a') : layout.GivenBy entries' a a' := by
  intro part mem
  refine ⟨fun draft' found => ?_, fun missing => (given part mem).absent ?_⟩
  · obtain ⟨draft, held, same⟩ := alike.back part mem draft' found
    exact (same _).2 ((given part mem).written draft held)
  · rwa [alike.mem_names mem]

end Layout.Alike

namespace Record

variable {α : Type} {record : Record α} {layout : Layout α}

private theorem find?_missing (seen : List String) :
    (layout.fields.find? fun field => !field.optional && !seen.contains field.name) = none ↔
      ∀ part ∈ layout.parts, part.optional = false → part.name ∈ seen := by
  rw [Layout.fields, List.find?_map, Option.map_eq_none_iff, List.find?_eq_none]
  refine forall₂_congr fun part _ => ?_
  cases needed : part.optional <;> simp [Part.field, Field.of, needed]

/-- An object is read as a record if no part has two entries, the parts that must be written are,
and each entry can be read; the parts without an entry are what they are in the blank record. -/
theorem read_ofEntries_iff (laid : record.fields = layout.fields)
    {entries : List (String × Draft)} (complete : (Draft.ofEntries entries).complete = true)
    {a : α} :
    record.read (.ofEntries entries) = .ok a ↔
      (layout.namesIn entries).Nodup ∧
        (∀ part ∈ layout.parts, part.optional = false → part.name ∈ entries.map Prod.fst) ∧
        layout.GivenBy entries record.blank a := by
  have found : layout.fields.find? (fun field =>
        !field.optional && !(layout.namesIn entries).reverse.contains field.name) = none ↔
      ∀ part ∈ layout.parts, part.optional = false → part.name ∈ entries.map Prod.fst := by
    rw [find?_missing]
    refine forall₂_congr fun part mem => ?_
    rw [List.mem_reverse, Layout.mem_namesIn mem]
  have all := Draft.complete_of_ofEntries complete
  rw [Draft.ofEntries, Record.read, bind_eq_ok_iff, laid]
  constructor
  · rintro ⟨⟨b, seen⟩, filled, rest⟩
    obtain ⟨distinct, given, rfl⟩ := (Layout.putEntries_iff all List.nodup_nil).1 filled
    rw [List.append_nil] at rest
    cases missing : layout.fields.find? fun field =>
        !field.optional && !(layout.namesIn entries).reverse.contains field.name with
    | some field =>
      simp only [missing] at rest
      cases rest
    | none =>
      simp only [missing] at rest
      obtain rfl : b = a := Except.ok.inj rest
      exact ⟨distinct, found.1 missing, given⟩
  · rintro ⟨distinct, needed, given⟩
    have filled := (Layout.putEntries_iff all List.nodup_nil).2 ⟨distinct, given, rfl⟩
    refine ⟨_, filled, ?_⟩
    simp only [List.append_nil, found.2 needed]
    rfl

theorem exists_read_ofEntries_iff (laid : record.fields = layout.fields)
    {entries : List (String × Draft)} (complete : (Draft.ofEntries entries).complete = true) :
    (∃ a, record.read (.ofEntries entries) = .ok a) ↔
      (layout.namesIn entries).Nodup ∧
        (∀ part ∈ layout.parts, part.optional = false → part.name ∈ entries.map Prod.fst) ∧
        ∀ part ∈ layout.parts, ∀ draft, (part.name, draft) ∈ entries →
          ∃ value, part.reader draft = .ok value := by
  constructor
  · rintro ⟨a, read⟩
    obtain ⟨distinct, needed, given⟩ := (read_ofEntries_iff laid complete).1 read
    exact ⟨distinct, needed, fun part mem draft found =>
      ⟨part.get a, (given part mem).written draft found⟩⟩
  · rintro ⟨distinct, needed, readable⟩
    obtain ⟨a, given⟩ := Layout.exists_givenBy distinct readable record.blank
    exact ⟨a, (read_ofEntries_iff laid complete).2 ⟨distinct, needed, given⟩⟩

theorem read_ofEntries_of_alike (laid : record.fields = layout.fields)
    {entries entries' : List (String × Draft)}
    (complete : (Draft.ofEntries entries).complete = true)
    (complete' : (Draft.ofEntries entries').complete = true)
    (alike : layout.Alike entries entries') (a : α) :
    record.read (.ofEntries entries) = .ok a ↔ record.read (.ofEntries entries') = .ok a := by
  rw [read_ofEntries_iff laid complete, read_ofEntries_iff laid complete', alike.names.nodup_iff]
  refine and_congr Iff.rfl (and_congr ?_ ⟨alike.givenBy, alike.symm.givenBy⟩)
  exact forall₂_congr fun part mem => by rw [alike.mem_names mem]

/-- An object that holds every part, in the order of the parts, is read as the record of them. -/
theorem read_ofEntries_of_forall₂ (laid : record.fields = layout.fields)
    {entries : List (String × Draft)} (complete : (Draft.ofEntries entries).complete = true)
    {a : α} (each : List.Forall₂ (fun entry part => entry.1 = part.name ∧
      part.reader entry.2 = .ok (part.get a)) entries layout.parts) :
    record.read (.ofEntries entries) = .ok a := by
  have names : entries.map Prod.fst = layout.names :=
    map_eq_map_of_forall₂ (each.imp fun _ _ both => both.1)
  have named (part : Part α) (mem : part ∈ layout.parts) : part.name ∈ entries.map Prod.fst :=
    names ▸ List.mem_map_of_mem mem
  refine (read_ofEntries_iff laid complete).2 ⟨?_, fun part mem _ => named part mem, ?_⟩
  · have distinct : (entries.map Prod.fst).Nodup := names ▸ layout.distinct
    exact distinct.sublist (List.filter_sublist.map Prod.fst)
  · intro part mem
    refine ⟨fun draft found => ?_, fun missing => absurd (named part mem) missing⟩
    obtain ⟨other, other_mem, same, read⟩ := exists_mem_of_forall₂ each found
    obtain rfl := Layout.eq_of_name mem other_mem same
    exact read

end Record

end Json
end NativeCall
