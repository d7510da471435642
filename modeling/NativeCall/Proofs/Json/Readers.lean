import NativeCall.Json.Schema

/-!
What the readers of single values accept: exactly the written forms of their values. A whole number
has to fit its type, an optional value may be null, and a choice is written as its name or as an
object whose only key is its name.
-/

set_option autoImplicit false
set_option relaxedAutoImplicit false

namespace NativeCall

theorem Labels.find?_eq_some_iff {α : Type} {labels : Labels α} (all : ∀ a, a ∈ labels.all)
    (distinct : Function.Injective labels.name) (name : String) (a : α) :
    labels.find? name = some a ↔ name = labels.name a := by
  constructor
  · intro found
    unfold find? at found
    have same := List.find?_some found
    exact (eq_of_beq same).symm
  · rintro rfl
    cases found : labels.find? (labels.name a) with
    | none =>
      have missed := List.find?_eq_none.1 found a (all a)
      exact absurd (beq_self_eq_true _) missed
    | some b =>
      unfold find? at found
      have same := List.find?_some found
      rw [distinct (eq_of_beq same)]

namespace Json

theorem bind_eq_ok_iff {ε α β : Type} {x : Except ε α} {f : α → Except ε β} {b : β} :
    x >>= f = .ok b ↔ ∃ a, x = .ok a ∧ f a = .ok b := by
  cases x with
  | error e =>
    constructor
    · intro same
      cases same
    · rintro ⟨a, same, -⟩
      cases same
  | ok a =>
    constructor
    · intro same
      exact ⟨a, rfl, same⟩
    · rintro ⟨a', same, value⟩
      rw [Except.ok.inj same]
      exact value

theorem map_eq_ok_iff {ε α β : Type} {x : Except ε α} {f : α → β} {b : β} :
    f <$> x = .ok b ↔ ∃ a, x = .ok a ∧ f a = b := by
  cases x with
  | error e =>
    constructor
    · intro same
      cases same
    · rintro ⟨a, same, -⟩
      cases same
  | ok a =>
    constructor
    · intro same
      exact ⟨a, rfl, Except.ok.inj same⟩
    · rintro ⟨a', same, value⟩
      rw [Except.ok.inj same, ← value]
      rfl

private theorem readWhole_eq_ok_iff {least greatest n : Int} {expected : String} {draft : Draft} :
    readWhole least greatest expected draft = .ok n ↔
      draft = .number (some (.integer n)) ∧ least ≤ n ∧ n ≤ greatest := by
  constructor
  · intro read
    unfold readWhole at read
    split at read
    · split at read
      · next fits =>
        obtain rfl := Except.ok.inj read
        exact ⟨rfl, fits⟩
      · cases read
    · cases read
  · rintro ⟨rfl, fits⟩
    rw [readWhole, if_pos fits]

private theorem narrow_readWhole_eq_ok_iff {β : Type} (narrow : Int → β) (widen : β → Int)
    {least greatest : Int} {expected : String} {draft : Draft} {b : β}
    (bounds : least ≤ widen b ∧ widen b ≤ greatest) (back : narrow (widen b) = b)
    (room : ∀ n, least ≤ n → n ≤ greatest → widen (narrow n) = n) :
    narrow <$> readWhole least greatest expected draft = .ok b ↔
      draft = .number (some (.integer (widen b))) := by
  rw [map_eq_ok_iff]
  constructor
  · rintro ⟨n, read, rfl⟩
    obtain ⟨rfl, lower, upper⟩ := readWhole_eq_ok_iff.1 read
    rw [room n lower upper]
  · rintro rfl
    exact ⟨widen b, readWhole_eq_ok_iff.2 ⟨rfl, bounds⟩, back⟩

theorem readByte_eq_ok_iff {draft : Draft} {b : UInt8} :
    readByte draft = .ok b ↔ draft = .number (some (.integer b.toNat)) := by
  have bound := b.toNat_lt
  refine narrow_readWhole_eq_ok_iff (fun n => UInt8.ofNat n.toNat) (fun b => (b.toNat : Int))
    ⟨by omega, by omega⟩ UInt8.ofNat_toNat ?_
  intro n lower upper
  have small : n.toNat < UInt8.size := by
    have size : UInt8.size = 256 := rfl
    omega
  rw [UInt8.toNat_ofNat_of_lt' small]
  omega

theorem readSize_eq_ok_iff {draft : Draft} {n : UInt64} :
    readSize draft = .ok n ↔ draft = .number (some (.integer n.toNat)) := by
  have bound := n.toNat_lt
  refine narrow_readWhole_eq_ok_iff (fun n => UInt64.ofNat n.toNat) (fun n => (n.toNat : Int))
    ⟨by omega, ?_⟩ UInt64.ofNat_toNat ?_
  · rw [greatestUnsigned]
    omega
  · intro n lower upper
    rw [greatestUnsigned] at upper
    have small : n.toNat < UInt64.size := by
      have size : UInt64.size = 2 ^ 64 := rfl
      omega
    rw [UInt64.toNat_ofNat_of_lt' small]
    omega

theorem readInt32_eq_ok_iff {draft : Draft} {n : Int32} :
    readInt32 draft = .ok n ↔ draft = .number (some (.integer n.toInt)) := by
  refine narrow_readWhole_eq_ok_iff Int32.ofInt Int32.toInt
    ⟨n.le_toInt, Int.le_of_lt_add_one n.toInt_lt⟩ (Int32.ofInt_toInt n) ?_
  intro n lower upper
  exact Int32.toInt_ofInt_of_le lower (Int.lt_add_one_of_le upper)

theorem readBool_eq_ok_iff {draft : Draft} {b : Bool} :
    readBool draft = .ok b ↔ draft = .boolean b := by
  constructor
  · intro read
    unfold readBool at read
    split at read
    · rw [Except.ok.inj read]
    · cases read
  · rintro rfl
    rfl

theorem readString_eq_ok_iff {draft : Draft} {s : String} :
    readString draft = .ok s ↔ draft = .string (some s) := by
  constructor
  · intro read
    unfold readString at read
    split at read
    · rw [Except.ok.inj read]
    · cases read
  · rintro rfl
    rfl

theorem readOption_eq_ok_iff {α : Type} {reader : Reader α} {encode : α → Draft}
    (reads : ∀ draft a, reader draft = .ok a ↔ draft = encode a) (solid : ∀ a, encode a ≠ .null)
    {draft : Draft} {choice : Option α} :
    readOption reader draft = .ok choice ↔ draft = choice.elim .null encode := by
  constructor
  · intro read
    unfold readOption at read
    split at read
    · obtain rfl := Except.ok.inj read
      rfl
    · obtain ⟨a, value, rfl⟩ := map_eq_ok_iff.1 read
      exact (reads draft a).1 value
  · rintro rfl
    cases choice with
    | none => rfl
    | some a =>
      have value := (reads (encode a) a).2 rfl
      rw [Option.elim_some, readOption, value]
      · rfl
      · exact solid a

private theorem choose_eq_ok_iff {α : Type} {labels : Labels α} (all : ∀ a, a ∈ labels.all)
    (distinct : Function.Injective labels.name) {name : Option String} {a : α} :
    choose labels name = .ok a ↔ name = some (labels.name a) := by
  cases name with
  | none =>
    constructor
    · intro chosen
      cases chosen
    · intro same
      cases same
  | some name =>
    have named := Labels.find?_eq_some_iff all distinct name a
    rw [Option.some_inj, ← named, choose]
    cases labels.find? name with
    | none =>
      constructor
      · intro chosen
        cases chosen
      · intro same
        cases same
    | some b => rw [Except.ok.injEq, Option.some_inj]

/-- A choice is written as its bare name, or as an object whose only key is the name. -/
theorem readTagged_eq_ok_iff {α β : Type} {labels : Labels α} (all : ∀ a, a ∈ labels.all)
    (distinct : Function.Injective labels.name) {bare : α → Except Fault β}
    {under : α → Reader β} {draft : Draft} {b : β} :
    readTagged labels bare under draft = .ok b ↔
      (∃ a, draft = .string (some (labels.name a)) ∧ bare a = .ok b) ∨
        ∃ a value,
          draft = .object [(some (labels.name a), value)] true ∧ under a value = .ok b := by
  have chosen {name : Option String} {a : α} :
      choose labels name = .ok a ↔ name = some (labels.name a) := choose_eq_ok_iff all distinct
  constructor
  · intro read
    unfold readTagged at read
    split at read
    · obtain ⟨a, found, value⟩ := bind_eq_ok_iff.1 read
      exact .inl ⟨a, by rw [chosen.1 found], value⟩
    · next name value others closed =>
      obtain ⟨a, found, read⟩ := bind_eq_ok_iff.1 read
      obtain ⟨c, held, read⟩ := bind_eq_ok_iff.1 read
      split at read
      · next alone =>
        obtain rfl := Except.ok.inj read
        obtain ⟨last, rfl⟩ := Bool.and_eq_true_iff.1 alone
        rw [List.isEmpty_iff.1 last]
        exact .inr ⟨a, value, by rw [chosen.1 found], held⟩
      · cases read
    · cases read
  · rintro (⟨a, rfl, read⟩ | ⟨a, value, rfl, read⟩)
    · exact bind_eq_ok_iff.2 ⟨a, chosen.2 rfl, read⟩
    · exact bind_eq_ok_iff.2 ⟨a, chosen.2 rfl, bind_eq_ok_iff.2 ⟨b, read, rfl⟩⟩

theorem readChoice_eq_ok_iff {α : Type} {labels : Labels α} (all : ∀ a, a ∈ labels.all)
    (distinct : Function.Injective labels.name) {draft : Draft} {a : α} :
    readChoice labels draft = .ok a ↔
      draft = .string (some (labels.name a)) ∨
        draft = .object [(some (labels.name a), .null)] true := by
  rw [readChoice, readTagged_eq_ok_iff all distinct]
  refine or_congr ?_ ?_
  · constructor
    · rintro ⟨b, rfl, same⟩
      rw [Except.ok.inj same]
    · intro same
      exact ⟨a, same, rfl⟩
  · constructor
    · rintro ⟨b, value, rfl, read⟩
      cases value with
      | null =>
        obtain rfl : b = a := Except.ok.inj read
        rfl
      | _ => cases read
    · intro same
      exact ⟨a, .null, same, rfl⟩

end Json

end NativeCall
