import NativeCall.Proofs.Text.Legible
import NativeCall.ScanError

/-!
The wording of a failed scan loses nothing: two failures with the same message are the same failure.
The three wordings of the accepted counts share their beginning, and `legible_expected` tells them
apart by what follows it.
-/

set_option autoImplicit false
set_option relaxedAutoImplicit false

namespace NativeCall.ScanError

open Text

def Closes (rest : List Char) : Prop :=
  ∃ after, rest = ')' :: after

def greatest (min : Nat) : Option Nat → List Char
  | none => ['+']
  | some max => if max = min then [] else '.' :: '.' :: Decimal.digits max

def readGreatest (min : Nat) : List Char → Option Nat
  | '+' :: _ => none
  | '.' :: '.' :: text => some (Decimal.value (text.takeWhile Char.isDigit))
  | _ => some min

private theorem readGreatest_append (min : Nat) (max : Option Nat) {rest : List Char}
    (closes : Closes rest) : readGreatest min (greatest min max ++ rest) = max := by
  obtain ⟨after, rfl⟩ := closes
  cases max with
  | none => rfl
  | some max =>
    rw [greatest]
    split
    · next exact =>
      rw [exact]
      rfl
    · have digits : ∀ c ∈ Decimal.digits max, c.isDigit = true := fun _ =>
        Nat.isDigit_of_mem_toDigits (by decide) (by decide)
      have stop : ∀ c ∈ (')' :: after).head?, c.isDigit = false := by simp
      obtain ⟨run, -⟩ := Json.span_append digits stop
      rw [List.cons_append, List.cons_append, readGreatest, run, Decimal.value_digits]

private theorem greatest_stop (min : Nat) (max : Option Nat) {rest : List Char}
    (closes : Closes rest) : ∀ c ∈ (greatest min max ++ rest).head?, c.isDigit = false := by
  obtain ⟨after, rfl⟩ := closes
  intro c found
  cases max with
  | none =>
    obtain rfl : '+' = c := Option.some.inj found
    rfl
  | some max =>
    rw [greatest] at found
    split at found
    · obtain rfl : ')' = c := Option.some.inj found
      rfl
    · obtain rfl : '.' = c := Option.some.inj found
      rfl

private theorem toList_expected (min : Nat) (max : Option Nat) :
    (expected min max).toList = Decimal.digits min ++ greatest min max := by
  cases max with
  | none => simp [expected, greatest, Decimal.text]
  | some max =>
    rw [expected, greatest]
    split
    · simp [Decimal.text]
    · simp [Decimal.text]

/-- The wording of the accepted counts says which they are, open, exact and bounded ones alike. -/
theorem legible_expected :
    Legible (fun bounds : Nat × Option Nat => (expected bounds.1 bounds.2).toList) Closes := by
  rintro ⟨min, max⟩ ⟨min', max'⟩ s t closes closes' same
  dsimp only at same
  rw [toList_expected, toList_expected, List.append_assoc, List.append_assoc] at same
  have stop := greatest_stop min max closes
  have stop' := greatest_stop min' max' closes'
  obtain ⟨equal, others⟩ := Decimal.legible_digits min min' _ _ stop stop' same
  subst equal
  have greatestCount : max = max' := by
    rw [← readGreatest_append min max closes, others, readGreatest_append min max' closes']
  subst greatestCount
  exact ⟨rfl, List.append_cancel_left others⟩

private theorem message_invalidFormat (format : String) :
    message (invalidFormat format) = "bad scan_args format: " ++ Quoted.quote format := rfl

private theorem message_arity (actual min : Nat) (max : Option Nat) :
    message (arity actual min max) = "wrong number of arguments (given " ++ Decimal.text actual
      ++ ", expected " ++ expected min max ++ ")" := rfl

private theorem toList_message_arity (actual min : Nat) (max : Option Nat) :
    (message (arity actual min max)).toList =
      "wrong number of arguments (given ".toList ++ (Decimal.digits actual ++
        (", expected ".toList ++ ((expected min max).toList ++ ")".toList))) := by
  rw [message_arity, Decimal.text]
  simp only [String.toList_append, String.toList_ofList, List.append_assoc]

private theorem arity_of_message {actual actual' min min' : Nat} {max max' : Option Nat}
    (same : message (arity actual min max) = message (arity actual' min' max')) :
    arity actual min max = arity actual' min' max' := by
  have characters := congrArg String.toList same
  rw [toList_message_arity, toList_message_arity] at characters
  have counts := List.append_cancel_left characters
  have comma (rest : List Char) :
      ∀ c ∈ (", expected ".toList ++ rest).head?, c.isDigit = false := by
    simp
  obtain ⟨rfl, others⟩ := Decimal.legible_digits actual actual' _ _ (comma _) (comma _) counts
  have bounds := List.append_cancel_left others
  obtain ⟨equal, -⟩ := legible_expected (min, max) (min', max') _ _ ⟨[], rfl⟩ ⟨[], rfl⟩ bounds
  obtain ⟨rfl, rfl⟩ := Prod.mk.inj equal
  rfl

private theorem message_injective : Function.Injective message := by
  -- the two kinds of message differ in their first character
  have kinds (format : String) (actual min : Nat) (max : Option Nat) :
      message (invalidFormat format) ≠ message (arity actual min max) := by
    intro same
    rw [message_invalidFormat, message_arity] at same
    have first := congrArg (fun text => text.toList.head?) same
    simp at first
  rintro (format | ⟨actual, min, max⟩) (format' | ⟨actual', min', max'⟩) same
  · rw [message_invalidFormat, message_invalidFormat] at same
    rw [Quoted.quote_injective ((String.append_right_inj _).1 same)]
  · exact absurd same (kinds format actual' min' max')
  · exact absurd same.symm (kinds format' actual min max)
  · exact arity_of_message same

/-- Two failures are worded alike only if they are the same failure, with or without the class of
the exception before the message: the rejected text, the number of arguments and both bounds can be
told from either. -/
theorem wording_distinguishes (e e' : ScanError) :
    (e.message = e'.message ↔ e = e') ∧ (e.display = e'.display ↔ e = e') := by
  have classes : e.exceptionClass = e'.exceptionClass := by
    cases e
    all_goals cases e' <;> rfl
  refine ⟨message_injective.eq_iff, fun same => ?_, fun same => by rw [same]⟩
  rw [display, display, classes] at same
  exact message_injective ((String.append_right_inj _).1 same)

end NativeCall.ScanError
