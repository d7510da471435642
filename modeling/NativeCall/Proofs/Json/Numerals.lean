import NativeCall.Json.Written
import NativeCall.Proofs.Json.Lexical
import NativeCall.Proofs.Number.Shortest

/-!
What numerals name. A numeral stands for a rational; without point and exponent it names that whole
number, and otherwise the nearest double. `Numeral.exists_names` says that every number is written
as a numeral that names it.
-/

set_option autoImplicit false
set_option relaxedAutoImplicit false

namespace NativeCall

open Text

namespace Text.Decimal

private theorem digits_zero {n : Nat} (zero : (digits n).head? = some '0') : digits n = ['0'] := by
  induction n using Nat.strongRecOn with
  | ind n ih =>
    rw [digits, Nat.toDigits_eq_if (by decide)] at zero ⊢
    split at zero
    · next small =>
      rw [if_pos small]
      exact congrArg (· :: []) (Option.some.inj zero)
    · next large =>
      have smaller : n / 10 < n := Nat.div_lt_self (by omega) (by decide)
      have front : (digits (n / 10)).head? = some '0' := by
        rw [List.head?_append_of_ne_nil _ (Nat.toDigits_ne_nil)] at zero
        exact zero
      have none_left : n / 10 = 0 := by
        have read := value_digits (n / 10)
        rw [ih (n / 10) smaller front] at read
        exact read.symm
      omega

private theorem digits_run (n : Nat) : Json.Numeral.Whole (digits n) :=
  ⟨⟨Nat.toDigits_ne_nil, fun _ => Nat.isDigit_of_mem_toDigits (by decide) (by decide)⟩, digits_zero⟩

private theorem value_digits_append_zeros (n count : Nat) :
    value (digits n ++ List.replicate count '0') = n * 10 ^ count := by
  have read : Nat.ofDigitChars 10 (digits n) 0 = n := value_digits n
  rw [value, Nat.ofDigitChars_append, Nat.ofDigitChars_replicate_zero, read, mul_comm]

private theorem value_zeros_append (count : Nat) (run : List Char) :
    value (List.replicate count '0' ++ run) = value run := by
  rw [value, Nat.ofDigitChars_append, Nat.ofDigitChars_replicate_zero, mul_zero, value]

end Text.Decimal

namespace Json.Numeral

def value (n : Numeral) : ℚ :=
  let fraction := n.fraction.getD []
  Double.sign n.negative *
    (Decimal.value (n.whole ++ fraction) * 10 ^ (n.exponent.getD 0 - fraction.length))

/-- A numeral names the whole number that it denotes, or, if it has a point or an exponent, the
double nearest to what it stands for. Only a double can be minus zero. -/
inductive Names (n : Numeral) : Number → Prop where
  | integer {i : Int} (denotes : n.integer? = some i) (signed : i = 0 → n.negative = false) :
      Names n (.integer i)
  | double {d : Double} {finite : d.isFinite = true} (marked : n.integer? = none)
      (signed : n.negative = d.negative) (nearest : d.Nearest n.value) :
      Names n (.double d finite)

theorem Names.number? {n : Numeral} {i : Int} (named : n.Names (.integer i))
    (fits : Number.fits i = true) : n.number? = some (.integer i) := by
  cases named with
  | integer denotes signed =>
    have plain : (n.negative && i == 0) = false := by
      rw [← Bool.not_eq_true, Bool.and_eq_true, beq_iff_eq]
      rintro ⟨negative, zero⟩
      exact Bool.false_ne_true ((signed zero).symm.trans negative)
    simp only [Numeral.number?, denotes, fits, plain, Bool.not_false, Bool.and_self, if_true]

private theorem names_signed (i : Int) :
    ∃ n : Numeral, n.Spelled (Decimal.signed i) ∧ n.Names (.integer i) := by
  have spelled (negative : Bool) :=
    @Spelled.intro negative _ _ _ _ _ (Decimal.digits_run i.natAbs) .absent .absent
  by_cases negative : i < 0
  · refine ⟨⟨true, Decimal.digits i.natAbs, none, none⟩, ?_, .integer ?_ (by omega)⟩
    · rw [Decimal.signed, if_pos negative]
      simpa using spelled true
    · have same : -(i.natAbs : Int) = i := by omega
      simp only [integer?, Decimal.value_digits, if_true, same]
  · refine ⟨⟨false, Decimal.digits i.natAbs, none, none⟩, ?_, .integer ?_ fun _ => rfl⟩
    · rw [Decimal.signed, if_neg negative]
      simpa using spelled false
    · have same : (i.natAbs : Int) = i := by omega
      simp only [integer?, Decimal.value_digits, Bool.false_eq_true, if_false, same]

end Json.Numeral

namespace Double

open Json (Numeral)

namespace Scientific

variable {s : Scientific}

private def Pointed (s : Scientific) (text : List Char) : Prop :=
  ∃ whole fraction, Numeral.Whole whole ∧ Numeral.Digits fraction ∧
    text = whole ++ '.' :: fraction ∧
    (Decimal.value (whole ++ fraction) : ℚ) * 10 ^ (-fraction.length : Int) = s.value

/-- A decimal that is zero has no power, and the digits of any other do not begin with zero. -/
private def Proper (s : Scientific) : Prop :=
  s = ⟨0, 0⟩ ∨ 0 < s.digits

private theorem Proper.of_zero (proper : s.Proper)
    (front : (Decimal.digits s.digits).head? = some '0') : s = ⟨0, 0⟩ := by
  refine proper.resolve_right fun positive => ?_
  have read := Decimal.value_digits s.digits
  rw [Decimal.digits_zero front] at read
  exact Nat.ne_of_lt positive read

private theorem digits_zeros (count : Nat) : ∀ c ∈ List.replicate count '0', c.isDigit = true := by
  intro c found
  rw [List.eq_of_mem_replicate found]
  rfl

private theorem pointed_after (proper : s.Proper) (power : 0 ≤ s.power) :
    s.Pointed (Decimal.digits s.digits ++ List.replicate s.power.toNat '0' ++ ['.', '0']) := by
  obtain ⟨nonempty, digits⟩ := (Decimal.digits_run s.digits).1
  refine ⟨_, ['0'], ⟨⟨?_, ?_⟩, fun front => ?_⟩,
    ⟨List.cons_ne_nil _ _, List.forall_mem_singleton.2 rfl⟩, rfl, ?_⟩
  · exact List.append_ne_nil_of_left_ne_nil nonempty _
  · exact List.forall_mem_append.2 ⟨digits, digits_zeros _⟩
  · rw [List.head?_append_of_ne_nil _ nonempty] at front
    rw [proper.of_zero front]
    rfl
  · obtain ⟨count, same⟩ := Int.eq_ofNat_of_zero_le power
    have once : List.replicate count '0' ++ ['0'] = List.replicate (count + 1) '0' :=
      List.replicate_succ'.symm
    rw [value, same, Int.toNat_natCast, List.append_assoc, once, Decimal.value_digits_append_zeros]
    push_cast
    rw [List.length_singleton, Nat.cast_one, zpow_neg_one, zpow_natCast, pow_succ]
    field_simp

private theorem pointed_among (proper : s.Proper) {places : Nat} (negative : 0 < places)
    (power : s.power = -places) (few : places < (Decimal.digits s.digits).length) :
    s.Pointed ((Decimal.digits s.digits).take ((Decimal.digits s.digits).length - places) ++
      '.' :: (Decimal.digits s.digits).drop ((Decimal.digits s.digits).length - places)) := by
  obtain ⟨nonempty, digits⟩ := (Decimal.digits_run s.digits).1
  refine ⟨_, _, ⟨⟨?_, fun c found => digits c (List.mem_of_mem_take found)⟩, fun front => ?_⟩,
    ⟨?_, fun c found => digits c (List.mem_of_mem_drop found)⟩, rfl, ?_⟩
  · rw [Ne, List.take_eq_nil_iff]
    rintro (none | none)
    · omega
    · exact nonempty none
  · rw [List.head?_take, if_neg (by omega)] at front
    rw [proper.of_zero front] at power
    have none : (0 : Int) = -places := power
    omega
  · rw [Ne, List.drop_eq_nil_iff]
    omega
  · have count : (Decimal.digits s.digits).length - ((Decimal.digits s.digits).length - places) =
        places := by omega
    rw [List.take_append_drop, Decimal.value_digits, List.length_drop, count, value, power]

private theorem pointed_before {places : Nat} (power : s.power = -places)
    (many : (Decimal.digits s.digits).length ≤ places) :
    s.Pointed ('0' :: '.' :: (List.replicate (places - (Decimal.digits s.digits).length) '0' ++
      Decimal.digits s.digits)) := by
  obtain ⟨nonempty, digits⟩ := (Decimal.digits_run s.digits).1
  refine ⟨['0'], _, ⟨⟨List.cons_ne_nil _ _, List.forall_mem_singleton.2 rfl⟩, fun _ => rfl⟩,
    ⟨?_, ?_⟩, rfl, ?_⟩
  · exact List.append_ne_nil_of_right_ne_nil _ nonempty
  · exact List.forall_mem_append.2 ⟨digits_zeros _, digits⟩
  · have count : places - (Decimal.digits s.digits).length + (Decimal.digits s.digits).length =
        places := by omega
    rw [← List.append_assoc, ← List.replicate_one, ← List.replicate_add,
      Decimal.value_zeros_append, Decimal.value_digits, List.length_append, List.length_replicate,
      count, value, power]

private theorem pointed_positional (proper : s.Proper) : s.Pointed s.positional := by
  unfold positional
  dsimp only
  split
  · next power => exact pointed_after proper power
  · next below =>
    have power : s.power = -((-s.power).toNat : Int) := by omega
    have negative : 0 < (-s.power).toNat := by omega
    split
    · next few => exact pointed_among proper negative power few
    · next many => exact pointed_before power (Nat.not_lt.1 many)

private theorem exponentText (e : Int) :
    Numeral.ExponentText (some e)
      ('e' :: (if e < 0 then '-' else '+') :: Decimal.digits e.natAbs) := by
  have digits := (Decimal.digits_run e.natAbs).1
  by_cases negative : e < 0
  · have text := Numeral.ExponentText.power (.inl rfl) .minus digits
    rw [Decimal.value_digits, if_pos rfl, show -(e.natAbs : Int) = e by omega] at text
    rw [if_pos negative]
    exact text
  · have text := Numeral.ExponentText.power (.inl rfl) .plus digits
    rw [Decimal.value_digits, if_neg Bool.false_ne_true, show (e.natAbs : Int) = e by omega] at text
    rw [if_neg negative]
    exact text

private theorem exists_withExponent (s : Scientific) :
    ∃ whole fraction fractionText exponentText, Numeral.Whole whole ∧
      Numeral.FractionText fraction fractionText ∧
      Numeral.ExponentText (some s.exponent) exponentText ∧
      s.withExponent = whole ++ (fractionText ++ exponentText) ∧
      (Decimal.value (whole ++ fraction.getD []) : ℚ) *
        10 ^ (s.exponent - (fraction.getD []).length) = s.value := by
  obtain ⟨nonempty, digits⟩ := (Decimal.digits_run s.digits).1
  have read := Decimal.value_digits s.digits
  have lone (c : Char) (digit : c.isDigit = true) : Numeral.Whole [c] :=
    ⟨⟨List.cons_ne_nil _ _, List.forall_mem_singleton.2 digit⟩, fun front => by
      rw [Option.some.inj front]⟩
  unfold withExponent
  match run : Decimal.digits s.digits with
  | [] => exact absurd run nonempty
  | [first] =>
    rw [run] at digits read
    have power : s.exponent - ([] : List Char).length = s.power := by
      rw [exponent, run, List.length_singleton, List.length_nil]
      omega
    refine ⟨[first], none, [], _, lone first (digits first List.mem_cons_self), .absent,
      exponentText s.exponent, rfl, ?_⟩
    rw [Option.getD_none, power, List.append_nil, read, value]
  | first :: second :: more =>
    rw [run] at digits read
    obtain ⟨digit, others⟩ := List.forall_mem_cons.1 digits
    have power : s.exponent - (second :: more).length = s.power := by
      rw [exponent, run, List.length_cons (a := first)]
      omega
    refine ⟨[first], some (second :: more), _, _, lone first digit,
      .digits ⟨List.cons_ne_nil _ _, others⟩, exponentText s.exponent, ?_, ?_⟩
    · simp only [List.cons_append, List.nil_append]
    · rw [Option.getD_some, power, List.singleton_append, read, value]

end Scientific

private theorem spelled_withSign (d : Double) {n : Numeral} {text : List Char}
    (spelled : Numeral.Spelled n ((if d.negative then ['-'] else []) ++ text)) :
    n.Spelled (d.withSign text) := by
  unfold withSign
  cases negative : d.negative with
  | true =>
    rw [negative] at spelled
    exact spelled
  | false =>
    rw [negative] at spelled
    exact spelled

private theorem names_documentText (d : Double) (finite : d.isFinite = true) :
    ∃ n : Numeral, n.Spelled d.documentText ∧ n.Names (.double d finite) := by
  have nearest := nearest_shortest finite documentLayout.tie
  have proper := shortest_cases d documentLayout.tie
  unfold documentText
  dsimp only
  generalize d.shortest documentLayout.tie = s at nearest proper ⊢
  split
  · obtain ⟨whole, fraction, digits, others, text, same⟩ := Scientific.pointed_positional proper
    have spelled := @Numeral.Spelled.intro d.negative _ _ _ _ _ digits (.digits others) .absent
    rw [List.append_nil, ← text] at spelled
    refine ⟨_, spelled_withSign d spelled, .double rfl rfl ?_⟩
    rw [Numeral.value, Option.getD_some, Option.getD_none, zero_sub, same]
    exact nearest
  · obtain ⟨whole, fraction, fractionText, exponentText, digits, others, power, text, same⟩ :=
      s.exists_withExponent
    have spelled := @Numeral.Spelled.intro d.negative _ _ _ _ _ digits others power
    rw [← text] at spelled
    refine ⟨_, spelled_withSign d spelled, .double ?_ rfl ?_⟩
    · cases fraction <;> rfl
    · rw [Numeral.value, Option.getD_some, same]
      exact nearest

end Double

/-- Every number is written as a numeral that names it. -/
theorem Json.Numeral.exists_names (n : Json.Number) :
    ∃ numeral : Json.Numeral, numeral.Spelled (Json.Written.number n) ∧ numeral.Names n := by
  cases n with
  | integer i => exact Json.Numeral.names_signed i
  | double d finite => exact Double.names_documentText d finite

end NativeCall
