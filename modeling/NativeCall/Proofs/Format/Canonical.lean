import NativeCall.Proofs.Format.Grammar

/-!
The canonical form of a shape. It is read back as the shape, provided that every count is one digit,
and it is the one shortest text of that meaning: a spelling of the same shape can only have zeros in
addition, and part by part each zero makes it longer.
-/

set_option autoImplicit false
set_option relaxedAutoImplicit false

namespace NativeCall.Format

open Text

/-- A text that is shorter than another, unless it is the same. -/
def Trims (short long : List Char) : Prop :=
  short.length ≤ long.length ∧ (short.length = long.length → short = long)

namespace Trims

theorem refl (text : List Char) : Trims text text :=
  ⟨Nat.le_refl _, fun _ => rfl⟩

private theorem of_length_lt {short long : List Char} (shorter : short.length < long.length) :
    Trims short long :=
  ⟨Nat.le_of_lt shorter, fun same => absurd same (Nat.ne_of_lt shorter)⟩

theorem append {short long short' long' : List Char} (front : Trims short long)
    (back : Trims short' long') : Trims (short ++ short') (long ++ long') := by
  obtain ⟨le, eq⟩ := front
  obtain ⟨le', eq'⟩ := back
  unfold Trims
  simp only [List.length_append]
  refine ⟨by omega, fun same => ?_⟩
  rw [eq (by omega), eq' (by omega)]

end Trims

private theorem toNat_digitCount {n : Nat} (small : n < 10) :
    (digitCount n.digitChar).toNat = n := by
  rw [digitCount, Nat.toNat_digitChar_sub_48_of_lt_ten small, UInt8.toNat_ofNat']
  omega

private theorem digits_digitCount {c : Char} (digit : c.isDigit = true) :
    Decimal.digits (digitCount c).toNat = [c] := by
  obtain ⟨n, small, rfl⟩ := Grammar.exists_digitChar digit
  rw [toNat_digitCount small, Decimal.digits, Nat.toDigits_of_lt_base small]

private theorem digits_eq_singleton {count : UInt8} (small : count ≤ 9) :
    ∃ c, Decimal.digits count.toNat = [c] ∧ c.isDigit = true ∧ digitCount c = count := by
  have small : count.toNat < 10 := Nat.lt_succ_of_le (UInt8.le_iff_toNat_le.1 small)
  refine ⟨count.toNat.digitChar, Nat.toDigits_of_lt_base small, ?_, ?_⟩
  · rw [Nat.isDigit_digitChar, decide_eq_true small]
  · exact UInt8.toNat_inj.1 (toNat_digitCount small)

private theorem digitCount_le {c : Char} (digit : c.isDigit = true) : digitCount c ≤ 9 := by
  obtain ⟨n, small, rfl⟩ := Grammar.exists_digitChar digit
  rw [UInt8.le_iff_toNat_le, toNat_digitCount small]
  exact Nat.le_of_lt_succ small

private theorem countAt_le {run : List Char} (digits : ∀ c ∈ run, c.isDigit = true) (i : Nat) :
    countAt run i ≤ 9 := by
  unfold countAt
  cases found : run[i]? with
  | none => decide
  | some c => exact digitCount_le (digits c (List.mem_of_getElem? found))

/-- Only one digit can be read as a count, so larger counts are not read back. -/
theorem Spells.counts_le {text : List Char} {format : Format} (spells : Spells text format) :
    format.leading ≤ 9 ∧ format.optional ≤ 9 ∧ format.trailing ≤ 9 := by
  cases spells with
  | intro before after rest keywords block digits digits' two one placed =>
    exact ⟨countAt_le digits 0, countAt_le digits 1, countAt_le digits' 0⟩

def showsOptional (format : Format) : Bool :=
  0 < format.optional || format.trailingIsThird

def showsLeading (format : Format) : Bool :=
  0 < format.leading || format.showsOptional

private theorem encode_eq (format : Format) :
    format.encode = (count format.showsLeading format.leading
        ++ count format.showsOptional format.optional) ++ shown format.rest '*'
      ++ count (0 < format.trailing) format.trailing
      ++ shown format.keywords ':' ++ shown format.block '&' := by
  simp only [encode, showsLeading, showsOptional, shown, Bool.or_assoc]

private theorem count_hidden {shows : Bool} (hidden : shows = false) (n : UInt8) :
    count shows n = [] := by
  rw [count, hidden]
  rfl

private theorem showsLeading_of_showsOptional {format : Format}
    (shows : format.showsOptional = true) : format.showsLeading = true := by
  rw [showsLeading, shows, Bool.or_true]

private theorem eq_zero_of_hidden {n : UInt8} {more : Bool}
    (hidden : (decide (0 < n) || more) = false) : n = 0 ∧ more = false := by
  rw [Bool.or_eq_false_iff, decide_eq_false_iff_not] at hidden
  refine ⟨?_, hidden.2⟩
  exact UInt8.le_antisymm (UInt8.not_lt.1 hidden.1) UInt8.zero_le

/-- The digits before the place of `*` in the canonical form stand for the first two counts. -/
theorem count_append_count {format : Format} (leading : format.leading ≤ 9)
    (optional : format.optional ≤ 9) :
    ∃ run,
      count format.showsLeading format.leading ++ count format.showsOptional format.optional = run ∧
      (∀ c ∈ run, c.isDigit = true) ∧ run.length ≤ 2 ∧ countAt run 0 = format.leading ∧
      countAt run 1 = format.optional ∧ (format.showsOptional = true → run.length = 2) := by
  obtain ⟨a, writesA, digitA, countA⟩ := digits_eq_singleton leading
  obtain ⟨b, writesB, digitB, countB⟩ := digits_eq_singleton optional
  cases second : format.showsOptional with
  | true =>
    have first := showsLeading_of_showsOptional second
    refine ⟨[a, b], ?_, by simp [digitA, digitB], Nat.le_refl _, countA, countB, fun _ => rfl⟩
    rw [first, count, count, if_pos rfl, if_pos rfl, writesA, writesB]
    rfl
  | false =>
    obtain ⟨noOptional, -⟩ := eq_zero_of_hidden second
    rw [count_hidden rfl, List.append_nil]
    cases first : format.showsLeading with
    | true =>
      refine ⟨[a], ?_, by simpa using digitA, by simp, countA, noOptional.symm,
        fun no => nomatch no⟩
      rw [count, if_pos rfl, writesA]
    | false =>
      obtain ⟨noLeading, -⟩ := eq_zero_of_hidden first
      exact ⟨[], count_hidden rfl _, by simp, by simp, noLeading.symm, noOptional.symm,
        fun no => nomatch no⟩

private theorem count_trailing {n : UInt8} (small : n ≤ 9) :
    ∃ run, count (0 < n) n = run ∧ (∀ c ∈ run, c.isDigit = true) ∧ run.length ≤ 1 ∧
      countAt run 0 = n ∧ (run = [] ∨ 0 < n) := by
  obtain ⟨c, writes, digit, counts⟩ := digits_eq_singleton small
  by_cases positive : 0 < n
  · refine ⟨[c], ?_, by simpa using digit, by simp, counts, .inr positive⟩
    rw [count, decide_eq_true positive, if_pos rfl, writes]
  · have zero : n = 0 := UInt8.le_antisymm (UInt8.not_lt.1 positive) UInt8.zero_le
    exact ⟨[], count_hidden (decide_eq_false positive) n, by simp, by simp, zero.symm, .inl rfl⟩

private theorem spells_encode {format : Format} (leading : format.leading ≤ 9)
    (optional : format.optional ≤ 9) (trailing : format.trailing ≤ 9) :
    Spells format.encode format := by
  obtain ⟨before, writes, digits, two, first, second, full⟩ := count_append_count leading optional
  obtain ⟨after, writes', digits', one, last, ends⟩ := count_trailing trailing
  have placed : format.rest = true ∨ before.length = 2 ∨ after = [] := by
    cases marked : format.rest with
    | true => exact .inl rfl
    | false =>
      rcases ends with nothing | positive
      · exact .inr (.inr nothing)
      · -- without the mark, a trailing count makes the canonical form write all three
        refine .inr (.inl (full ?_))
        simp only [showsOptional, trailingIsThird, positive, marked, decide_true, Bool.not_false,
          Bool.and_true, Bool.or_true]
  have spells := Spells.intro before after format.rest format.keywords format.block
    digits digits' two one placed
  rw [first, second, last] at spells
  rw [encode_eq, writes, writes']
  exact spells

private theorem trims_count {c : Char} (digit : c.isDigit = true) (shows : Bool) :
    Trims (count shows (digitCount c)) [c] := by
  cases shows with
  | true =>
    rw [count, if_pos rfl, digits_digitCount digit]
    exact .refl _
  | false => exact .of_length_lt (by simp [count])

private theorem trims_trailing {run : List Char} (digits : ∀ c ∈ run, c.isDigit = true)
    (one : run.length ≤ 1) : Trims (count (0 < countAt run 0) (countAt run 0)) run := by
  match run, digits, one with
  | [], _, _ => exact .refl []
  | [c], digits, _ => exact trims_count (digits c (by simp)) _
  | _ :: _ :: _, _, one => simp at one

/-- The canonical form leaves out zeros at the end of the first run, if no third digit needs
them. -/
theorem trims_first {run : List Char} (digits : ∀ c ∈ run, c.isDigit = true)
    (two : run.length ≤ 2) {third : Bool} (placed : third = true → run.length = 2) :
    let second := decide (0 < countAt run 1) || third
    Trims (count (decide (0 < countAt run 0) || second) (countAt run 0)
      ++ count second (countAt run 1)) run := by
  match run, digits, two, placed with
  | [], _, _, placed =>
    have needless : third = false :=
      Bool.eq_false_iff.2 fun needed => absurd (placed needed) (by simp)
    rw [needless]
    exact .refl []
  | [a], digits, _, placed =>
    have needless : third = false :=
      Bool.eq_false_iff.2 fun needed => absurd (placed needed) (by simp)
    rw [needless]
    have alone := trims_count (digits a (by simp)) (decide (0 < digitCount a) || false)
    exact alone.append (.refl [])
  | [a, b], digits, _, _ =>
    intro second
    cases shows : second with
    | true =>
      rw [Bool.or_true]
      exact (trims_count (digits a (by simp)) true).append (trims_count (digits b (by simp)) true)
    | false =>
      -- the second digit goes, so it does not matter whether the first one stays
      refine .of_length_lt ?_
      have one := (trims_count (digits a (by simp)) (decide (0 < digitCount a) || false)).1
      rw [count_hidden rfl, List.append_nil]
      exact Nat.lt_succ_of_le one
  | _ :: _ :: _ :: _, _, two, _ => simp at two

/-- Every spelling of a shape is longer than its canonical form, or is that form. -/
theorem trims_encode {text : List Char} {format : Format} (spells : Spells text format) :
    Trims format.encode text := by
  cases spells with
  | intro before after rest keywords block digits digits' two one placed =>
    have third : (decide (0 < countAt after 0) && !rest) = true → before.length = 2 := by
      intro needed
      rw [Bool.and_eq_true, Bool.not_eq_true'] at needed
      obtain ⟨positive, unmarked⟩ := needed
      rcases placed with marked | full | rfl
      · rw [unmarked] at marked
        cases marked
      · exact full
      · exact absurd positive (by decide)
    have first := trims_first digits two third
    have last := trims_trailing digits' one
    rw [encode_eq]
    exact first.append (.refl _) |>.append last |>.append (.refl _) |>.append (.refl _)

private theorem parse_render_iff (format : Format) :
    parse format.render = .ok format ↔
      format.leading ≤ 9 ∧ format.optional ≤ 9 ∧ format.trailing ≤ 9 := by
  rw [parse_eq_ok_iff, render, String.toList_ofList]
  constructor
  · exact Spells.counts_le
  · rintro ⟨leading, optional, trailing⟩
    exact spells_encode leading optional trailing

theorem parse_render {text : String} {format : Format} (read : parse text = .ok format) :
    parse format.render = .ok format :=
  (parse_render_iff format).2 ((parse_eq_ok_iff text format).1 read).counts_le

/-- The canonical form has the meaning of the text that it stands for, and is the only text of that
meaning that is not longer. Shapes are told apart by it. It is read back for all shapes whose counts
have one digit, and for no others. -/
theorem render_canonical :
    (∀ text format, parse text = .ok format →
      parse format.render = .ok format ∧ format.render.length ≤ text.length ∧
        (format.render.length = text.length → format.render = text)) ∧
    (∀ text text' format format', parse text = .ok format → parse text' = .ok format' →
      (format = format' ↔ format.render = format'.render)) ∧
    ∀ format : Format, parse format.render = .ok format ↔
      format.leading ≤ 9 ∧ format.optional ≤ 9 ∧ format.trailing ≤ 9 := by
  refine ⟨fun text format read => ?_, fun text text' format format' read read' => ?_,
    parse_render_iff⟩
  · obtain ⟨shorter, same⟩ := trims_encode ((parse_eq_ok_iff text format).1 read)
    rw [render, String.length_ofList, ← String.length_toList]
    refine ⟨parse_render read, shorter, fun equal => ?_⟩
    rw [same equal, String.ofList_toList]
  · constructor
    · exact congrArg render
    · intro alike
      have one := parse_render read
      rw [alike] at one
      exact Except.ok.inj (one.symm.trans (parse_render read'))

theorem render_canonical_zeros :
    let format : Format := ⟨0, 0, true, 3, true, false⟩
    let format' : Format := ⟨0, 0, false, 3, false, true⟩
    parse "00*3:" = .ok format ∧ parse "003&" = .ok format' ∧
      parse format.render = .ok format ∧ format.render.length ≤ "00*3:".length ∧
      format'.render = "003&" ∧ (format = format' ↔ format.render = format'.render) := by
  intro format format'
  have read : parse "00*3:" = .ok format := by decide
  have read' : parse "003&" = .ok format' := by decide
  obtain ⟨canonical, apart, -⟩ := render_canonical
  obtain ⟨back, shorter, -⟩ := canonical _ _ read
  obtain ⟨-, -, same⟩ := canonical _ _ read'
  exact ⟨read, read', back, shorter, same (by decide), apart _ _ _ _ read read'⟩

end NativeCall.Format
