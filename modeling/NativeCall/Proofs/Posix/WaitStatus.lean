import Mathlib.Tactic.IntervalCases
import NativeCall.Posix.WaitStatus

/-!
The layout of status words. Masks, a shift with sign and a narrowing read a word: `decode_layout`
puts what they find in terms of the bytes of the word as a number without sign, and shows that
whatever is laid out in a word is read back from it.
-/

set_option autoImplicit false
set_option relaxedAutoImplicit false

namespace NativeCall.Posix.WaitStatus

def word (raw : Int32) : Nat :=
  raw.toBitVec.toNat

private theorem word_and (raw mask : Int32) : word (raw &&& mask) = word raw &&& word mask := by
  rw [word, Int32.toBitVec_and, BitVec.toNat_and]
  rfl

private theorem word_low (raw : Int32) : word (low raw) = word raw % 128 := by
  rw [low, word_and]
  exact Nat.and_two_pow_sub_one_eq_mod (word raw) 7

private theorem word_and_byte (raw : Int32) : word (raw &&& 0xff) = word raw % 256 := by
  rw [word_and]
  exact Nat.and_two_pow_sub_one_eq_mod (word raw) 8

private theorem word_and_bytes (raw : Int32) : word (raw &&& 0xffff) = word raw % 65536 := by
  rw [word_and]
  exact Nat.and_two_pow_sub_one_eq_mod (word raw) 16

private theorem sshiftRight_and_byte (x : BitVec 32) :
    x.sshiftRight 8 &&& 255#32 = x >>> 8 &&& 255#32 := by
  apply BitVec.eq_of_getLsbD_eq
  intro i inside
  have mask : (255#32).getLsbD i = decide (i < 8) := by
    interval_cases i <;> rfl
  rw [BitVec.getLsbD_and, BitVec.getLsbD_and, mask]
  by_cases kept : i < 8
  · have within : 8 + i < 32 := by omega
    have below : ¬ 32 ≤ i := by omega
    rw [BitVec.getLsbD_sshiftRight, BitVec.getLsbD_ushiftRight, if_pos within]
    simp only [below, decide_false, Bool.not_false, Bool.true_and]
  · simp only [kept, decide_false, Bool.and_false]

private theorem word_second (raw : Int32) : word (second raw) = word raw / 256 % 256 := by
  have shifted : (second raw).toBitVec = raw.toBitVec >>> 8 &&& 255#32 := by
    rw [second, Int32.toBitVec_and, Int32.toBitVec_shiftRight]
    exact sshiftRight_and_byte raw.toBitVec
  rw [word, shifted, BitVec.toNat_and, BitVec.toNat_ushiftRight, Nat.shiftRight_eq_div_pow]
  exact Nat.and_two_pow_sub_one_eq_mod (word raw / 2 ^ 8) 8

private theorem toInt_of_small {raw : Int32} (small : word raw < 2 ^ 31) :
    raw.toInt = word raw := by
  apply BitVec.toInt_eq_toNat_of_lt
  change 2 * word raw < 2 ^ 32
  omega

private theorem toNatClampNeg_of_small {raw : Int32} (small : word raw < 2 ^ 31) :
    raw.toNatClampNeg = word raw := by
  have number := toInt_of_small small
  rw [Int32.toNatClampNeg, number, Int.toNat_natCast]

private theorem eq_iff_word_eq {a b : Int32} : a = b ↔ word a = word b := by
  rw [word, word, BitVec.toNat_inj, Int32.toBitVec_inj]

private theorem isExit_iff (raw : Int32) : isExit raw = true ↔ word raw % 128 = 0 := by
  rw [isExit, beq_iff_eq, eq_iff_word_eq, word_low]
  rfl

private theorem isEnd_iff (raw : Int32) :
    isEnd raw = true ↔ 1 ≤ word raw % 128 ∧ word raw % 128 ≤ 126 := by
  have bound : word raw % 128 < 128 := Nat.mod_lt _ (by decide)
  have number : (low raw).toInt = (word raw % 128 : Nat) := by
    rw [← word_low]
    apply toInt_of_small
    rw [word_low]
    omega
  have one : (1 : Int32).toInt = 1 := rfl
  have two : (2 : Int8).toInt = 2 := rfl
  rw [isEnd, decide_eq_true_iff, Int8.le_iff_toInt_le, Int32.toInt_toInt8, Int32.toInt_add, number,
    one, two]
  generalize word raw % 128 = bits at bound
  have sum : ((bits : Int) + 1).bmod (2 ^ 32) = bits + 1 :=
    Int.bmod_eq_of_le (by omega) (by omega)
  rw [sum]
  by_cases full : bits = 127
  · have wrapped : ((bits : Int) + 1).bmod (2 ^ 8) = -128 := by
      rw [full]
      rfl
    omega
  · have kept : ((bits : Int) + 1).bmod (2 ^ 8) = bits + 1 :=
      Int.bmod_eq_of_le (by omega) (by omega)
    omega

private theorem isStop_iff (raw : Int32) : isStop raw = true ↔ word raw % 256 = 127 := by
  rw [isStop, beq_iff_eq, eq_iff_word_eq, word_and_byte]
  rfl

private theorem decode_eq (raw : Int32) :
    decode raw =
      if word raw % 128 = 0 then exited (word raw / 256 % 256)
      else if word raw % 128 ≤ 126 then signaled (word raw % 128)
      else if word raw % 256 = 127 then stopped (word raw / 256 % 256)
      else other := by
  have low_number : (low raw).toNatClampNeg = word raw % 128 := by
    rw [← word_low]
    apply toNatClampNeg_of_small
    rw [word_low]
    omega
  have second_number : (second raw).toNatClampNeg = word raw / 256 % 256 := by
    rw [← word_second]
    apply toNatClampNeg_of_small
    rw [word_second]
    omega
  simp only [decode, isExit_iff, isEnd_iff, isStop_iff, low_number, second_number]
  by_cases exits : word raw % 128 = 0
  · simp only [exits, if_true]
  · have positive : 1 ≤ word raw % 128 := Nat.pos_of_ne_zero exits
    simp only [exits, positive, if_false, true_and]

private theorem decode_congr {raw raw' : Int32} (same : word raw % 65536 = word raw' % 65536) :
    decode raw = decode raw' := by
  have bits : word raw % 128 = word raw' % 128 := by omega
  have byte : word raw % 256 = word raw' % 256 := by omega
  have next : word raw / 256 % 256 = word raw' / 256 % 256 := by omega
  rw [decode_eq, decode_eq, bits, byte, next]

private theorem decode_eq_exited_iff (raw : Int32) (code : Nat) :
    decode raw = exited code ↔ word raw % 128 = 0 ∧ word raw / 256 % 256 = code := by
  rw [decode_eq]
  split_ifs with exits <;> simp [exits]

private theorem decode_eq_signaled_iff (raw : Int32) (signal : Nat) :
    decode raw = signaled signal ↔ word raw % 128 = signal ∧ 1 ≤ signal ∧ signal ≤ 126 := by
  rw [decode_eq]
  split_ifs with exits ends
  · have none : ¬ (word raw % 128 = signal ∧ 1 ≤ signal ∧ signal ≤ 126) := by omega
    simp only [none]
  · have found : word raw % 128 = signal ↔
        word raw % 128 = signal ∧ 1 ≤ signal ∧ signal ≤ 126 := by omega
    rw [signaled.injEq]
    exact found
  all_goals
    have none : ¬ (word raw % 128 = signal ∧ 1 ≤ signal ∧ signal ≤ 126) := by omega
    simp only [none]

private theorem decode_eq_stopped_iff (raw : Int32) (signal : Nat) :
    decode raw = stopped signal ↔ word raw % 256 = 127 ∧ word raw / 256 % 256 = signal := by
  rw [decode_eq]
  split_ifs with exits ends stops
  · have none : word raw % 256 ≠ 127 := by omega
    simp only [none, false_and]
  · have none : word raw % 256 ≠ 127 := by omega
    simp only [none, false_and]
  · simp only [stopped.injEq, stops, true_and]
  · simp only [stops, false_and]

private theorem decode_eq_other_iff (raw : Int32) : decode raw = other ↔ word raw % 256 = 255 := by
  rw [decode_eq]
  split_ifs with exits ends stops
  all_goals
    simp only [false_iff, true_iff]
    omega

private theorem number_le {raw : Int32} {n : Nat} (found : (decode raw).number? = some n) :
    n ≤ 255 := by
  rw [decode_eq] at found
  split_ifs at found with exits ends stops
  · obtain rfl := Option.some.inj found
    omega
  · obtain rfl := Option.some.inj found
    omega
  · obtain rfl := Option.some.inj found
    omega
  · cases found

/-- The bits of a word that tell a success from anything else. -/
theorem word_and_failure (raw : Int32) :
    word raw &&& 0xff7f = 0 ↔ word raw % 128 = 0 ∧ word raw / 256 % 256 = 0 := by
  have low : word raw &&& 0x7f = word raw % 128 := Nat.and_two_pow_sub_one_eq_mod (word raw) 7
  have shifted : (word raw &&& 0xff00) / 256 = word raw / 256 % 256 := by
    have kept : (word raw &&& 0xff00) >>> 8 = word raw >>> 8 &&& 0xff :=
      Nat.shiftRight_and_distrib
    rw [Nat.shiftRight_eq_div_pow, Nat.shiftRight_eq_div_pow] at kept
    exact kept.trans (Nat.and_two_pow_sub_one_eq_mod (word raw / 2 ^ 8) 8)
  have dropped : (word raw &&& 0xff00) % 256 = 0 := by
    have none : (word raw &&& 0xff00) % 2 ^ 8 = word raw % 2 ^ 8 &&& 0 := Nat.and_mod_two_pow
    rwa [Nat.and_zero] at none
  have split : word raw &&& 0xff7f = (word raw &&& 0x7f) ||| (word raw &&& 0xff00) :=
    Nat.and_or_distrib_left (word raw) 0x7f 0xff00
  rw [split, Nat.or_eq_zero_iff, low]
  omega

private theorem success_iff (raw : Int32) : (decode raw).success = true ↔ raw &&& 0xff7f = 0 := by
  rw [success, beq_iff_eq, decode_eq_exited_iff, eq_iff_word_eq, word_and]
  exact (word_and_failure raw).symm

/-- The word with these two low bytes, whatever stands above them. -/
def ofBytes (upper second low : Nat) : Int32 :=
  Int32.ofNat (upper * 65536 + second * 256 + low)

private theorem word_ofBytes (upper : Nat) {second low : Nat} (second_le : second ≤ 255)
    (low_le : low ≤ 255) : word (ofBytes upper second low) % 65536 = second * 256 + low := by
  rw [word, ofBytes, Int32.toBitVec_ofNat', BitVec.toNat_ofNat]
  omega

/-- A word is decoded by its two low bytes, whatever its sign: bits that are all zero mean an exit,
a number of seven bits between them and all ones a signal that ended the child, and the byte `0x7f`
a stop. The numbers that the parts of a word hold are bytes without sign, and what is laid out in a
word is decoded from it. -/
theorem decode_layout (raw : Int32) :
    (low raw).toInt = (word raw % 128 : Nat) ∧
    (second raw).toInt = (word raw / 256 % 256 : Nat) ∧
    (∀ raw' : Int32, raw' &&& 0xffff = raw &&& 0xffff → decode raw' = decode raw) ∧
    (∀ code, decode raw = exited code ↔
      word raw % 128 = 0 ∧ word raw / 256 % 256 = code) ∧
    (∀ signal, decode raw = signaled signal ↔
      word raw % 128 = signal ∧ 1 ≤ signal ∧ signal ≤ 126) ∧
    (∀ signal, decode raw = stopped signal ↔
      word raw % 256 = 0x7f ∧ word raw / 256 % 256 = signal) ∧
    (decode raw = other ↔ word raw % 256 = 0xff) ∧
    (∀ n, (decode raw).number? = some n → n ≤ 255) ∧
    ((decode raw).success = true ↔ raw &&& 0xff7f = 0) ∧
    (∀ upper code, code ≤ 255 → decode (ofBytes upper code 0) = exited code) ∧
    (∀ upper above signal, ∀ core : Bool, above ≤ 255 → 1 ≤ signal → signal ≤ 126 →
      decode (ofBytes upper above (signal + if core then 0x80 else 0)) = signaled signal) ∧
    (∀ upper signal, signal ≤ 255 → decode (ofBytes upper signal 0x7f) = stopped signal) := by
  refine ⟨?_, ?_, ?_, decode_eq_exited_iff raw, decode_eq_signaled_iff raw,
    decode_eq_stopped_iff raw, decode_eq_other_iff raw, fun n => number_le, success_iff raw,
    ?_, ?_, ?_⟩
  · rw [← word_low]
    apply toInt_of_small
    rw [word_low]
    omega
  · rw [← word_second]
    apply toInt_of_small
    rw [word_second]
    omega
  · intro raw' same
    apply decode_congr
    rw [← word_and_bytes, ← word_and_bytes, same]
  · intro upper code code_le
    have bytes := word_ofBytes upper code_le (Nat.zero_le 255)
    rw [decode_eq_exited_iff]
    omega
  · intro upper above signal core above_le signal_pos signal_le
    have low_le : signal + (if core then 0x80 else 0) ≤ 255 := by
      cases core <;> simp only [if_true, Bool.false_eq_true, if_false] <;> omega
    have bytes := word_ofBytes upper above_le low_le
    have bits : (signal + if core then 0x80 else 0) % 128 = signal := by
      cases core <;> simp only [if_true, Bool.false_eq_true, if_false] <;> omega
    rw [decode_eq_signaled_iff]
    omega
  · intro upper signal signal_le
    have bytes := word_ofBytes upper signal_le (show 0x7f ≤ 255 by decide)
    rw [decode_eq_stopped_iff]
    omega

example : decode (-129) = stopped 255 := by decide

end NativeCall.Posix.WaitStatus
