import Ryll.Foundation.Buffer

/-!
# Machine words

Shifts of fixed-width words, which fault when the amount reaches the width, and words read from
bytes with the least significant byte first.
-/

namespace Ryll

variable {ε : Type} {width : Nat}

def shlChecked (width value amount : Nat) : Outcome ε Nat :=
  if amount < width then .ok (value <<< amount % 2 ^ width) else .fault .shift

def shlWord (word : BitVec width) (amount : Nat) : Outcome ε (BitVec width) :=
  if amount < width then .ok (word <<< amount) else .fault .shift

def shrWord (word : BitVec width) (amount : Nat) : Outcome ε (BitVec width) :=
  if amount < width then .ok (word >>> amount) else .fault .shift

def littleEndianWord (b0 b1 b2 b3 : UInt8) : BitVec 32 :=
  BitVec.ofNat 32 b0.toNat ||| BitVec.ofNat 32 b1.toNat <<< 8 |||
    BitVec.ofNat 32 b2.toNat <<< 16 ||| BitVec.ofNat 32 b3.toNat <<< 24

def wordAt (bytes : Bytes) (start : Nat) : Option (BitVec 32) :=
  match bytes[start]?, bytes[start + 1]?, bytes[start + 2]?, bytes[start + 3]? with
  | some b0, some b1, some b2, some b3 => some (littleEndianWord b0 b1 b2 b3)
  | _, _, _, _ => none

variable {value amount : Nat}

theorem shlChecked_ok (small : amount < width) :
    (shlChecked width value amount : Outcome ε Nat) = .ok (value <<< amount % 2 ^ width) :=
  if_pos small

theorem shlWord_ok {word : BitVec width} (small : amount < width) :
    (shlWord word amount : Outcome ε (BitVec width)) = .ok (word <<< amount) :=
  if_pos small

theorem shrWord_ok {word : BitVec width} (small : amount < width) :
    (shrWord word amount : Outcome ε (BitVec width)) = .ok (word >>> amount) :=
  if_pos small

theorem and_highMask {low high : Nat} (fits : value < 2 ^ (low + high)) :
    value &&& (2 ^ high - 1) <<< low = value / 2 ^ low * 2 ^ low := by
  rw [← Nat.shiftRight_eq_div_pow, ← Nat.shiftLeft_eq]
  refine Nat.eq_of_testBit_eq fun index => ?_
  rw [Nat.testBit_and, Nat.testBit_shiftLeft, Nat.testBit_shiftLeft, Nat.testBit_two_pow_sub_one,
    Nat.testBit_shiftRight]
  by_cases above : low ≤ index
  · rw [Nat.add_sub_cancel' above]
    by_cases inside : index < low + high
    · simp [above, show index - low < high by omega]
    · have clear : value.testBit index = false :=
        Nat.testBit_lt_two_pow (fits.trans_le (Nat.pow_le_pow_right (by decide) (by omega)))
      simp [clear]
  · simp [above]

theorem and_highMask_eq_zero {low high : Nat} (fits : value < 2 ^ (low + high)) :
    value &&& (2 ^ high - 1) <<< low = 0 ↔ value < 2 ^ low := by
  rw [and_highMask fits, Nat.mul_eq_zero, Nat.div_eq_zero_iff]
  have positive := Nat.two_pow_pos low
  omega

theorem word_and_highMask_eq_zero (low high : Nat) (word : BitVec (low + high)) :
    word &&& BitVec.ofNat _ ((2 ^ high - 1) <<< low) = 0 ↔ word.toNat < 2 ^ low := by
  have mask_fits : (2 ^ high - 1) <<< low < 2 ^ (low + high) := by
    rw [Nat.shiftLeft_eq, Nat.pow_add, Nat.mul_comm]
    exact Nat.mul_lt_mul_of_pos_left (Nat.sub_lt (Nat.two_pow_pos high) (by decide))
      (Nat.two_pow_pos low)
  rw [← and_highMask_eq_zero word.isLt, ← BitVec.toNat_inj, BitVec.toNat_and, BitVec.toNat_ofNat,
    Nat.mod_eq_of_lt mask_fits]
  simp

end Ryll
