/-
Fields of a word.

A mask made of consecutive ones is `bits`, and its bits are decided by a comparison of
positions.  A codec written with masks and shifts is then compared position by position,
with nothing but inequalities left to settle.
-/
import Mathlib

namespace Lib

/-- The `len` bits from bit `lo` on. -/
def bits (n lo len : Nat) : BitVec n := BitVec.ofNat n (2 ^ len - 1) <<< lo

theorem getLsbD_bits (n lo len i : Nat) :
    (bits n lo len).getLsbD i = decide (i < n ∧ lo ≤ i ∧ i < lo + len) := by
  unfold bits
  rw [BitVec.getLsbD_shiftLeft, BitVec.getLsbD_ofNat, Nat.testBit_two_pow_sub_one,
    Bool.eq_iff_iff]
  simp only [Bool.and_eq_true, Bool.not_eq_true', decide_eq_true_eq, decide_eq_false_iff_not]
  omega

/-- A small word has nothing above it. -/
theorem getLsbD_of_toNat_lt {n : Nat} {x : BitVec n} {len i : Nat} (hx : x.toNat < 2 ^ len)
    (hi : len ≤ i) : x.getLsbD i = false :=
  Nat.testBit_lt_two_pow (Nat.lt_of_lt_of_le hx (Nat.pow_le_pow_right (by omega) hi))

/-- What is above a field of `n` bits, shifted down. -/
theorem append_ushiftRight {m n : Nat} (hi : BitVec m) (lo : BitVec n) :
    (hi ++ lo) >>> n = hi.setWidth (m + n) := by
  apply BitVec.eq_of_getLsbD_eq
  intro i hi'
  rw [BitVec.getLsbD_ushiftRight, BitVec.getLsbD_append, BitVec.getLsbD_setWidth,
    if_neg (by omega), Nat.add_sub_cancel_left, decide_eq_true hi', Bool.true_and]

end Lib
