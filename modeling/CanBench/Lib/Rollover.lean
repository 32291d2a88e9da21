/-
Extending a short counter by an estimate of the long one.

A count `T` is known only by its low `w` bits, because the register that holds it rolls
over; beside it there is an estimate of the whole count.  `nearest est low` is the count
closest to the estimate that has these low bits: the estimate plus the signed difference
of the low halves.  It is `T` as soon as the estimate is off by less than half a rollover,
whatever number of rollovers have gone by.

Counts are integers here, and a word holds one when it is its residue, `BitVec.ofInt`.
-/
import Mathlib

namespace Lib

theorem ofInt_sub (n : Nat) (x y : Int) :
    BitVec.ofInt n (x - y) = BitVec.ofInt n x - BitVec.ofInt n y := by
  have hadd : BitVec.ofInt n (x - y) + BitVec.ofInt n y = BitVec.ofInt n x := by
    rw [← BitVec.ofInt_add, Int.sub_add_cancel]
  rw [← hadd, BitVec.add_sub_cancel]

/-- Adding to a word rolls over. -/
theorem toNat_add_ofInt {n : Nat} (c : BitVec n) (z : Int) :
    ((c + BitVec.ofInt n z).toNat : Int) = (c.toNat + z) % 2 ^ n := by
  have hpos : (0 : Int) < 2 ^ n := by positivity
  rw [BitVec.toNat_add, BitVec.toNat_ofInt]
  push_cast
  rw [Int.toNat_of_nonneg (Int.emod_nonneg _ hpos.ne'), Int.add_emod_emod]

/-- What was added to a word, modulo its size. -/
theorem toNat_sub_modEq {n : Nat} {x y : BitVec n} {z : Int} (h : y = x + BitVec.ofInt n z) :
    (y.toNat : Int) - x.toNat ≡ z [ZMOD 2 ^ n] := by
  have hdiff := (Int.mod_modEq (x.toNat + z) (2 ^ n)).sub_right (x.toNat : Int)
  rw [← toNat_add_ofInt, ← h, add_sub_cancel_left] at hdiff
  exact hdiff

/-- The low bits of a residue are the residue for the shorter word. -/
theorem setWidth_ofInt {w n : Nat} (hwn : w ≤ n) (x : Int) :
    (BitVec.ofInt n x).setWidth w = BitVec.ofInt w x := by
  have hdvd : ((2 ^ w : Nat) : Int) ∣ ((2 ^ n : Nat) : Int) :=
    Int.natCast_dvd_natCast.mpr (pow_dvd_pow 2 hwn)
  have hpos : (0 : Int) < ((2 ^ n : Nat) : Int) := by exact_mod_cast Nat.two_pow_pos n
  have hsub : ((2 ^ n : Nat) : Int) ∣ x % ((2 ^ n : Nat) : Int) - x :=
    Int.dvd_emod_sub_self
  apply BitVec.eq_of_toInt_eq
  rw [BitVec.toInt_ofInt, BitVec.toInt_setWidth, BitVec.toNat_ofInt,
    Int.toNat_of_nonneg (Int.emod_nonneg _ (by omega))]
  apply Int.bmod_eq_bmod_iff_bmod_sub_eq_zero.mpr
  exact Int.bmod_eq_zero_of_dvd (hdvd.trans hsub)

/-- A small residue keeps its sign in a longer word. -/
theorem signExtend_ofInt {w n : Nat} (hw : 0 < w) {x : Int}
    (hlo : -2 ^ (w - 1) ≤ x) (hhi : x < 2 ^ (w - 1)) :
    (BitVec.ofInt w x).signExtend n = BitVec.ofInt n x := by
  show BitVec.ofInt n (BitVec.ofInt w x).toInt = BitVec.ofInt n x
  rw [BitVec.toInt_ofInt_eq_self hw hlo hhi]

/-- The count nearest to `est` whose low bits are `low`. -/
def nearest {n w : Nat} (est : BitVec n) (low : BitVec w) : BitVec n :=
  est + (low - est.setWidth w).signExtend n

/--
**The estimate is corrected to the count.**  An estimate less than half a rollover away
from `T` and the low bits of `T` give `T`.
-/
theorem nearest_ofInt {n w : Nat} (hw : 0 < w) (hwn : w ≤ n) {est T : Int}
    (hlo : -2 ^ (w - 1) ≤ T - est) (hhi : T - est < 2 ^ (w - 1)) :
    nearest (BitVec.ofInt n est) (BitVec.ofInt w T) = BitVec.ofInt n T := by
  have hdiff : BitVec.ofInt w T - (BitVec.ofInt n est).setWidth w
      = BitVec.ofInt w (T - est) := by
    rw [setWidth_ofInt hwn, ofInt_sub]
  unfold nearest
  rw [hdiff, signExtend_ofInt hw hlo hhi, ← BitVec.ofInt_add, add_sub_cancel]

end Lib
