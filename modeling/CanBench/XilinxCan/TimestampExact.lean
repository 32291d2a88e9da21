/-
How far the reconstructed frame times are from the true ones.

`xcan_timestamp2ktime` divides the time since the reference by the length of a tick, to
have an estimate of the tick count, corrects the estimate to the count nearest to it with
the low half that the controller has stamped, and multiplies by the length of a tick
again.  The estimate may be off by half a rollover of the 16-bit counter: `Lib.nearest_ofInt`
then makes the count exact, for any number of rollovers and on both sides of the reference.

So the count of ticks is right, and what is left is the length of a tick.  `xcan_probe`
rounds 10^9 / freq down.  Where `freq` divides 10^9 nothing is lost.  Where it does not,
every tick since the reference loses the same fraction of a nanosecond, and after
(10^9 + freq) / (10^9 mod freq) ticks and one more the loss is over a tick and a nanosecond.
-/
import CanBench.Lib.Rollover
import CanBench.XilinxCan.Timestamp

namespace CanBench.XilinxCan

open Lib

/-! ### The count of ticks -/

theorem cantimeAdj_eq (est : BitVec 64) (ts : BitVec 16) :
    est + (cantimeAdj est ts).signExtend 64 = nearest est ts := by
  have hmask : (est &&& 0xFFFF#64).setWidth 16 = est.setWidth 16 := by
    rw [BitVec.setWidth_and]
    exact BitVec.and_allOnes
  unfold cantimeAdj nearest
  rw [hmask]

/-- `div_u64` of a time that fits 64 bits. -/
theorem ofNat_div_setWidth {d : Nat} (hd : d < 2 ^ 64) (mul : BitVec 32) :
    BitVec.ofNat 64 d / mul.setWidth 64 = BitVec.ofNat 64 (d / mul.toNat) := by
  have hmul : mul.toNat < 2 ^ 64 := Nat.lt_trans mul.isLt (by norm_num)
  have hquot : d / mul.toNat < 2 ^ 64 := Nat.lt_of_le_of_lt (Nat.div_le_self _ _) hd
  apply BitVec.eq_of_toNat_eq
  rw [BitVec.toNat_udiv, BitVec.toNat_ofNat, BitVec.toNat_ofNat, BitVec.toNat_setWidth,
    Nat.mod_eq_of_lt hd, Nat.mod_eq_of_lt hmul, Nat.mod_eq_of_lt hquot]

/-- A register's value is the residue of the number it stands for. -/
theorem setWidth_eq_ofInt {w n : Nat} (v : BitVec w) :
    v.setWidth n = BitVec.ofInt n (v.toNat : Int) := by
  rw [BitVec.ofInt_natCast, BitVec.ofNat_toNat]

/-- With a reference set, the frame `T` ticks after it is `T` tick lengths after it, when
the clock is less than half a rollover from there. -/
theorem xcanTimestamp2ktime_ticks {f : ClockFactors} (hshr : f.cantime2nsShr = 0)
    {ref : XcanTimepoint} (hset : ref.ktime ≠ 0#64) {d : Nat} (hd : d < 2 ^ 64) {T : Int}
    (hlo : -32768 ≤ T - (d / f.cantime2nsMul.toNat : Nat))
    (hhi : T - (d / f.cantime2nsMul.toNat : Nat) ≤ 32767) :
    xcanTimestamp2ktime f ref (ref.ktime + BitVec.ofNat 64 d) (ref.ts + BitVec.ofInt 16 T)
      = (ref, ref.ktime + BitVec.ofInt 64 (T * f.cantime2nsMul.toNat)) := by
  have hest : (ref.ktime + BitVec.ofNat 64 d - ref.ktime) / f.cantime2nsMul.setWidth 64
        + ref.ts.setWidth 64
      = BitVec.ofInt 64 ((d / f.cantime2nsMul.toNat : Nat) + (ref.ts.toNat : Int)) := by
    rw [BitVec.add_comm ref.ktime, BitVec.add_sub_cancel, ofNat_div_setWidth hd,
      BitVec.ofInt_add, BitVec.ofInt_natCast, setWidth_eq_ofInt]
  have hts : ref.ts + BitVec.ofInt 16 T = BitVec.ofInt 16 (T + ref.ts.toNat) := by
    rw [BitVec.ofInt_add, BitVec.ofInt_natCast, BitVec.ofNat_toNat, BitVec.add_comm,
      BitVec.setWidth_eq]
  have hcount : nearest (BitVec.ofInt 64 ((d / f.cantime2nsMul.toNat : Nat) + (ref.ts.toNat : Int)))
      (BitVec.ofInt 16 (T + ref.ts.toNat)) = BitVec.ofInt 64 (T + ref.ts.toNat) := by
    apply nearest_ofInt (by norm_num) (by norm_num)
    · norm_num; omega
    · norm_num; omega
  have hticks : BitVec.ofInt 64 (T + ref.ts.toNat) - ref.ts.setWidth 64 = BitVec.ofInt 64 T := by
    rw [setWidth_eq_ofInt, ← ofInt_sub, add_sub_cancel_right]
  unfold xcanTimestamp2ktime
  rw [if_neg hset]
  simp only [cantimeAdj_eq]
  rw [hest, hts, hcount, hticks, hshr, setWidth_eq_ofInt, ← BitVec.ofInt_mul]
  rfl

/-- The call that sets the reference. -/
theorem xcanTimestamp2ktime_install (f : ClockFactors) {ref : XcanTimepoint}
    (hunset : ref.ktime = 0#64) (now : BitVec 64) (ts : BitVec 16) :
    xcanTimestamp2ktime f ref now ts = ({ ktime := now, ts := ts }, now) := by
  have hnear : nearest ((now - now) / f.cantime2nsMul.setWidth 64 + ts.setWidth 64) ts
      = ts.setWidth 64 := by
    rw [BitVec.sub_self, BitVec.zero_udiv, BitVec.zero_add]
    unfold nearest
    have hlow : (ts.setWidth 64).setWidth 16 = ts := by
      rw [BitVec.setWidth_setWidth_of_le _ (by norm_num), BitVec.setWidth_eq]
    rw [hlow, BitVec.sub_self]
    exact BitVec.add_zero _
  unfold xcanTimestamp2ktime
  rw [if_pos hunset]
  simp only [cantimeAdj_eq]
  rw [hnear, BitVec.sub_self, BitVec.zero_mul, BitVec.zero_ushiftRight, BitVec.add_zero]

/-! ### A tick that is a whole number of nanoseconds -/

theorem xcanProbeFactors_mul (freq : BitVec 32) :
    (xcanProbeFactors freq).cantime2nsMul.toNat = 10 ^ 9 / freq.toNat := by
  rfl

/--
**Timestamps are exact across rollovers.**  At a frequency that divides 10^9, a frame that
the controller stamped `T` ticks after the reference gets the reference's time and `T`
ticks, as long as the clock is read less than half a rollover from there.  The call that
finds no reference sets it, and returns the time it was made.
-/
theorem xcanTimestamp2ktime_exact (freq : BitVec 32) (hfreq : freq.toNat ∣ 10 ^ 9)
    (ref : XcanTimepoint) (now : BitVec 64) (ts : BitVec 16) :
    (ref.ktime = 0#64 →
      xcanTimestamp2ktime (xcanProbeFactors freq) ref now ts
        = ({ ktime := now, ts := ts }, now)) ∧
    ∀ (mul : Nat), mul = (xcanProbeFactors freq).cantime2nsMul.toNat →
      mul * freq.toNat = 10 ^ 9 ∧
      ∀ (T : Int) (d : Nat), ref.ktime ≠ 0#64 →
        now.toInt = ref.ktime.toInt + d →
        (ts.toNat : Int) = (ref.ts.toNat + T) % 65536 →
        -32768 ≤ T - (d / mul : Nat) → T - (d / mul : Nat) ≤ 32767 →
        xcanTimestamp2ktime (xcanProbeFactors freq) ref now ts
            = (ref, BitVec.ofInt 64 (ref.ktime.toInt + T * mul)) ∧
        (-2 ^ 63 ≤ ref.ktime.toInt + T * mul → ref.ktime.toInt + T * mul < 2 ^ 63 →
          (xcanTimestamp2ktime (xcanProbeFactors freq) ref now ts).2.toInt
            = ref.ktime.toInt + T * mul) := by
  refine ⟨fun hunset => xcanTimestamp2ktime_install _ hunset now ts, ?_⟩
  intro mul hmul
  refine ⟨by rw [hmul, xcanProbeFactors_mul, Nat.div_mul_cancel hfreq], ?_⟩
  intro T d hset hnow hts hlo hhi
  have hd : d < 2 ^ 64 := by
    have h1 := now.toInt_lt
    have h2 := ref.ktime.le_toInt
    norm_num at h1 h2
    omega
  have hnow' : now = ref.ktime + BitVec.ofNat 64 d := by
    rw [← BitVec.ofInt_toInt (x := now), hnow, BitVec.ofInt_add, BitVec.ofInt_toInt,
      BitVec.ofInt_natCast]
  have hts' : ts = ref.ts + BitVec.ofInt 16 T := by
    apply BitVec.eq_of_toNat_eq
    rw [BitVec.toNat_add, BitVec.toNat_ofInt]
    norm_num
    omega
  have hval : xcanTimestamp2ktime (xcanProbeFactors freq) ref now ts
      = (ref, BitVec.ofInt 64 (ref.ktime.toInt + T * mul)) := by
    rw [hmul] at hlo hhi ⊢
    rw [hnow', hts', xcanTimestamp2ktime_ticks rfl hset hd hlo hhi, BitVec.ofInt_add,
      BitVec.ofInt_toInt]
  refine ⟨hval, fun hmin hmax => ?_⟩
  rw [hval]
  exact BitVec.toInt_ofInt_eq_self (by norm_num) hmin hmax

/-- At 20 MHz: 70000 ticks after the reference, past a rollover, with a clock that is read
10 ticks before the frame's own time. -/
theorem xcanTimestamp2ktime_exact_20MHz :
    (xcanTimestamp2ktime (xcanProbeFactors 20000000#32) ⟨1000000000#64, 65000#16⟩
      1003499500#64 3928#16).2.toInt = 1000000000 + 70000 * 50 :=
  (((xcanTimestamp2ktime_exact 20000000#32 (by decide) ⟨1000000000#64, 65000#16⟩
    1003499500#64 3928#16).2 50 (by decide)).2 70000 3499500 (by decide) (by decide)
    (by decide) (by decide) (by decide)).2 (by decide) (by decide)

/-! ### A tick that is not -/

/-- The clock as it is when the frame is handled, `d` nanoseconds after the reference. -/
def nowAfter (ref : XcanTimepoint) (d : Nat) : BitVec 64 := ref.ktime + BitVec.ofNat 64 d

/-- What a counter running exactly at `freq` has stamped the frame with. -/
def tsAfter (freq : BitVec 32) (ref : XcanTimepoint) (d : Nat) : BitVec 16 :=
  ref.ts + BitVec.ofNat 16 (d * freq.toNat / 10 ^ 9)

/-- The error of the time the frame gets, in nanoseconds. -/
def ktimeError (freq : BitVec 32) (ref : XcanTimepoint) (d : Nat) : Int :=
  ((xcanTimestamp2ktime (xcanProbeFactors freq) ref (nowAfter ref d) (tsAfter freq ref d)).2
    - nowAfter ref d).toInt

/-- While the tick count and the estimate are close, the error is what the ticks lose. -/
theorem ktimeError_eq {freq : BitVec 32} {ref : XcanTimepoint} (hset : ref.ktime ≠ 0#64)
    {d T m : Nat} (hm : m = 10 ^ 9 / freq.toNat) (hd : d < 2 ^ 63)
    (hT : d * freq.toNat / 10 ^ 9 = T) (hlo : T ≤ d / m) (hhi : d / m ≤ T + 32768) :
    ktimeError freq ref d = (T : Int) * m - d := by
  have hmul : (xcanProbeFactors freq).cantime2nsMul.toNat = m := by
    rw [xcanProbeFactors_mul, hm]
  have hts : tsAfter freq ref d = ref.ts + BitVec.ofInt 16 T := by
    rw [BitVec.ofInt_natCast, ← hT]
    rfl
  have hTm : T * m ≤ d := Nat.le_trans (Nat.mul_le_mul_right m hlo) (Nat.div_mul_le_self d m)
  unfold ktimeError
  rw [hts, nowAfter, xcanTimestamp2ktime_ticks rfl hset (by omega) (by rw [hmul]; omega)
    (by rw [hmul]; omega), hmul]
  show (ref.ktime + BitVec.ofInt 64 (T * m) - (ref.ktime + BitVec.ofNat 64 d)).toInt = _
  rw [add_sub_add_left_eq_sub, ← BitVec.ofInt_natCast, ← ofInt_sub]
  apply BitVec.toInt_ofInt_eq_self (by norm_num)
  · norm_num
    omega
  · norm_num
    omega

/-- With a whole tick the counter stands where the clock puts it. -/
theorem ticks_of_dvd {freq : BitVec 32} (hpos : 0 < freq.toNat) (hdvd : freq.toNat ∣ 10 ^ 9)
    (d : Nat) : d * freq.toNat / 10 ^ 9 = d / (10 ^ 9 / freq.toNat) := by
  have hwhole : 10 ^ 9 / freq.toNat * freq.toNat = 10 ^ 9 := Nat.div_mul_cancel hdvd
  calc d * freq.toNat / 10 ^ 9
      = d * freq.toNat / (10 ^ 9 / freq.toNat * freq.toNat) := by rw [hwhole]
    _ = d / (10 ^ 9 / freq.toNat) := Nat.mul_div_mul_right _ _ hpos

/-- What is lost by rounding the length `N / f` of a tick down, when it is not whole:
there is a moment `d` at which the tick count is `T` and `T` rounded ticks fall short of it
by more than `(N + f) / f`, with the estimate `d / (N / f)` still close to `T`. -/
theorem exists_drift {N f : Nat} (hf : 0 < f) (hfN : f ≤ N) (hndvd : ¬ f ∣ N) :
    ∃ d T, d * f / N = T ∧ d / (N / f) ≤ T + 5 ∧ N + f + T * (N / f) * f < d * f ∧
      d ≤ (2 * N + 1) * N + 1 := by
  have hrec : f * (N / f) + N % f = N := Nat.div_add_mod N f
  have hr : 0 < N % f := Nat.pos_of_ne_zero fun h => hndvd (Nat.dvd_of_mod_eq_zero h)
  have hrf : N % f < f := Nat.mod_lt _ hf
  have hm : 0 < N / f := Nat.div_pos hfN hf
  generalize N / f = m at hrec hm ⊢
  generalize N % f = r at hrec hr hrf
  -- the first count whose loss is over the bound
  obtain ⟨T, hT⟩ : ∃ T, T = (N + f) / r + 1 := ⟨_, rfl⟩
  have hTlo : N + f < T * r := by
    rw [hT, Nat.add_mul, Nat.one_mul]
    exact Nat.lt_div_mul_add hr
  have hThi : T * r ≤ N + f + r := by
    rw [hT, Nat.add_mul, Nat.one_mul]
    have := Nat.div_mul_le_self (N + f) r
    omega
  have hTle : T ≤ 2 * N + 1 := by
    have := Nat.div_le_self (N + f) r
    omega
  have hTN : T * N = T * m * f + T * r := by
    rw [← hrec]; ring
  -- the first moment the counter stands at it
  obtain ⟨d, hd⟩ : ∃ d, d = (T * N + f - 1) / f := ⟨_, rfl⟩
  have hdlo : T * N ≤ d * f := by
    have := Nat.lt_div_mul_add (a := T * N + f - 1) hf
    rw [← hd] at this
    omega
  have hdhi : d * f < T * N + f := by
    have := Nat.div_mul_le_self (T * N + f - 1) f
    rw [← hd] at this
    omega
  refine ⟨d, T, ?_, ?_, by omega, ?_⟩
  · apply Nat.div_eq_of_lt_le hdlo
    rw [Nat.add_mul, Nat.one_mul]
    omega
  · apply Nat.le_of_lt_succ
    rw [Nat.div_lt_iff_lt_mul hm]
    have hfm : f ≤ m * f := Nat.le_mul_of_pos_left f hm
    apply Nat.lt_of_mul_lt_mul_right (a := f)
    have : (T + 5).succ * m * f = T * m * f + 6 * (m * f) := by
      rw [Nat.succ_eq_add_one]; ring
    rw [this]
    have hc : f * m = m * f := Nat.mul_comm _ _
    omega
  · have hpred : (d - 1) * 1 ≤ (d - 1) * f := Nat.mul_le_mul_left (d - 1) hf
    have hTNle : T * N ≤ (2 * N + 1) * N := Nat.mul_le_mul_right N hTle
    rw [Nat.mul_one, Nat.sub_mul, Nat.one_mul] at hpred
    omega

/--
**Precision is lost at every frequency that does not divide 10^9.**  The error stays within
a tick and a nanosecond, however long ago the reference was, exactly when the tick is a
whole number of nanoseconds.
-/
theorem ktimeError_bounded_iff (freq : BitVec 32) (hlo : 1 ≤ freq.toNat)
    (hhi : freq.toNat ≤ 10 ^ 9) (ref : XcanTimepoint) (hset : ref.ktime ≠ 0#64) :
    (∀ d : Nat, d < 2 ^ 63 →
      freq.toNat * (ktimeError freq ref d).natAbs ≤ 10 ^ 9 + freq.toNat) ↔
    freq.toNat ∣ 10 ^ 9 := by
  constructor
  · intro hbound
    by_contra hndvd
    obtain ⟨d, T, hT, hclose, hlost, hd⟩ := exists_drift hlo hhi hndvd
    have hd63 : d < 2 ^ 63 := by
      norm_num at hd ⊢
      omega
    have hm : 0 < 10 ^ 9 / freq.toNat := Nat.div_pos hhi hlo
    have hshort : T * (10 ^ 9 / freq.toNat) < d := by
      apply Nat.lt_of_mul_lt_mul_right (a := freq.toNat)
      omega
    have herr := hbound d hd63
    rw [ktimeError_eq hset rfl hd63 hT ((Nat.le_div_iff_mul_le hm).mpr hshort.le) (by omega)]
      at herr
    have habs : ((T : Int) * (10 ^ 9 / freq.toNat : Nat) - d).natAbs
        = d - T * (10 ^ 9 / freq.toNat) := by
      rw [← Nat.cast_mul]
      omega
    rw [habs, Nat.mul_sub, Nat.mul_comm freq.toNat d,
      Nat.mul_comm freq.toNat (T * (10 ^ 9 / freq.toNat))] at herr
    omega
  · intro hdvd d hd
    have hT := ticks_of_dvd hlo hdvd d
    have hm : 0 < 10 ^ 9 / freq.toNat := Nat.div_pos hhi hlo
    have hmod : d / (10 ^ 9 / freq.toNat) * (10 ^ 9 / freq.toNat) + d % (10 ^ 9 / freq.toNat)
        = d := Nat.div_add_mod' d _
    have hrem : d % (10 ^ 9 / freq.toNat) < 10 ^ 9 / freq.toNat := Nat.mod_lt d hm
    have habs : (((d / (10 ^ 9 / freq.toNat) : Nat) : Int) * (10 ^ 9 / freq.toNat : Nat) - d).natAbs
        = d % (10 ^ 9 / freq.toNat) := by
      rw [← Nat.cast_mul]
      omega
    rw [ktimeError_eq hset rfl hd hT (Nat.le_refl _) (by omega), habs]
    calc freq.toNat * (d % (10 ^ 9 / freq.toNat))
        ≤ freq.toNat * (10 ^ 9 / freq.toNat) := Nat.mul_le_mul_left _ hrem.le
      _ ≤ 10 ^ 9 := Nat.mul_div_le _ _
      _ ≤ 10 ^ 9 + freq.toNat := Nat.le_add_right _ _

/-- At 20 MHz no time is lost. -/
theorem ktimeError_bounded_20MHz :
    20000000 ∣ 10 ^ 9 ∧ ∀ d : Nat, d < 2 ^ 63 →
      20000000 * (ktimeError 20000000#32 ⟨1#64, 0#16⟩ d).natAbs ≤ 10 ^ 9 + 20000000 :=
  ⟨by decide, (ktimeError_bounded_iff 20000000#32 (by decide) (by decide) ⟨1#64, 0#16⟩
    (by decide)).mpr (by decide)⟩

/-- A second after the reference at 24 MHz: the time is 121 856 ns off. -/
theorem ktimeError_24MHz :
    ktimeError 24000000#32 ⟨1#64, 0#16⟩ 1000000000 = 121856 ∧
    ¬ 24000000 * (ktimeError 24000000#32 ⟨1#64, 0#16⟩ 1000000000).natAbs ≤ 10 ^ 9 + 24000000 := by
  decide +kernel

end CanBench.XilinxCan
