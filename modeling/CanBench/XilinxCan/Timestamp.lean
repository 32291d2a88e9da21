/-
Hardware timestamps: `xcan_timestamp2ktime`.

`ktime_t` is a signed 64-bit count of nanoseconds, a `BitVec 64` here.  The conversions
are those of the source's types: the tick count is a `u64`, its low half a `u16`, the
correction an `s16` that is sign-extended when it is added back.
-/
import Mathlib

namespace CanBench.XilinxCan

/-- `struct xcan_timepoint`. -/
structure XcanTimepoint where
  ktime : BitVec 64
  ts : BitVec 16
deriving DecidableEq

/-- The conversion factors of `struct xcan_priv`. -/
structure ClockFactors where
  cantime2nsMul : BitVec 32
  cantime2nsShr : BitVec 8
deriving DecidableEq

/-- The factors `xcan_probe` computes from the rate of `can_clk`. -/
def xcanProbeFactors (freq : BitVec 32) : ClockFactors where
  cantime2nsMul := 1000000000#32 / freq
  cantime2nsShr := 0

/-- `xcan_get_timestamp`. -/
def xcanGetTimestamp (dlc : BitVec 32) : BitVec 16 := (dlc &&& 0xFFFF#32).setWidth 16

/-- `cantime_adj`: how far the hardware count is from the one computed from the clock. -/
def cantimeAdj (cantimeFrame : BitVec 64) (ts : BitVec 16) : BitVec 16 :=
  ts - (cantimeFrame &&& 0xFFFF#64).setWidth 16

/-- The reference after a call, and the time of the frame. -/
def xcanTimestamp2ktime (f : ClockFactors) (ref : XcanTimepoint) (ktimeNow : BitVec 64)
    (ts : BitVec 16) : XcanTimepoint × BitVec 64 :=
  let ref := if ref.ktime = 0#64 then { ktime := ktimeNow, ts := ts } else ref
  let cantimeFrame := (ktimeNow - ref.ktime) / f.cantime2nsMul.setWidth 64 + ref.ts.setWidth 64
  let cantimeFrame := cantimeFrame + (cantimeAdj cantimeFrame ts).signExtend 64
  (ref, ref.ktime +
    ((cantimeFrame - ref.ts.setWidth 64) * f.cantime2nsMul.setWidth 64) >>> f.cantime2nsShr.toNat)

end CanBench.XilinxCan
