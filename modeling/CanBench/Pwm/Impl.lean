/-
The pulse width modulators: `cnt_div` and `pulse_gen`.

`cnt_div` counts enabled clocks down and triggers `pulse_gen`, whose own counter keeps the
output high.  Both are a combinational process and a register that takes its result at the
clock edge, with the same reset and enable; the audio, servo and SPI LED cores have the
same two files and wire them in the same way.

`pulse_gen` does not assign its output while it is disabled, so the output is a latch then
and keeps the value of the clock before.
-/
import Mathlib

namespace CanBench.Pwm

/-- `natural range 0 to (2**width - 1)`. -/
abbrev Count (w : Nat) := Fin (2 ^ w)

variable {w v : Nat}

/-- `to_integer(unsigned(vec))`. -/
def toInteger (vec : BitVec w) : Count w := vec.toFin

def zero : Count w := ⟨0, Nat.two_pow_pos w⟩

/-- `cnt_val_r - 1`, of a count that is not 0. -/
def pred (cntValR : Count w) : Count w :=
  ⟨cntValR.val - 1, Nat.lt_of_le_of_lt (Nat.sub_le _ _) cntValR.isLt⟩

@[simp] theorem toInteger_val (vec : BitVec w) : (toInteger vec).val = vec.toNat := rfl
@[simp] theorem zero_val : (zero : Count w).val = 0 := rfl
@[simp] theorem pred_val (c : Count w) : (pred c).val = c.val - 1 := rfl

/-- The `comb` process of `cnt_div`: `cnt_val_s` and `q_out_o`. -/
def cntDivComb (reset en : Bool) (ratio : BitVec w) (cntValR : Count w) : Count w × Bool :=
  if reset then (toInteger ratio, false)
  else if !en then (cntValR, false)
  else if cntValR.val ≤ 1 then (toInteger ratio, true)
  else (pred cntValR, false)

/-- The `comb` process of `pulse_gen`; `held` is its output in the clock before. -/
def pulseGenComb (reset en trigger : Bool) (duration : BitVec v) (cntValR : Count v)
    (held : Bool) : Count v × Bool :=
  if reset then (zero, false)
  else if !en then (cntValR, held)
  else if trigger then
    (toInteger duration, if (toInteger duration).val = 0 then false else true)
  else if cntValR.val = 0 then (cntValR, false)
  else (pred cntValR, true)

/-- The registers of the pair, and its output in the last clock. -/
structure PwmPair (w v : Nat) where
  cntDiv : Count w
  pulseGen : Count v
  held : Bool
deriving DecidableEq

/-- What the pair is given in a clock. -/
structure PwmIn (w v : Nat) where
  reset : Bool
  en : Bool
  ratio : BitVec w
  duration : BitVec v
deriving DecidableEq

namespace PwmPair

/-- `pwm_cycle_start`. -/
def trigger (s : PwmPair w v) (i : PwmIn w v) : Bool :=
  (cntDivComb i.reset i.en i.ratio s.cntDiv).2

/-- `q_out_o` of `pulse_gen`. -/
def qOut (s : PwmPair w v) (i : PwmIn w v) : Bool :=
  (pulseGenComb i.reset i.en (s.trigger i) i.duration s.pulseGen s.held).2

/-- Both at a clock edge. -/
def next (s : PwmPair w v) (i : PwmIn w v) : PwmPair w v where
  cntDiv := (cntDivComb i.reset i.en i.ratio s.cntDiv).1
  pulseGen := (pulseGenComb i.reset i.en (s.trigger i) i.duration s.pulseGen s.held).1
  held := s.qOut i

/-- What is seen in an enabled clock: whether a period begins, and the output. -/
def observe (s : PwmPair w v) (i : PwmIn w v) : Option (Bool × Bool) :=
  if i.en then some (s.trigger i, s.qOut i) else none

/-! ### The kinds of clock -/

variable {s : PwmPair w v} {i : PwmIn w v}

theorem trigger_eq : s.trigger i = (!i.reset && i.en && decide (s.cntDiv.val ≤ 1)) := by
  unfold trigger cntDivComb
  cases i.reset <;> cases i.en <;> by_cases h : s.cntDiv.val ≤ 1 <;> simp [h]

theorem en_of_trigger (ht : s.trigger i = true) :
    i.reset = false ∧ i.en = true ∧ s.cntDiv.val ≤ 1 := by
  rw [trigger_eq] at ht
  simpa [and_assoc] using ht

theorem not_le_of_not_trigger (hr : i.reset = false) (he : i.en = true)
    (ht : s.trigger i = false) : 1 < s.cntDiv.val := by
  rw [trigger_eq, hr, he] at ht
  simpa using ht

theorem next_reset (hr : i.reset = true) :
    s.next i = { cntDiv := toInteger i.ratio, pulseGen := zero, held := false } := by
  simp [next, qOut, cntDivComb, pulseGenComb, hr]

theorem next_disabled (hr : i.reset = false) (he : i.en = false) : s.next i = s := by
  simp [next, qOut, cntDivComb, pulseGenComb, hr, he]

theorem qOut_reset (hr : i.reset = true) : s.qOut i = false := by
  simp [qOut, pulseGenComb, hr]

theorem qOut_disabled (hr : i.reset = false) (he : i.en = false) : s.qOut i = s.held := by
  simp [qOut, pulseGenComb, hr, he]

theorem qOut_trigger (ht : s.trigger i = true) : s.qOut i = decide (0 < i.duration.toNat) := by
  obtain ⟨hr, he, -⟩ := en_of_trigger ht
  unfold qOut pulseGenComb
  rw [hr, he, ht]
  by_cases hd : i.duration.toNat = 0
  · simp [hd]
  · simp [hd, Nat.pos_iff_ne_zero]

theorem next_trigger (ht : s.trigger i = true) :
    s.next i = { cntDiv := toInteger i.ratio, pulseGen := toInteger i.duration
                 held := decide (0 < i.duration.toNat) } := by
  have hq := qOut_trigger ht
  obtain ⟨hr, he, hle⟩ := en_of_trigger ht
  simp [next, hq, cntDivComb, pulseGenComb, hr, he, hle, ht]

theorem qOut_count (hr : i.reset = false) (he : i.en = true) (ht : s.trigger i = false) :
    s.qOut i = decide (0 < s.pulseGen.val) := by
  unfold qOut pulseGenComb
  rw [hr, he, ht]
  by_cases hp : s.pulseGen.val = 0
  · simp [hp]
  · simp [hp, Nat.pos_iff_ne_zero]

theorem next_count_cntDiv (hr : i.reset = false) (he : i.en = true) (ht : s.trigger i = false) :
    (s.next i).cntDiv.val = s.cntDiv.val - 1 := by
  have hlt := not_le_of_not_trigger hr he ht
  simp [next, cntDivComb, hr, he, Nat.not_le.mpr hlt]

theorem next_count_pulseGen (hr : i.reset = false) (he : i.en = true)
    (ht : s.trigger i = false) : (s.next i).pulseGen.val = s.pulseGen.val - 1 := by
  by_cases hp : s.pulseGen.val = 0
  · simp [next, pulseGenComb, hr, he, ht, hp]
  · simp [next, pulseGenComb, hr, he, ht, hp]

end PwmPair

end CanBench.Pwm
