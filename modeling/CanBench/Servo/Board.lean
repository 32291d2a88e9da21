/-
The servo controller: `servo_led_ps2_v1_0.vhd` with its `S00_AXI`.

Word 3 is the period and words 4 to 7 the durations of the four servos.  Word 0 has the
polarity of each output and the enable of the fourth, which is otherwise not driven; it
acts in the clock it is written in, while the pulses run on the words their period started
with.
-/
import CanBench.Pwm.Core

namespace CanBench.Servo

open Lib Axi Pwm PwmCore

/-- `v(servo_pwm_width-1 downto 0)`. -/
def pwmField (v : BitVec 32) : BitVec 24 := v.extractLsb' 0 24

/-- The word with the duration of servo `k + 1`. -/
def dutyLoc : Fin 4 → BitVec 3
  | 0 => 4
  | 1 => 5
  | 2 => 6
  | 3 => 7

def core : PwmCore 5 3 4 24 where
  bank := RegBank.plain 5 3
  ratio := fun slvReg => pwmField (slvReg 3)
  duration := fun slvReg k => pwmField (slvReg (dutyLoc k))

/-- An output, from word 0 and the pulse; `none` is 'Z'. -/
def drive (sReg0 : BitVec 32) (k : Fin 4) (servoPwm : Bool) : Option Bool :=
  if k.val = 3 then
    if sReg0.getLsbD 8 then some (sReg0.getLsbD 3 ^^ servoPwm) else none
  else some (sReg0.getLsbD k.val ^^ servoPwm)

/-- `SERVO1` to `SERVO4`. -/
def servo (b : Board 5 3 4 24) (i : SlaveIn 5) (k : Fin 4) : Option Bool :=
  drive (b.s00.slvReg 0) k (core.pwmOut b i k)

/--
**Every pulse is the one software last asked for.**  From a clock that starts a period on,
until a reset: the next period starts `P` clocks later, and until then output `k` is the
inverse of its polarity in the first `d k + 1` clocks if `d k` is not 0 and its polarity
otherwise, where `P` and `d k` are the fields of what the register file held in that first
clock.  Whatever is written in the meantime, only word 0 shows.
-/
theorem servo_pulses {h : List (WatchedBoard 5 3 4 24 × SlaveIn 5)} {s : WatchedBoard 5 3 4 24}
    (r : Run core.system h s) {e₀ : WatchedBoard 5 3 4 24 × SlaveIn 5}
    {l : List (WatchedBoard 5 3 4 24 × SlaveIn 5)} (hseg : e₀ :: l <:+: h)
    (hreset : ∀ e ∈ e₀ :: l, e.2.aresetn = true)
    (ht : core.pwmCycleStart e₀.1.board e₀.2 = true) {P : Nat} {d : Fin 4 → Nat}
    (hP : (pwmField (e₀.1.watch.served.file 3)).toNat = P)
    (hd : ∀ k, (pwmField (e₀.1.watch.served.file (dutyLoc k))).toNat = d k) :
    ∀ j e, (e₀ :: l)[j]? = some e → j ≤ max 1 P →
      core.pwmCycleStart e.1.board e.2 = decide (j = 0 ∨ j = max 1 P) ∧
      (j < max 1 P → ∀ k, servo e.1.board e.2 k
        = drive (e.1.watch.served.file 0) k (decide (0 < d k ∧ j ≤ d k))) := by
  intro j e he hj
  have hfile := slvReg_eq_file r e (hseg.subset (List.mem_of_getElem? he))
  have hpulse := fun k => pulses r hseg hreset ht k he hP (hd k) hj
  refine ⟨(hpulse 0).1, ?_⟩
  intro hlt k
  rw [servo, (hpulse k).2 hlt, ← hfile]
  rfl

/-- A master that takes every answer at once and writes a word. -/
def writeWord (awaddr : BitVec 5) (wdata : BitVec 32) (valid : Bool) : SlaveIn 5 where
  aresetn := true
  awaddr := awaddr
  awvalid := valid
  wdata := wdata
  wstrb := 0xf#4
  wvalid := valid
  bready := true
  araddr := 0#5
  arvalid := false
  rready := true

/-- A period of 3 and a duration of 1 for the first servo, and some clocks. -/
def servoInputs : List (SlaveIn 5) :=
  List.replicate 2 (writeWord 0x0c#5 3#32 true) ++ List.replicate 2 (writeWord 0x10#5 1#32 true)
    ++ List.replicate 5 (writeWord 0x10#5 1#32 false)

def afterReset : WatchedBoard 5 3 4 24 where
  watch := Watched.reset core.bank
  pwm := { cntDiv := zero, pulseGen := fun _ => zero, held := fun _ => false }

/-- The `k`-th step of that run. -/
def servoStep (k : Nat) : WatchedBoard 5 3 4 24 × SlaveIn 5 :=
  (core.system.runFrom afterReset (servoInputs.take k), servoInputs.getD k (writeWord 0 0 false))

theorem servo_pulses_of_one :
    servo (servoStep 6).1.board (servoStep 6).2 0 = some true ∧
    servo (servoStep 7).1.board (servoStep 7).2 0 = some false ∧
    core.pwmCycleStart (servoStep 8).1.board (servoStep 8).2 = true := by
  have hrun := System.run_of_steps core.system servoInputs (Run.start (s := afterReset) rfl)
    (by decide +kernel)
  have hpulses := servo_pulses hrun
    (show [servoStep 5, servoStep 6, servoStep 7, servoStep 8]
        <:+: core.system.steps afterReset servoInputs from
      ⟨core.system.steps afterReset (servoInputs.take 5), [], rfl⟩)
    (by decide +kernel) (by decide +kernel) (P := 3) (d := fun k => if k = 0 then 1 else 0)
    (by decide +kernel) (by decide +kernel)
  refine ⟨?_, ?_, ?_⟩
  · rw [(hpulses 1 _ rfl (by decide)).2 (by decide) 0]
    decide +kernel
  · rw [(hpulses 2 _ rfl (by decide)).2 (by decide) 0]
    decide +kernel
  · rw [(hpulses 3 _ rfl (by decide)).1]
    decide

end CanBench.Servo
