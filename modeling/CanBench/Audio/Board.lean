/-
The audio output: `audio_single_pwm_v1_0.vhd` with its `S00_AXI` and its `M00_AXI`.

Word 2 is the period and word 3 the duration of the one pulse generator that drives the
speaker.  The example master beside it, with a clock and a reset of its own, has its
trigger tied to '0'.

A sample is a duration: `speaker_samples` says when what is written to word 3 is played,
and that nothing of it is cut or left over.  Whatever its bus does, the master stays
silent.
-/
import CanBench.Pwm.Core
import CanBench.Axi.TestMaster

namespace CanBench.Audio

open Lib Axi Pwm PwmCore

/-- `v(audio_pwm_width-1 downto 0)`. -/
def pwmField (v : BitVec 32) : BitVec 24 := v.extractLsb' 0 24

def core : PwmCore 6 4 1 24 where
  bank := RegBank.plain 6 4
  ratio := fun slvReg => pwmField (slvReg 2)
  duration := fun slvReg _ => pwmField (slvReg 3)

def speakerPwmOut (b : Board 6 4 1 24) (i : SlaveIn 6) : Bool := core.pwmOut b i 0

/-! ### The master -/

/-- `C_M00_AXI_TRANSACTIONS_NUM`. -/
def transactionsNum : Nat := 4

/-- `C_M00_AXI_START_DATA_VALUE`. -/
def startDataValue : BitVec 32 := 0xAA000000#32

/-- The master's ports that are not tied. -/
structure MasterIn where
  bus : Coprocessor.M00Bus
  aresetn : Bool

/-- `m00_axi_init_axi_txn <= '0'`. -/
def MasterIn.ports (i : MasterIn) : TestMasterIn :=
  { i.bus with aresetn := i.aresetn, initAxiTxn := false }

/-- Runs of the master from a reset; further resets may follow. -/
def masterSystem : System (TestMaster transactionsNum) MasterIn where
  init := fun s => ∃ s₀ i, i.aresetn = false ∧ s = TestMaster.next s₀ i startDataValue
  allowed := fun _ _ => True
  next := fun s i => s.next i.ports startDataValue

theorem master_asleep {h : List (TestMaster transactionsNum × MasterIn)}
    {s : TestMaster transactionsNum} (r : Run masterSystem h s) : s.Asleep := by
  refine r.invariant ?_ ?_
  · rintro s ⟨s₀, i, hi, rfl⟩
    exact TestMaster.asleep_of_reset s₀ i startDataValue hi
  · intro s i hs _
    exact hs.next startDataValue rfl

/-! ### The speaker -/

/--
**A sample is played whole, and nothing else is.**  From a clock that starts a period on,
until a reset: the next period starts `P` clocks later, and until then the speaker is high
in the first `d + 1` clocks if `d` is not 0 and low otherwise, where `P` and `d` are what
the register file held in that first clock.  The core's master never offers an address or a
word, and reports neither completion nor error.
-/
theorem speaker_samples :
    (∀ (h : List (WatchedBoard 6 4 1 24 × SlaveIn 6)) (s : WatchedBoard 6 4 1 24),
      Run core.system h s → ∀ e₀ l, e₀ :: l <:+: h → (∀ e ∈ e₀ :: l, e.2.aresetn = true) →
        core.pwmCycleStart e₀.1.board e₀.2 = true → ∀ P d,
        (pwmField (e₀.1.watch.served.file 2)).toNat = P →
        (pwmField (e₀.1.watch.served.file 3)).toNat = d →
        ∀ j e, (e₀ :: l)[j]? = some e → j ≤ max 1 P →
          core.pwmCycleStart e.1.board e.2 = decide (j = 0 ∨ j = max 1 P) ∧
          (j < max 1 P → speakerPwmOut e.1.board e.2 = decide (0 < d ∧ j ≤ d))) ∧
    ∀ (h : List (TestMaster transactionsNum × MasterIn)) (s : TestMaster transactionsNum),
      Run masterSystem h s → s.axiAwvalid = false ∧ s.axiWvalid = false ∧
        s.axiArvalid = false ∧ s.compareDone = false ∧ s.error = false := by
  refine ⟨?_, ?_⟩
  · intro h s r e₀ l hseg hreset ht P d hP hd j e he hj
    exact pulses r hseg hreset ht 0 he hP hd hj
  · intro h s r
    have hs := master_asleep r
    exact ⟨hs.axiAwvalid, hs.axiWvalid, hs.axiArvalid, hs.compareDone, hs.error⟩

/-- A master that takes every answer at once and writes a word. -/
def writeWord (awaddr : BitVec 6) (wdata : BitVec 32) (valid : Bool) : SlaveIn 6 where
  aresetn := true
  awaddr := awaddr
  awvalid := valid
  wdata := wdata
  wstrb := 0xf#4
  wvalid := valid
  bready := true
  araddr := 0#6
  arvalid := false
  rready := true

/-- A period of 3, a sample of 1, and in the period that plays it a sample of 0. -/
def sampleInputs : List (SlaveIn 6) :=
  List.replicate 2 (writeWord 0x08#6 3#32 true) ++ List.replicate 2 (writeWord 0x0c#6 1#32 true)
    ++ List.replicate 1 (writeWord 0 0 false) ++ List.replicate 4 (writeWord 0x0c#6 0#32 true)

def afterReset : WatchedBoard 6 4 1 24 where
  watch := Watched.reset core.bank
  pwm := { cntDiv := zero, pulseGen := fun _ => zero, held := fun _ => false }

/-- The `k`-th step of that run. -/
def sampleStep (k : Nat) : WatchedBoard 6 4 1 24 × SlaveIn 6 :=
  (core.system.runFrom afterReset (sampleInputs.take k), sampleInputs.getD k (writeWord 0 0 false))

theorem speaker_samples_one :
    (pwmField ((sampleStep 7).1.watch.served.file 3)).toNat = 0 ∧
    speakerPwmOut (sampleStep 6).1.board (sampleStep 6).2 = true ∧
    speakerPwmOut (sampleStep 7).1.board (sampleStep 7).2 = false ∧
    core.pwmCycleStart (sampleStep 8).1.board (sampleStep 8).2 = true := by
  have hrun := System.run_of_steps core.system sampleInputs (Run.start (s := afterReset) rfl)
    (by decide +kernel)
  have hsamples := speaker_samples.1 _ _ hrun (sampleStep 5)
    [sampleStep 6, sampleStep 7, sampleStep 8]
    ⟨core.system.steps afterReset (sampleInputs.take 5), [], rfl⟩
    (by decide +kernel) (by decide +kernel) 3 1 (by decide +kernel) (by decide +kernel)
  refine ⟨by decide +kernel, ?_, ?_, ?_⟩
  · rw [(hsamples 1 _ rfl (by decide)).2 (by decide)]
    decide
  · rw [(hsamples 2 _ rfl (by decide)).2 (by decide)]
    decide
  · rw [(hsamples 3 _ rfl (by decide)).1]
    decide

end CanBench.Audio
