/-
The PWM coprocessor's bus master: `axi_pwm_coprocessor_v1_0_M00_AXI.vhd`.

A change of `pwm_state_i` raises `INIT_AXI_TXN`, whose rising edge, found two flip-flops
later, is `init_txn_pulse`.  In `IDLE` the pulse starts a burst of
`C_M_TRANSACTIONS_NUM` writes; in any state it clears the handshake registers.  The
definitions are the processes of the file, one each, and `M00.next` runs them on the same
old state.

The stimulus registers `axi_awaddr`, `axi_wdata` and `axi_araddr` are left out: address
and data come from `pwm_wr_addr` and `pwm_wr0..2`, no process reads the three, and of
the ports only `M_AXI_ARADDR` shows one.  `init_txn_edge` is never driven.
-/
import Mathlib

namespace CanBench.Coprocessor

/-! ### The width of the index counters -/

/-- One turn of the loop of `clogb2`, on `depth` and `count`. -/
def clogb2Turn (bitDepth : Nat) (v : Nat × Nat) : Nat × Nat :=
  if bitDepth ≤ 2 then (v.1, 1)
  else if v.1 ≤ 1 then v
  else (v.1 / 2, v.2 + 1)

def clogb2 (bitDepth : Nat) : Nat := ((clogb2Turn bitDepth)^[bitDepth] (bitDepth, 1)).2

/-- `TRANS_NUM_BITS`. -/
def transNumBits (transactionsNum : Nat) : Nat := clogb2 (transactionsNum - 1)

/-- `STD_LOGIC_VECTOR(TO_UNSIGNED(n, TRANS_NUM_BITS+1))`. -/
def toIndex (transactionsNum n : Nat) : BitVec (transNumBits transactionsNum + 1) :=
  BitVec.ofNat _ n

/-! ### Ports and registers -/

inductive MstExecState
  | idle | initWrite | initRead | initCompare
deriving DecidableEq

/-- What the bus slave drives. -/
structure M00Bus where
  awready : Bool
  wready : Bool
  bresp : BitVec 2
  bvalid : Bool
  arready : Bool
  rdata : BitVec 32
  rresp : BitVec 2
  rvalid : Bool

structure M00In extends M00Bus where
  aresetn : Bool
  pwmStateI : BitVec 2
  pwmEnabledI : Bool
  pwmWrAddr : BitVec 32
  pwmWr0 : BitVec 32
  pwmWr1 : BitVec 32
  pwmWr2 : BitVec 32

/-- The registers of a master with `C_M_TRANSACTIONS_NUM => transactionsNum`. -/
structure M00 (transactionsNum : Nat) where
  initAxiTxn : Bool
  initTxnFf : Bool
  initTxnFf2 : Bool
  pwmStatePrev : BitVec 2
  pwmStateInpr : BitVec 2
  mstExecState : MstExecState
  startSingleWrite : Bool
  writeIssued : Bool
  startSingleRead : Bool
  readIssued : Bool
  compareDone : Bool
  error : Bool
  axiAwvalid : Bool
  axiWvalid : Bool
  axiBready : Bool
  axiArvalid : Bool
  axiRready : Bool
  writeIndex : BitVec (transNumBits transactionsNum + 1)
  readIndex : BitVec (transNumBits transactionsNum + 1)
  lastWrite : Bool
  writesDone : Bool
  lastRead : Bool
  readsDone : Bool
  expectedRdata : BitVec 32
  readMismatch : Bool
  errorReg : Bool

/-- The word a PWM state stands for. -/
def pwmSelect (pwmState : BitVec 2) (pwmWr0 pwmWr1 pwmWr2 : BitVec 32) : BitVec 32 :=
  if pwmState = 1#2 then pwmWr1
  else if pwmState = 2#2 then pwmWr2
  else pwmWr0

namespace M00

variable {transactionsNum : Nat} (s : M00 transactionsNum) (i : M00In)

/-! ### Combinational signals -/

def initTxnPulse : Bool := !s.initTxnFf2 && s.initTxnFf

/-- `M_AXI_AWADDR`. -/
def awaddr : BitVec 32 := i.pwmWrAddr

/-- `M_AXI_WDATA`. -/
def wdata : BitVec 32 := pwmSelect s.pwmStateInpr i.pwmWr0 i.pwmWr1 i.pwmWr2

def writeRespError : Bool := s.axiBready && i.bvalid && i.bresp.getLsbD 1

def readRespError : Bool := s.axiRready && i.rvalid && i.rresp.getLsbD 1

/-- Reset, or the pulse that starts a burst. -/
def clears : Bool := !i.aresetn || s.initTxnPulse

/-! ### The processes -/

/-- `INIT_AXI_TXN` and `pwm_state_inpr`. -/
def nextInitAxiTxn : Bool × BitVec 2 :=
  if !i.aresetn || !i.pwmEnabledI then (false, s.pwmStateInpr)
  else if s.pwmStatePrev = i.pwmStateI ∨ s.mstExecState ≠ .idle then (false, s.pwmStateInpr)
  else (true, i.pwmStateI)

def nextAwvalid : Bool :=
  if s.clears i then false
  else if s.startSingleWrite then true
  else if i.awready && s.axiAwvalid then false
  else s.axiAwvalid

def nextWriteIndex : BitVec (transNumBits transactionsNum + 1) :=
  if s.clears i then 0
  else if s.startSingleWrite then s.writeIndex + 1
  else s.writeIndex

def nextWvalid : Bool :=
  if s.clears i then false
  else if s.startSingleWrite then true
  else if i.wready && s.axiWvalid then false
  else s.axiWvalid

def nextBready : Bool :=
  if s.clears i then false
  else if i.bvalid && !s.axiBready then true
  else if s.axiBready then false
  else s.axiBready

def nextReadIndex : BitVec (transNumBits transactionsNum + 1) :=
  if s.clears i then 0
  else if s.startSingleRead then s.readIndex + 1
  else s.readIndex

def nextArvalid : Bool :=
  if s.clears i then false
  else if s.startSingleRead then true
  else if i.arready && s.axiArvalid then false
  else s.axiArvalid

def nextRready : Bool :=
  if s.clears i then true
  else if i.rvalid && !s.axiRready then true
  else if s.axiRready then false
  else s.axiRready

def nextExpectedRdata (startDataValue : BitVec 32) : BitVec 32 :=
  if s.clears i then startDataValue
  else if i.rvalid && s.axiRready then startDataValue + s.readIndex.setWidth 32
  else s.expectedRdata

def nextLastWrite : Bool :=
  if s.clears i then false
  else if s.writeIndex = toIndex transactionsNum transactionsNum ∧ i.awready = true then true
  else s.lastWrite

def nextWritesDone : Bool :=
  if s.clears i then false
  else if s.lastWrite && i.bvalid && s.axiBready then true
  else s.writesDone

def nextLastRead : Bool :=
  if s.clears i then false
  else if s.readIndex = toIndex transactionsNum transactionsNum ∧ i.arready = true then true
  else s.lastRead

def nextReadsDone : Bool :=
  if s.clears i then false
  else if s.lastRead && i.rvalid && s.axiRready then true
  else s.readsDone

def nextReadMismatch : Bool :=
  if s.clears i then false
  else if i.rvalid = true ∧ s.axiRready = true ∧ i.rdata ≠ s.expectedRdata then true
  else s.readMismatch

def nextErrorReg : Bool :=
  if s.clears i then false
  else if s.readMismatch || s.writeRespError i || s.readRespError i then true
  else s.errorReg

/-- The condition under which `INIT_WRITE` issues the next write. -/
def issuesWrite : Bool :=
  !s.axiAwvalid && !s.axiWvalid && !i.bvalid && !s.lastWrite && !s.startSingleWrite
    && !s.writeIssued

/-- `MASTER_EXECUTION_PROC`: the registers it drives, the others as they are. -/
def exec : M00 transactionsNum :=
  if !i.aresetn then
    { s with mstExecState := .idle, startSingleWrite := false, writeIssued := false,
             startSingleRead := false, readIssued := false, compareDone := false,
             error := false, pwmStatePrev := 0#2 }
  else match s.mstExecState with
  | .idle =>
      if s.initTxnPulse then
        { s with mstExecState := .initWrite, error := false, compareDone := false }
      else s
  | .initWrite =>
      if s.writesDone then { s with mstExecState := .idle, pwmStatePrev := s.pwmStateInpr }
      else if s.issuesWrite i then { s with startSingleWrite := true, writeIssued := true }
      else if s.axiBready then { s with writeIssued := false }
      else { s with startSingleWrite := false }
  | .initRead =>
      if s.readsDone then { s with mstExecState := .initCompare }
      else if !s.axiArvalid && !i.rvalid && !s.lastRead && !s.startSingleRead && !s.readIssued then
        { s with startSingleRead := true, readIssued := true }
      else if s.axiRready then { s with readIssued := false }
      else { s with startSingleRead := false }
  | .initCompare => { s with error := s.errorReg, mstExecState := .idle, compareDone := true }

/-- One rising edge of `M_AXI_ACLK`. -/
def next (startDataValue : BitVec 32) : M00 transactionsNum :=
  { s.exec i with
    initAxiTxn := (s.nextInitAxiTxn i).1
    pwmStateInpr := (s.nextInitAxiTxn i).2
    initTxnFf := i.aresetn && s.initAxiTxn
    initTxnFf2 := i.aresetn && s.initTxnFf
    axiAwvalid := s.nextAwvalid i
    axiWvalid := s.nextWvalid i
    axiBready := s.nextBready i
    axiArvalid := s.nextArvalid i
    axiRready := s.nextRready i
    writeIndex := s.nextWriteIndex i
    readIndex := s.nextReadIndex i
    lastWrite := s.nextLastWrite i
    writesDone := s.nextWritesDone i
    lastRead := s.nextLastRead i
    readsDone := s.nextReadsDone i
    expectedRdata := s.nextExpectedRdata i startDataValue
    readMismatch := s.nextReadMismatch i
    errorReg := s.nextErrorReg i }

end M00

/-! ### The index counter reaches the number of transactions -/

/-- Every turn halves `depth` or has nothing left to do, and `count` keeps up with it. -/
theorem clogb2_loop {bitDepth : Nat} (h : 2 < bitDepth) :
    ∀ k, ((clogb2Turn bitDepth)^[k] (bitDepth, 1)).1 + k ≤ max bitDepth (k + 1) ∧
      bitDepth < (((clogb2Turn bitDepth)^[k] (bitDepth, 1)).1 + 1)
        * 2 ^ (((clogb2Turn bitDepth)^[k] (bitDepth, 1)).2 - 1) ∧
      1 ≤ ((clogb2Turn bitDepth)^[k] (bitDepth, 1)).2 := by
  intro k
  induction k with
  | zero => simp
  | succ k ih =>
      obtain ⟨hdepth, hbound, hcount⟩ := ih
      rw [Function.iterate_succ_apply']
      generalize (clogb2Turn bitDepth)^[k] (bitDepth, 1) = v at hdepth hbound hcount
      unfold clogb2Turn
      rw [if_neg (by omega)]
      by_cases hv : v.1 ≤ 1
      · rw [if_pos hv]
        exact ⟨by omega, hbound, hcount⟩
      · rw [if_neg hv]
        refine ⟨by simp only; omega, ?_, by simp⟩
        have hpow : 2 ^ (v.2 + 1 - 1) = 2 * 2 ^ (v.2 - 1) := by
          rw [← Nat.pow_succ']
          congr 1
          omega
        have hhalf : v.1 + 1 ≤ (v.1 / 2 + 1) * 2 := by omega
        calc bitDepth < (v.1 + 1) * 2 ^ (v.2 - 1) := hbound
          _ ≤ (v.1 / 2 + 1) * 2 * 2 ^ (v.2 - 1) := Nat.mul_le_mul_right _ hhalf
          _ = (v.1 / 2 + 1) * 2 ^ (v.2 + 1 - 1) := by rw [hpow, Nat.mul_assoc]

theorem lt_two_pow_clogb2 (bitDepth : Nat) : bitDepth < 2 ^ (clogb2 bitDepth + 1) - 1 := by
  by_cases h : 2 < bitDepth
  · obtain ⟨hdepth, hbound, hcount⟩ := clogb2_loop h bitDepth
    unfold clogb2
    generalize (clogb2Turn bitDepth)^[bitDepth] (bitDepth, 1) = v at hdepth hbound hcount ⊢
    have hone : v.1 + 1 ≤ 2 := by omega
    have hpow : 2 * 2 ^ (v.2 - 1) = 2 ^ v.2 := by
      rw [← Nat.pow_succ']
      congr 1
      omega
    have hle : (v.1 + 1) * 2 ^ (v.2 - 1) ≤ 2 * 2 ^ (v.2 - 1) := Nat.mul_le_mul_right _ hone
    rw [Nat.pow_succ]
    omega
  · interval_cases bitDepth <;> decide

theorem transactionsNum_lt (n : Nat) : n < 2 ^ (transNumBits n + 1) := by
  have := lt_two_pow_clogb2 (n - 1)
  unfold transNumBits
  omega

/-- Up to the number of transactions the index counter does not wrap. -/
theorem toIndex_eq_iff {n k : Nat} (hk : k ≤ n) : toIndex n k = toIndex n n ↔ k = n := by
  have hn := transactionsNum_lt n
  refine ⟨fun h => ?_, fun h => by rw [h]⟩
  have := congrArg BitVec.toNat h
  simp only [toIndex, BitVec.toNat_ofNat] at this
  rwa [Nat.mod_eq_of_lt (by omega), Nat.mod_eq_of_lt hn] at this

theorem toIndex_succ (n k : Nat) : toIndex n k + 1 = toIndex n (k + 1) := by
  simp [toIndex, BitVec.ofNat_add]

end CanBench.Coprocessor
