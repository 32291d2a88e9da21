/-
The example bus master of the audio and display cores: `*_v1_0_M00_AXI.vhd`.

The two files are the same apart from the entity name.  A rising edge of `INIT_AXI_TXN`
writes `C_M_TRANSACTIONS_NUM` words from a base address on, reads them back, compares, and
reports through `ERROR` and `TXN_DONE`.  The processes are here one by one, all of them
running on the same old registers.

Both cores tie `INIT_AXI_TXN` to '0'.  What that amounts to is `Asleep`: the two flip-flops
that look for the edge never see one, and every process that could raise a valid waits for
the state machine to leave `IDLE`.
-/
import CanBench.Lib.Runs
import CanBench.Coprocessor.M00Axi

namespace CanBench.Axi

open Lib Coprocessor

/-- The inputs of the master. -/
structure TestMasterIn extends M00Bus where
  aresetn : Bool
  initAxiTxn : Bool

/-- The registers of a master with `C_M_TRANSACTIONS_NUM => n`. -/
structure TestMaster (n : Nat) where
  initTxnFf : Bool
  initTxnFf2 : Bool
  mstExecState : MstExecState
  startSingleWrite : Bool
  writeIssued : Bool
  startSingleRead : Bool
  readIssued : Bool
  compareDone : Bool
  error : Bool
  axiAwvalid : Bool
  axiWvalid : Bool
  axiBready : Bool
  axiArvalid : Bool
  axiRready : Bool
  axiAwaddr : BitVec 32
  axiAraddr : BitVec 32
  axiWdata : BitVec 32
  expectedRdata : BitVec 32
  writeIndex : BitVec (transNumBits n + 1)
  readIndex : BitVec (transNumBits n + 1)
  lastWrite : Bool
  writesDone : Bool
  lastRead : Bool
  readsDone : Bool
  readMismatch : Bool
  errorReg : Bool

namespace TestMaster

variable {n : Nat} (s : TestMaster n) (i : TestMasterIn)

def initTxnPulse : Bool := !s.initTxnFf2 && s.initTxnFf

/-- `M_AXI_ARESETN = '0' or init_txn_pulse = '1'`. -/
def clears : Bool := !i.aresetn || s.initTxnPulse

def writeRespError : Bool := s.axiBready && i.bvalid && i.bresp.getLsbD 1

def readRespError : Bool := s.axiRready && i.rvalid && i.rresp.getLsbD 1

/-- `axi_awvalid`, `axi_wvalid` and `axi_arvalid`: raised by a start pulse, dropped when
taken. -/
def nextValid (start valid ready : Bool) : Bool :=
  if s.clears i then false
  else if start then true
  else if ready && valid then false
  else valid

/-- `write_index` and `read_index`. -/
def nextIndex (start : Bool) (index : BitVec (transNumBits n + 1)) :
    BitVec (transNumBits n + 1) :=
  if s.clears i then 0 else if start then index + 1 else index

/-- `axi_bready` and `axi_rready`, of which only the second is high after a clear. -/
def nextReady (cleared valid ready : Bool) : Bool :=
  if s.clears i then cleared
  else if valid && !ready then true
  else if ready then false
  else ready

/-- `axi_awaddr` and `axi_araddr`. -/
def nextAddr (taken : Bool) (addr : BitVec 32) : BitVec 32 :=
  if s.clears i then 0 else if taken then addr + 4 else addr

/-- `axi_wdata` and `expected_rdata`. -/
def nextData (startDataValue : BitVec 32) (taken : Bool)
    (index : BitVec (transNumBits n + 1)) (data : BitVec 32) : BitVec 32 :=
  if s.clears i then startDataValue
  else if taken then startDataValue + index.setWidth 32
  else data

/-- `last_write` and `last_read`. -/
def nextLast (index : BitVec (transNumBits n + 1)) (ready last : Bool) : Bool :=
  if s.clears i then false
  else if index = toIndex n n ∧ ready = true then true
  else last

/-- `writes_done`, `reads_done` and the two error flags: set by an event, held. -/
def nextFlag (event flag : Bool) : Bool :=
  if s.clears i then false else if event then true else flag

/-- `MASTER_EXECUTION_PROC`: the registers it drives, the others as they are. -/
def exec : TestMaster n :=
  if !i.aresetn then
    { s with mstExecState := .idle, startSingleWrite := false, writeIssued := false,
             startSingleRead := false, readIssued := false, compareDone := false,
             error := false }
  else match s.mstExecState with
  | .idle =>
      if s.initTxnPulse then
        { s with mstExecState := .initWrite, error := false, compareDone := false }
      else s
  | .initWrite =>
      if s.writesDone then { s with mstExecState := .initRead }
      else if !s.axiAwvalid && !s.axiWvalid && !i.bvalid && !s.lastWrite && !s.startSingleWrite
          && !s.writeIssued then
        { s with startSingleWrite := true, writeIssued := true }
      else if s.axiBready then { s with writeIssued := false }
      else { s with startSingleWrite := false }
  | .initRead =>
      if s.readsDone then { s with mstExecState := .initCompare }
      else if !s.axiArvalid && !i.rvalid && !s.lastRead && !s.startSingleRead
          && !s.readIssued then
        { s with startSingleRead := true, readIssued := true }
      else if s.axiRready then { s with readIssued := false }
      else { s with startSingleRead := false }
  | .initCompare => { s with error := s.errorReg, mstExecState := .idle, compareDone := true }

/-- One rising edge of `M_AXI_ACLK`. -/
def next (startDataValue : BitVec 32) : TestMaster n :=
  { s.exec i with
    initTxnFf := i.aresetn && i.initAxiTxn
    initTxnFf2 := i.aresetn && s.initTxnFf
    axiAwvalid := s.nextValid i s.startSingleWrite s.axiAwvalid i.awready
    axiWvalid := s.nextValid i s.startSingleWrite s.axiWvalid i.wready
    axiArvalid := s.nextValid i s.startSingleRead s.axiArvalid i.arready
    axiBready := s.nextReady i false i.bvalid s.axiBready
    axiRready := s.nextReady i true i.rvalid s.axiRready
    axiAwaddr := s.nextAddr i (i.awready && s.axiAwvalid) s.axiAwaddr
    axiAraddr := s.nextAddr i (i.arready && s.axiArvalid) s.axiAraddr
    axiWdata := s.nextData i startDataValue (i.wready && s.axiWvalid) s.writeIndex s.axiWdata
    expectedRdata :=
      s.nextData i startDataValue (i.rvalid && s.axiRready) s.readIndex s.expectedRdata
    writeIndex := s.nextIndex i s.startSingleWrite s.writeIndex
    readIndex := s.nextIndex i s.startSingleRead s.readIndex
    lastWrite := s.nextLast i s.writeIndex i.awready s.lastWrite
    lastRead := s.nextLast i s.readIndex i.arready s.lastRead
    writesDone := s.nextFlag i (s.lastWrite && i.bvalid && s.axiBready) s.writesDone
    readsDone := s.nextFlag i (s.lastRead && i.rvalid && s.axiRready) s.readsDone
    readMismatch :=
      s.nextFlag i (i.rvalid && s.axiRready && decide (i.rdata ≠ s.expectedRdata)) s.readMismatch
    errorReg :=
      s.nextFlag i (s.readMismatch || s.writeRespError i || s.readRespError i) s.errorReg }

/-! ### With `INIT_AXI_TXN` tied low -/

/-- No edge seen, nothing started, nothing offered, nothing reported. -/
structure Asleep : Prop where
  initTxnFf : s.initTxnFf = false
  mstExecState : s.mstExecState = .idle
  startSingleWrite : s.startSingleWrite = false
  startSingleRead : s.startSingleRead = false
  axiAwvalid : s.axiAwvalid = false
  axiWvalid : s.axiWvalid = false
  axiArvalid : s.axiArvalid = false
  compareDone : s.compareDone = false
  error : s.error = false

theorem asleep_of_reset (startDataValue : BitVec 32) (hi : i.aresetn = false) :
    (s.next i startDataValue).Asleep := by
  constructor <;> simp [next, exec, nextValid, clears, hi]

theorem Asleep.next {s : TestMaster n} {i : TestMasterIn} (h : s.Asleep)
    (startDataValue : BitVec 32) (hinit : i.initAxiTxn = false) :
    (s.next i startDataValue).Asleep := by
  rcases Bool.eq_false_or_eq_true i.aresetn with hi | hi
  · have hpulse : s.initTxnPulse = false := by rw [initTxnPulse, h.initTxnFf, Bool.and_false]
    have hexec : s.exec i = s := by
      rw [exec, if_neg (by simp [hi]), h.mstExecState]
      simp [hpulse]
    have hvalid : ∀ ready, s.nextValid i false false ready = false := by
      intro ready
      simp [nextValid]
    unfold TestMaster.next
    rw [hexec]
    refine ⟨?_, h.mstExecState, h.startSingleWrite, h.startSingleRead, ?_, ?_, ?_,
      h.compareDone, h.error⟩
    · simp [hinit]
    · show s.nextValid i s.startSingleWrite s.axiAwvalid i.awready = false
      rw [h.startSingleWrite, h.axiAwvalid, hvalid]
    · show s.nextValid i s.startSingleWrite s.axiWvalid i.wready = false
      rw [h.startSingleWrite, h.axiWvalid, hvalid]
    · show s.nextValid i s.startSingleRead s.axiArvalid i.arready = false
      rw [h.startSingleRead, h.axiArvalid, hvalid]
  · exact asleep_of_reset s i startDataValue hi

end TestMaster

end CanBench.Axi
