/-
The coprocessor: PWM generator and bus master as `axi_pwm_coprocessor_v1_0.vhd` wires
them, on one clock and one reset, the master's slave watched from outside.

Software may drive the generator's bus in any way at all; on the master's side the slave
takes its time as it likes but answers only what it has accepted.
-/
import CanBench.Lib.Runs
import CanBench.Coprocessor.S00Axi
import CanBench.Coprocessor.Burst

namespace CanBench.Coprocessor

open Lib Axi

structure Board (N : Nat) where
  s00 : S00
  link : Link N

/-- Software on one side, the bus slave on the other. -/
structure BoardIn where
  ctl : SlaveIn 5
  bus : M00Bus

namespace Board

variable {N : Nat}

def m00In (b : Board N) (i : BoardIn) : M00In :=
  { i.bus with
    aresetn := i.ctl.aresetn
    pwmStateI := b.s00.pwmState
    pwmEnabledI := b.s00.pwmEnabled
    pwmWrAddr := b.s00.pwmWrAddr
    pwmWr0 := b.s00.pwmWr0
    pwmWr1 := b.s00.pwmWr1
    pwmWr2 := b.s00.pwmWr2 }

/-- One clock edge. -/
def next (startDataValue : BitVec 32) (b : Board N) (i : BoardIn) : Board N where
  s00 := b.s00.next i.ctl
  link := b.link.next (b.m00In i) startDataValue

end Board

/-- Runs of the coprocessor from a reset; further resets may follow. -/
def coprocessorSystem (N : Nat) (startDataValue : BitVec 32) : System (Board N) BoardIn where
  init := fun b => ∃ b₀ i, i.ctl.aresetn = false ∧ b = Board.next startDataValue b₀ i
  allowed := fun b i => b.link.allows (b.m00In i)
  next := Board.next startDataValue

/-! ### Runs on paper -/

/-- An edge at which software does nothing but take responses. -/
def idleCtl : SlaveIn 5 where
  aresetn := true
  awaddr := 0#5
  awvalid := false
  wdata := 0#32
  wstrb := 0#4
  wvalid := false
  bready := true
  araddr := 0#5
  arvalid := false
  rready := false

/-- A slave that would take anything and answers nothing. -/
def openBus : M00Bus where
  awready := true
  wready := true
  bresp := 0#2
  bvalid := false
  arready := false
  rdata := 0#32
  rresp := 0#2
  rvalid := false

/-- A slave that takes nothing. -/
def closedBus : M00Bus := { openBus with awready := false, wready := false }

/-- Software writes a register: two edges until it is taken, a third for the response. -/
def store (bus : M00Bus) (reg : BitVec 3) (word : BitVec 32) : List BoardIn :=
  let offer : SlaveIn 5 :=
    { idleCtl with awaddr := reg ++ 0#2, awvalid := true, wdata := word, wstrb := 15#4,
                   wvalid := true }
  [⟨offer, bus⟩, ⟨offer, bus⟩, ⟨idleCtl, bus⟩]

/-- The coprocessor after an edge with the reset asserted. -/
def resetBoard (N : Nat) (startDataValue : BitVec 32) : Board N :=
  Board.next startDataValue
    { s00 := { axi := SlaveRegs.reset, slvReg := fun _ => 0#32, pwmState := 0#2,
               pwmEnabled := false, pwmWrAddr := 0#32, pwmWr0 := 0#32, pwmWr1 := 0#32,
               pwmWr2 := 0#32 }
      link :=
        { m := { initAxiTxn := false, initTxnFf := false, initTxnFf2 := false,
                 pwmStatePrev := 0#2, pwmStateInpr := 0#2, mstExecState := .idle,
                 startSingleWrite := false, writeIssued := false, startSingleRead := false,
                 readIssued := false, compareDone := false, error := false,
                 axiAwvalid := false, axiWvalid := false, axiBready := false,
                 axiArvalid := false, axiRready := false, writeIndex := 0, readIndex := 0,
                 lastWrite := false, writesDone := false, lastRead := false,
                 readsDone := false, expectedRdata := 0#32, readMismatch := false,
                 errorReg := false }
          out := .empty } }
    ⟨{ idleCtl with aresetn := false }, openBus⟩

instance (N : Nat) (startDataValue : BitVec 32) (b : Board N) (i : BoardIn) :
    Decidable ((coprocessorSystem N startDataValue).allowed b i) :=
  inferInstanceAs (Decidable (b.link.allows (b.m00In i)))

theorem resetBoard_run (N : Nat) (startDataValue : BitVec 32) (l : List BoardIn)
    (hok : ∀ e ∈ (coprocessorSystem N startDataValue).steps (resetBoard N startDataValue) l,
      (coprocessorSystem N startDataValue).allowed e.1 e.2) :
    Run (coprocessorSystem N startDataValue)
      ((coprocessorSystem N startDataValue).steps (resetBoard N startDataValue) l)
      ((coprocessorSystem N startDataValue).runFrom (resetBoard N startDataValue) l) := by
  have r : Run (coprocessorSystem N startDataValue) [] (resetBoard N startDataValue) :=
    Run.start ⟨_, _, rfl, rfl⟩
  exact System.run_of_steps _ l r hok

end CanBench.Coprocessor
