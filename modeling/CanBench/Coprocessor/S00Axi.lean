/-
The PWM generator: `axi_pwm_coprocessor_v1_0_S00_AXI.vhd`.

The shared AXI slave with eight registers, one process of which also counts.  Registers
0 to 2 are period, value and counter in their low thirty bits; bit 31 of the period
enables the generator, the two top bits of the value are the direction it drives while
the counter is below the value.  Registers 3 to 6 are copied to `pwm_wr_addr` and
`pwm_wr0..2` on every clock.

The counter update and a register write are assignments of one process, the write last:
where both reach a byte of register 2 the written byte wins.

With the handshake in front of them the registers are one of the banks of
`Axi/RegBank.lean`: `toBank_next`.
-/
import CanBench.Axi.RegBank

namespace CanBench.Coprocessor

open Lib Axi

structure S00 where
  axi : SlaveRegs 5
  slvReg : BitVec 3 → BitVec 32
  pwmState : BitVec 2
  pwmEnabled : Bool
  pwmWrAddr : BitVec 32
  pwmWr0 : BitVec 32
  pwmWr1 : BitVec 32
  pwmWr2 : BitVec 32

namespace S00

/-- `axi_awaddr(ADDR_LSB + OPT_MEM_ADDR_BITS downto ADDR_LSB)`, and the same of `axi_araddr`. -/
def locAddr (addr : BitVec 5) : BitVec 3 := addr.extractLsb' 2 3

/-- `to_integer(unsigned(v(PWM_BITS - 1 downto 0)))`. -/
def pwmField (v : BitVec 32) : Nat := (v.extractLsb' 0 30).toNat

def pwmPer (s : S00) : Nat := pwmField (s.slvReg 0)

def pwmVal (s : S00) : Nat := pwmField (s.slvReg 1)

def pwmCnt (s : S00) : Nat := pwmField (s.slvReg 2)

/-- The most significant bit of the period. -/
def pwmOn (s : S00) : Bool := (s.slvReg 0).getLsbD 31

/-- What the counter is set to. -/
def nextCnt (s : S00) : Nat :=
  if !s.pwmOn then 0 else if s.pwmPer ≤ s.pwmCnt then 0 else s.pwmCnt + 1

/-- The registers after the counter update: `slv_reg2(PWM_BITS - 1 downto 0)` only. -/
def countedReg (s : S00) : BitVec 3 → BitVec 32 :=
  Function.update s.slvReg 2
    (setSlice (s.slvReg 2) (BitVec.ofNat 32 s.nextCnt) 0 30)

def nextPwmState (s : S00) : BitVec 2 :=
  if !s.pwmOn then 0#2
  else if s.pwmVal ≤ s.pwmCnt then 0#2
  else if s.pwmCnt = 0 then (s.slvReg 1).extractLsb' 30 2
  else s.pwmState

/-- The registers after the counter update and the register write. -/
def writtenReg (s : S00) (i : SlaveIn 5) : BitVec 3 → BitVec 32 :=
  if s.axi.slvRegWren i then
    Function.update s.countedReg (locAddr s.axi.axiAwaddr)
      (writeBytes (s.countedReg (locAddr s.axi.axiAwaddr)) i.wdata i.wstrb)
  else s.countedReg

/-- One rising edge of `S_AXI_ACLK`.  The reset branch leaves `pwm_wr_addr` and `pwm_wr0..2`. -/
def next (s : S00) (i : SlaveIn 5) : S00 :=
  let axi := s.axi.next true (s.slvReg (locAddr s.axi.axiAraddr)) i
  if !i.aresetn then
    { s with axi := axi, slvReg := fun _ => 0#32, pwmState := 0#2, pwmEnabled := false }
  else
    { axi := axi
      slvReg := s.writtenReg i
      pwmState := s.nextPwmState
      pwmEnabled := s.pwmOn
      pwmWrAddr := s.slvReg 3
      pwmWr0 := s.slvReg 4
      pwmWr1 := s.slvReg 5
      pwmWr2 := s.slvReg 6 }

/-! ### The registers as a bank -/

/-- The generator out of reset, with these registers. -/
def ofRegs (regs : BitVec 3 → BitVec 32) : S00 where
  axi := .reset
  slvReg := regs
  pwmState := 0#2
  pwmEnabled := false
  pwmWrAddr := 0#32
  pwmWr0 := 0#32
  pwmWr1 := 0#32
  pwmWr2 := 0#32

/-- Eight words that software reads and writes, and that count by themselves. -/
def bank : RegBank 5 3 Unit where
  resetReg := fun _ => 0#32
  resetAraddr := BitVec.allOnes 5
  writable := fun _ => true
  tick := fun regs => (ofRegs regs).countedReg
  read := fun regs _ loc => regs loc

def toBank (s : S00) : BankState 5 3 := ⟨s.axi, s.slvReg⟩

/-- The counter looks at the registers only. -/
theorem countedReg_ofRegs (s : S00) : (ofRegs s.slvReg).countedReg = s.countedReg := rfl

/-- Handshake and registers go as the bank does. -/
theorem toBank_next (s : S00) (i : SlaveIn 5) : (s.next i).toBank = bank.next s.toBank i () := by
  cases hi : i.aresetn with
  | false =>
      simp only [toBank, next, RegBank.next, hi, SlaveRegs.next_of_reset _ _ _ hi]
      rfl
  | true =>
      have hregs : s.writtenReg i = (bank.next s.toBank i ()).slvReg := by
        simp only [writtenReg, RegBank.next, hi, bank, toBank, countedReg_ofRegs]
        rfl
      simp only [toBank, next, hi, hregs]
      simp only [RegBank.next, hi]
      rfl

end S00

end CanBench.Coprocessor
