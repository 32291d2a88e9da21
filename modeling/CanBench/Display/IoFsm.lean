/-
The LCD bus state machine: `display_16bit_cmd_data_bus_v1_0_io_fsm.vhd`.

One process, one rising edge of `clk_in` per call of `IoFsm.next`.  Signals keep their
old value until the end of the process and the last assignment wins, so the request
latch comes first and the divider's `case` second, both reading the old state: in
`is_iddle` on a divider tick the `case` overrides the `is_wrini` the latch has just
assigned.  `lcd_data` is `none` while it is driven to 'Z'.
-/
import Mathlib

namespace CanBench.Display

inductive IoStates
  | isIddle | isWrini | isWr0 | isWr1 | isWr2 | isWrfin
deriving DecidableEq

/-- Inputs of the process besides the clock. -/
structure IoFsmIn (dataWidth : Nat) where
  resetIn : Bool
  clkEn : Bool
  dataOut : BitVec dataWidth
  dcOut : Bool
  trasferRq : Bool
  trasferRqDbl : Bool

/-- A clock out of reset. -/
def Clocked (i : IoFsmIn dataWidth) : Prop := i.resetIn = false ∧ i.clkEn = true

/-- The registers and the registered outputs. -/
structure IoFsm (dataWidth lcdIoWidth : Nat) where
  ioStateR : IoStates
  trasferRqDblR : Bool
  divCnt : Nat
  dataOutR : BitVec dataWidth
  dcOutR : Bool
  readyForRq : Bool
  lcdResN : Bool
  lcdCsN : Bool
  lcdWrN : Bool
  lcdRdN : Bool
  lcdDc : Bool
  lcdData : Option (BitVec lcdIoWidth)
deriving DecidableEq

variable {dataWidth lcdIoWidth : Nat}

/-- `v(lcd_io_width-1 downto 0)`. -/
def lowWord (lcdIoWidth : Nat) (v : BitVec dataWidth) : BitVec lcdIoWidth :=
  v.extractLsb' 0 lcdIoWidth

/-- `v(lcd_io_width-1 downto 0) <= v(2*lcd_io_width-1 downto lcd_io_width)`. -/
def shiftSecondWord (lcdIoWidth : Nat) (v : BitVec dataWidth) : BitVec dataWidth :=
  BitVec.ofFnLE fun k => if k.val < lcdIoWidth then v.getLsbD (lcdIoWidth + k.val) else v.getLsb k

namespace IoFsm

/-- The `case io_state_r` of a divider tick; `s` is the old state, `t` what the process
has assigned so far. -/
def tick (s : IoFsm dataWidth lcdIoWidth) (i : IoFsmIn dataWidth)
    (t : IoFsm dataWidth lcdIoWidth) : IoFsm dataWidth lcdIoWidth :=
  match s.ioStateR with
  | .isIddle =>
      if i.trasferRq then
        { t with readyForRq := false, ioStateR := .isWr0,
                 lcdData := some (lowWord lcdIoWidth i.dataOut), lcdDc := i.dcOut,
                 lcdCsN := false, lcdWrN := true, lcdRdN := true }
      else
        { t with readyForRq := true, lcdData := none,
                 lcdCsN := true, lcdWrN := true, lcdRdN := true }
  | .isWrini =>
      { t with readyForRq := false, ioStateR := .isWr0,
               lcdData := some (lowWord lcdIoWidth s.dataOutR), lcdDc := s.dcOutR,
               lcdCsN := false, lcdWrN := true, lcdRdN := true }
  | .isWr0 =>
      { t with readyForRq := false, ioStateR := .isWr1,
               lcdData := some (lowWord lcdIoWidth s.dataOutR), lcdDc := s.dcOutR,
               lcdCsN := false, lcdWrN := false }
  | .isWr1 =>
      { t with readyForRq := false, ioStateR := .isWr2,
               lcdData := some (lowWord lcdIoWidth s.dataOutR), lcdDc := s.dcOutR,
               lcdCsN := false, lcdWrN := false }
  | .isWr2 =>
      { t with readyForRq := false, ioStateR := .isWrfin,
               lcdData := some (lowWord lcdIoWidth s.dataOutR), lcdDc := s.dcOutR,
               lcdCsN := false, lcdWrN := true }
  | .isWrfin =>
      if s.trasferRqDblR then
        { t with readyForRq := false, ioStateR := .isWrini,
                 lcdData := some (lowWord lcdIoWidth s.dataOutR), lcdDc := s.dcOutR,
                 dataOutR := shiftSecondWord lcdIoWidth s.dataOutR, trasferRqDblR := false,
                 lcdCsN := false, lcdWrN := true }
      else
        { t with readyForRq := true, ioStateR := .isIddle,
                 lcdData := none, lcdDc := s.dcOutR,
                 lcdCsN := false, lcdWrN := true }

/-- The request latch: a request in `is_iddle` is taken whatever the divider shows. -/
def latch (s : IoFsm dataWidth lcdIoWidth) (i : IoFsmIn dataWidth) :
    IoFsm dataWidth lcdIoWidth :=
  if i.trasferRq && decide (s.ioStateR = .isIddle) then
    { s with lcdResN := true, dataOutR := i.dataOut, dcOutR := i.dcOut,
             trasferRqDblR := i.trasferRqDbl, ioStateR := .isWrini }
  else { s with lcdResN := true }

/-- What the reset branch assigns; the latched request is not among it. -/
def reset (lcdBusClkdiv : Nat) (s : IoFsm dataWidth lcdIoWidth) : IoFsm dataWidth lcdIoWidth :=
  { s with divCnt := lcdBusClkdiv - 1, readyForRq := false, ioStateR := .isIddle,
           lcdResN := false, lcdCsN := true, lcdWrN := true, lcdRdN := true, lcdDc := true,
           lcdData := none }

/-- One rising edge of `clk_in`. -/
def next (lcdBusClkdiv : Nat) (s : IoFsm dataWidth lcdIoWidth) (i : IoFsmIn dataWidth) :
    IoFsm dataWidth lcdIoWidth :=
  if i.resetIn then s.reset lcdBusClkdiv
  else if i.clkEn then
    if s.divCnt ≠ 0 then { s.latch i with divCnt := s.divCnt - 1 }
    else s.tick i { s.latch i with divCnt := lcdBusClkdiv - 1 }
  else s

variable {lcdBusClkdiv : Nat} {s : IoFsm dataWidth lcdIoWidth} {i : IoFsmIn dataWidth}

/-! ### The two kinds of clock -/

theorem next_wait (hi : Clocked i) (hdiv : s.divCnt ≠ 0) :
    s.next lcdBusClkdiv i = { s.latch i with divCnt := s.divCnt - 1 } := by
  rw [next, hi.1, hi.2, if_neg Bool.false_ne_true, if_pos rfl, if_pos hdiv]

theorem next_tick (hi : Clocked i) (hdiv : s.divCnt = 0) :
    s.next lcdBusClkdiv i = s.tick i { s.latch i with divCnt := lcdBusClkdiv - 1 } := by
  rw [next, hi.1, hi.2, if_neg Bool.false_ne_true, if_pos rfl, if_neg (not_not.mpr hdiv)]

theorem latch_busy (hs : s.ioStateR ≠ .isIddle) (i : IoFsmIn dataWidth) :
    s.latch i = { s with lcdResN := true } := by
  simp [latch, hs]

theorem latch_eq_self (hs : s.ioStateR ≠ .isIddle) (hres : s.lcdResN = true)
    (i : IoFsmIn dataWidth) : s.latch i = s := by
  rw [latch_busy hs, ← hres]

/-- Only an idle state machine looks at a request. -/
theorem next_busy {i' : IoFsmIn dataWidth} (hs : s.ioStateR ≠ .isIddle) (hi : Clocked i)
    (hi' : Clocked i') : s.next lcdBusClkdiv i = s.next lcdBusClkdiv i' := by
  by_cases hdiv : s.divCnt = 0
  · rw [next_tick hi hdiv, next_tick hi' hdiv, latch_busy hs, latch_busy hs]
    unfold tick
    split
    · exact absurd ‹_› hs
    all_goals rfl
  · rw [next_wait hi hdiv, next_wait hi' hdiv, latch_busy hs, latch_busy hs]

/-- A state machine that raises `ready_for_rq` on a tick is idle after it. -/
theorem idle_of_tick_ready (hi : Clocked i) (hdiv : s.divCnt = 0)
    (h : (s.next lcdBusClkdiv i).readyForRq = true) :
    (s.next lcdBusClkdiv i).ioStateR = .isIddle := by
  rw [next_tick hi hdiv] at h ⊢
  cases hs : s.ioStateR <;> simp only [tick, hs] at h ⊢
  case isIddle =>
    by_cases hrq : i.trasferRq = true
    · rw [if_pos hrq] at h
      exact absurd h (by simp)
    · simp [hrq, latch, hs]
  case isWrfin =>
    by_cases hdbl : s.trasferRqDblR = true
    · rw [if_pos hdbl] at h
      exact absurd h (by simp)
    · simp [hdbl]
  all_goals exact absurd h (by simp)

end IoFsm

end CanBench.Display
