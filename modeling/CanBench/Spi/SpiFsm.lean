/-
The full-duplex SPI master: `spi_leds_and_enc_v1_0_spi_fsm.vhd`.

One process, one rising edge of `clk_in` per call of `SpiFsm.next`.  `spi_clk` runs all the
time; every `spi_clkdiv` clocks it rises or falls.  One register serves both directions: a
falling edge shifts its low bit out, a rising edge puts the bit received in at the top.
The falling edge that ends a frame looks for the next request.
-/
import Mathlib

namespace CanBench.Spi

/-- Inputs of the process besides the clock. -/
structure SpiFsmIn (dataWidth : Nat) where
  resetIn : Bool
  clkEn : Bool
  spiMiso : Bool
  txData : BitVec dataWidth
  trasferRq : Bool

/-- The registers and the registered outputs. -/
structure SpiFsm (dataWidth : Nat) where
  shiftReg : BitVec dataWidth
  dataCnt : Nat
  divCnt : Nat
  clkPhase : Bool
  inProgress : Bool
  rxData : BitVec dataWidth
  transferReady : Bool
  spiClk : Bool
  spiCs : Bool
  spiMosi : Bool
deriving DecidableEq

variable {dataWidth : Nat}

/-- `shift_reg(data_width-1) <= b`. -/
def setTop (v : BitVec dataWidth) (b : Bool) : BitVec dataWidth :=
  BitVec.ofFnLE fun k => if k.val + 1 = dataWidth then b else v.getLsb k

theorem getLsbD_setTop (v : BitVec dataWidth) (b : Bool) {k : Nat} (hk : k < dataWidth) :
    (setTop v b).getLsbD k = if k + 1 = dataWidth then b else v.getLsbD k := by
  rw [BitVec.getLsbD_eq_getElem hk, BitVec.getLsbD_eq_getElem hk]
  simp [setTop]

namespace SpiFsm

/-- What the reset branch assigns. -/
def reset (spiClkdiv : Nat) : SpiFsm dataWidth where
  shiftReg := 0
  dataCnt := 0
  divCnt := spiClkdiv - 1
  clkPhase := false
  inProgress := false
  rxData := 0
  transferReady := false
  spiClk := true
  spiCs := true
  spiMosi := false

/-- The rising phase of a divider tick. -/
def rise (spiClkdiv : Nat) (s : SpiFsm dataWidth) (i : SpiFsmIn dataWidth) : SpiFsm dataWidth :=
  { s with
    transferReady := false
    divCnt := spiClkdiv - 1
    clkPhase := false
    spiClk := true
    shiftReg := if s.inProgress then setTop s.shiftReg i.spiMiso else s.shiftReg }

/-- The falling phase with nothing left to send: a frame ends, and another is looked for. -/
def fallIdle (spiClkdiv : Nat) (s : SpiFsm dataWidth) (i : SpiFsmIn dataWidth) :
    SpiFsm dataWidth :=
  { s with
    clkPhase := true
    divCnt := spiClkdiv - 1
    spiClk := false
    spiCs := true
    rxData := if s.inProgress then s.shiftReg else s.rxData
    transferReady := s.inProgress
    inProgress := false
    shiftReg := if i.trasferRq then i.txData else s.shiftReg
    dataCnt := if i.trasferRq then dataWidth else s.dataCnt
    spiMosi := if i.trasferRq then false else s.spiMosi }

/-- The falling phase with a bit to send. -/
def fallSend (spiClkdiv : Nat) (s : SpiFsm dataWidth) : SpiFsm dataWidth :=
  { s with
    transferReady := false
    clkPhase := true
    divCnt := spiClkdiv - 1
    spiClk := false
    inProgress := true
    spiCs := false
    spiMosi := s.shiftReg.getLsbD 0
    shiftReg := s.shiftReg >>> 1
    dataCnt := s.dataCnt - 1 }

/-- One rising edge of `clk_in`. -/
def next (spiClkdiv : Nat) (s : SpiFsm dataWidth) (i : SpiFsmIn dataWidth) : SpiFsm dataWidth :=
  if i.resetIn then reset spiClkdiv
  else if i.clkEn then
    if s.divCnt ≠ 0 then { s with transferReady := false, divCnt := s.divCnt - 1 }
    else if s.clkPhase then s.rise spiClkdiv i
    else if s.dataCnt = 0 then s.fallIdle spiClkdiv i
    else s.fallSend spiClkdiv
  else s

/-! ### The four kinds of clock -/

variable {spiClkdiv : Nat} {s : SpiFsm dataWidth} {i : SpiFsmIn dataWidth}

/-- Every clock out of reset with `clk_en` is one of these. -/
theorem next_cases (spiClkdiv : Nat) (s : SpiFsm dataWidth) (hr : i.resetIn = false)
    (hen : i.clkEn = true) :
    (s.divCnt ≠ 0 ∧
      s.next spiClkdiv i = { s with transferReady := false, divCnt := s.divCnt - 1 }) ∨
    (s.divCnt = 0 ∧ s.clkPhase = true ∧ s.next spiClkdiv i = s.rise spiClkdiv i) ∨
    (s.divCnt = 0 ∧ s.clkPhase = false ∧ s.dataCnt = 0 ∧
      s.next spiClkdiv i = s.fallIdle spiClkdiv i) ∨
    (s.divCnt = 0 ∧ s.clkPhase = false ∧ s.dataCnt ≠ 0 ∧
      s.next spiClkdiv i = s.fallSend spiClkdiv) := by
  unfold next
  rw [hr, hen]
  by_cases hdiv : s.divCnt = 0
  · cases hphase : s.clkPhase with
    | true => exact Or.inr (Or.inl ⟨hdiv, rfl, by simp [hdiv]⟩)
    | false =>
        by_cases hcnt : s.dataCnt = 0
        · exact Or.inr (Or.inr (Or.inl ⟨hdiv, rfl, hcnt, by simp [hdiv, hcnt]⟩))
        · exact Or.inr (Or.inr (Or.inr ⟨hdiv, rfl, hcnt, by simp [hdiv, hcnt]⟩))
  · exact Or.inl ⟨hdiv, by simp [hdiv]⟩

end SpiFsm

end CanBench.Spi
