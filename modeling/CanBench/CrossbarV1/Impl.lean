/-
The CAN crossbar, version 1: `can_crossbar_v1_0_S00_AXI.v`.

`cross_impl` is combinational: four CAN ports and four controllers attached to four lines
by a control word.  The peripheral has it twice, once on the pins and once between the two
halves of a test word and a register that software can read; both take the control word
from register 0.  Its bit 20 goes straight to the pin `can_stby` and is left out.
-/
import CanBench.Axi.RegBank

namespace CanBench.CrossbarV1

open Lib Axi

/-! ### `cross_impl` -/

structure CrossIn where
  canRx : BitVec 4
  ifcTx : BitVec 4
  ctrlWord : BitVec 32
deriving DecidableEq

namespace CrossIn

variable (p : CrossIn)

/-- `can1_line` to `can4_line`. -/
def canLine (k : Fin 4) : BitVec 2 := p.ctrlWord.extractLsb' (2 * k.val) 2

/-- `ifc1_line` to `ifc4_line`. -/
def ifcLine (k : Fin 4) : BitVec 2 := p.ctrlWord.extractLsb' (8 + 2 * k.val) 2

def canEn : BitVec 4 := p.ctrlWord.extractLsb' 16 4

/-- The four terms the source writes out for each line. -/
def lineAnd (line : Fin 4 → BitVec 2) (drive : BitVec 4) : BitVec 4 :=
  BitVec.ofFnLE fun l =>
    (if (line 0).toNat = l.val then drive.getLsb 0 else true)
    && (if (line 1).toNat = l.val then drive.getLsb 1 else true)
    && (if (line 2).toNat = l.val then drive.getLsb 2 else true)
    && (if (line 3).toNat = l.val then drive.getLsb 3 else true)

def canLineRx : BitVec 4 := lineAnd p.canLine p.canRx

def lineTx : BitVec 4 := lineAnd p.ifcLine p.ifcTx

def lineRx : BitVec 4 :=
  BitVec.ofFnLE fun l => if p.canEn.getLsb l then p.canLineRx.getLsb l else p.lineTx.getLsb l

/-- Output `can_tx`. -/
def canTx : BitVec 4 :=
  BitVec.ofFnLE fun k =>
    if p.canEn.getLsb k then p.lineTx.getLsbD (p.canLine k).toNat else true

/-- Output `ifc_rx`. -/
def ifcRx : BitVec 4 := BitVec.ofFnLE fun k => p.lineRx.getLsbD (p.ifcLine k).toNat

end CrossIn

/-! ### The registers -/

/-- Instance `cross_test_inst`: `{test_can_rx, test_ifc_tx} = slv_reg1[7:0]`. -/
def crossTest (slvReg : BitVec 2 → BitVec 32) : CrossIn where
  canRx := (slvReg 1).extractLsb' 4 4
  ifcTx := (slvReg 1).extractLsb' 0 4
  ctrlWord := slvReg 0

/-- `slv_reg2 = {24'h0, test_ifc_rx, test_can_tx}`. -/
def slvReg2 (slvReg : BitVec 2 → BitVec 32) : BitVec 32 :=
  0#24 ++ (crossTest slvReg).ifcRx ++ (crossTest slvReg).canTx

/-- The value register 0 is reset to: every port enabled, and on the line of its number. -/
def resetWord : BitVec 32 := 0b0_1111_11_10_01_00_11_10_01_00#32

def bank : RegBank 4 2 Unit where
  resetReg := fun loc => if loc = 0#2 then resetWord else 0#32
  resetAraddr := 0#4
  writable := fun loc => loc != 2#2
  tick := id
  read := fun regs _ loc => if loc = 2#2 then slvReg2 regs else regs loc

/-- Instance `cross_inst`, on the pins. -/
def pins (slvReg : BitVec 2 → BitVec 32) (canRx ifcTx : BitVec 4) : CrossIn where
  canRx := canRx
  ifcTx := ifcTx
  ctrlWord := slvReg 0

end CanBench.CrossbarV1
