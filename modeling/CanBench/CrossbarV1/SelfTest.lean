/-
Reading the self test.

Register 2 cannot be written.  A read of it returns what the second `cross_impl` makes of
the test word under the control word, and the two words are what software wrote last.  So
a patient master that writes a pattern and reads register 2 learns what the crossbar on the
pins does with that pattern, without touching the pins.
-/
import CanBench.Axi.Atomic
import CanBench.CrossbarV1.Agreement

namespace CanBench.CrossbarV1

open Lib Axi

/-- The read word, bit by bit. -/
theorem slvReg2_getLsbD (slvReg : BitVec 2 → BitVec 32) (k : Nat) :
    (slvReg2 slvReg).getLsbD k
      = if k < 4 then (crossTest slvReg).canTx.getLsbD k
        else if k < 8 then (crossTest slvReg).ifcRx.getLsbD (k - 4)
        else false := by
  unfold slvReg2
  rw [BitVec.getLsbD_append, BitVec.getLsbD_append]
  by_cases h4 : k < 4
  · simp [h4]
  · by_cases h8 : k < 8
    · have h8' : k - 4 < 4 := by omega
      simp [h4, h8, h8']
    · have h8' : ¬ k - 4 < 4 := by omega
      simp [h4, h8, h8']

/-- The test word is a pattern for both sides: with that pattern on the pins the live
crossbar is the test crossbar. -/
theorem crossTest_eq_pins {slvReg : BitVec 2 → BitVec 32} {canRx ifcTx : BitVec 4}
    (hpattern : (slvReg 1).extractLsb' 0 8 = canRx ++ ifcTx) :
    crossTest slvReg = pins slvReg canRx ifcTx := by
  have hbit : ∀ k < 8, (slvReg 1).getLsbD k = (canRx ++ ifcTx).getLsbD k := by
    intro k hk
    rw [← hpattern, BitVec.getLsbD_extractLsb']
    simp [hk]
  have hrx : (slvReg 1).extractLsb' 4 4 = canRx := by
    apply BitVec.eq_of_getLsbD_eq
    intro k hk
    rw [BitVec.getLsbD_extractLsb', hbit (4 + k) (by omega), BitVec.getLsbD_append]
    simp [hk]
  have htx : (slvReg 1).extractLsb' 0 4 = ifcTx := by
    apply BitVec.eq_of_getLsbD_eq
    intro k hk
    rw [BitVec.getLsbD_extractLsb', hbit (0 + k) (by omega), BitVec.getLsbD_append]
    simp [hk]
  unfold crossTest pins
  rw [hrx, htx]

/--
**The self test tells what the pins would do.**  In every run under a patient master, a
read of register 2 is answered in the next clock with the wired levels of the test pattern
under the routing written last: bits 0 to 3 are what the CAN ports transmit, bits 4 to 7
what the controllers receive, and they are the outputs of the live crossbar for that
pattern on its inputs.
-/
theorem selfTest_reads_pins {h : List (Watched 4 2 × (SlaveIn 4 × Unit))} {s : Watched 4 2}
    (r : Run bank.watched h s) (hpatient : ∀ e ∈ h, patient e.1 e.2)
    {e e' : Watched 4 2 × (SlaveIn 4 × Unit)} (hpair : [e, e'] <:+: h)
    (hi : e.2.1.aresetn = true)
    (hread : arBeat e.1.bank.axi e.2.1 = true)
    (haddr : locAddr 2 e.2.1.araddr = 2#2) {canRx ifcTx : BitVec 4}
    (hpattern : (e.1.served.file 1).extractLsb' 0 8 = canRx ++ ifcTx) :
    e'.1.bank.axi.axiRvalid = true ∧
    ∃ p : CrossIn, p = pins e.1.bank.slvReg canRx ifcTx ∧
      (∀ k : Fin 4, e'.1.bank.axi.axiRdata.getLsbD k.val = p.routing.busTx ifcTx.getLsb k ∧
        e'.1.bank.axi.axiRdata.getLsbD (4 + k.val) = p.lineLevel (p.ifcLine k).toNat) ∧
      e'.1.bank.axi.axiRdata = 0#24 ++ p.ifcRx ++ p.canTx := by
  have htaken : readTaken e.1.bank.axi e.2.1 e.2.2 = some (e.2.1.araddr, ()) := if_pos hread
  obtain ⟨hvalid, hdata⟩ := read_answered bank r hpatient hpair hi htaken
  have hfile : e.1.bank.slvReg = e.1.served.file := by
    have hmem : e ∈ h := hpair.subset (by simp)
    exact ((patient_apart bank r hpatient) e.1 (Or.inr ⟨e.2, hmem⟩)).1.file
  have hword : e'.1.bank.axi.axiRdata = slvReg2 e.1.served.file := by
    rw [hdata]
    show (if locAddr 2 e.2.1.araddr = 2#2 then slvReg2 e.1.served.file else _) = _
    rw [if_pos haddr]
  have htest := crossTest_eq_pins hpattern
  refine ⟨hvalid, pins e.1.bank.slvReg canRx ifcTx, rfl, ?_, ?_⟩
  · rw [hfile]
    intro k
    have hk := k.isLt
    refine ⟨?_, ?_⟩
    · rw [hword, slvReg2_getLsbD, if_pos hk, htest, BitVec.getLsbD_eq_getElem hk]
      exact (pins e.1.served.file canRx ifcTx).canTx_getLsb k
    · rw [hword, slvReg2_getLsbD, if_neg (by omega), if_pos (by omega), htest,
        Nat.add_sub_cancel_left, BitVec.getLsbD_eq_getElem hk]
      exact (pins e.1.served.file canRx ifcTx).ifcRx_getLsb k
  · rw [hword, slvReg2, htest, hfile]

/-- A master that takes every answer at once. -/
def eager : SlaveIn 4 where
  aresetn := true
  awaddr := 4#4
  awvalid := false
  wdata := 0#32
  wstrb := 0xf#4
  wvalid := false
  bready := true
  araddr := 8#4
  arvalid := false
  rready := true

/-- A dominant bit of controller 3 and of CAN port 1 is written as the pattern, and the
result read. -/
def testWrite : SlaveIn 4 := { eager with awvalid := true, wvalid := true, wdata := 0xd7#32 }

def testRead : SlaveIn 4 := { eager with arvalid := true }

def selfTestRun : List (SlaveIn 4 × Unit) :=
  [(testWrite, ()), (testWrite, ()), (testRead, ()), (testRead, ()), (eager, ())]

def selfTestState (k : Nat) : Watched 4 2 :=
  bank.watched.runFrom (Watched.reset bank) (selfTestRun.take k)

theorem selfTest_reads_pins_after_reset :
    (selfTestState 4).bank.axi.axiRvalid = true ∧
    ∃ p : CrossIn, p = pins (selfTestState 3).bank.slvReg 0xd#4 0x7#4 ∧
      (∀ k : Fin 4, (selfTestState 4).bank.axi.axiRdata.getLsbD k.val
          = p.routing.busTx (0x7#4).getLsb k ∧
        (selfTestState 4).bank.axi.axiRdata.getLsbD (4 + k.val)
          = p.lineLevel (p.ifcLine k).toNat) ∧
      (selfTestState 4).bank.axi.axiRdata = 0#24 ++ p.ifcRx ++ p.canTx :=
  selfTest_reads_pins
    (System.run_of_steps bank.watched selfTestRun (Run.start rfl) (by decide)) (by decide)
    (show [(selfTestState 3, (testRead, ())), (selfTestState 4, (eager, ()))]
        <:+: bank.watched.steps (Watched.reset bank) selfTestRun from
      ⟨bank.watched.steps (Watched.reset bank) (selfTestRun.take 3), [], rfl⟩)
    rfl (by decide) (by decide) (by decide +kernel)

end CanBench.CrossbarV1
