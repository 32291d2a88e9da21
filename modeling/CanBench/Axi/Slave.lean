/-
The AXI4-Lite slave the peripherals share.

Every `*_S00_AXI.vhd` of the repository carries the same handshake processes around its
own register file.  `SlaveRegs.next` is those processes; the two things a peripheral
adds are an extra condition on `axi_wready` (only the display has one, the others pass
`true`) and the word its read multiplexer selects.  The register file itself, and what a
write triggers, stay with the peripheral.

`axi_bresp` and `axi_rresp` are left out: no process ever assigns anything but "00".
-/
import CanBench.Lib.ByteLanes

namespace CanBench.Axi

open Lib

/-- The slave's input ports; `awprot` and `arprot` are not read. -/
structure SlaveIn (addrWidth : Nat) where
  aresetn : Bool
  awaddr : BitVec addrWidth
  awvalid : Bool
  wdata : BitVec 32
  wstrb : BitVec 4
  wvalid : Bool
  bready : Bool
  araddr : BitVec addrWidth
  arvalid : Bool
  rready : Bool
deriving DecidableEq

/-- The handshake registers. -/
structure SlaveRegs (addrWidth : Nat) where
  axiAwready : Bool
  axiAwaddr : BitVec addrWidth
  axiWready : Bool
  axiBvalid : Bool
  axiArready : Bool
  axiAraddr : BitVec addrWidth
  axiRvalid : Bool
  axiRdata : BitVec 32
deriving DecidableEq

namespace SlaveRegs

variable {addrWidth : Nat}

/-- `slv_reg_wren`. -/
def slvRegWren (s : SlaveRegs addrWidth) (i : SlaveIn addrWidth) : Bool :=
  s.axiWready && i.wvalid && s.axiAwready && i.awvalid

/-- `slv_reg_rden`. -/
def slvRegRden (s : SlaveRegs addrWidth) (i : SlaveIn addrWidth) : Bool :=
  s.axiArready && i.arvalid && !s.axiRvalid

/-- What the reset branches of the processes assign. -/
def reset : SlaveRegs addrWidth where
  axiAwready := false
  axiAwaddr := 0
  axiWready := false
  axiBvalid := false
  axiArready := false
  axiAraddr := BitVec.allOnes addrWidth
  axiRvalid := false
  axiRdata := 0#32

/-- The address is accepted, and latched, when it and the data are offered together. -/
def awAccept (s : SlaveRegs addrWidth) (i : SlaveIn addrWidth) : Bool :=
  !s.axiAwready && i.awvalid && i.wvalid

/-- One rising edge of `S_AXI_ACLK`. -/
def next (s : SlaveRegs addrWidth) (wreadyGate : Bool) (regDataOut : BitVec 32)
    (i : SlaveIn addrWidth) : SlaveRegs addrWidth :=
  if !i.aresetn then reset else
    { axiAwready := s.awAccept i
      axiAwaddr := if s.awAccept i then i.awaddr else s.axiAwaddr
      axiWready := !s.axiWready && i.wvalid && i.awvalid && wreadyGate
      axiBvalid :=
        if s.axiAwready && i.awvalid && s.axiWready && i.wvalid && !s.axiBvalid then true
        else if i.bready && s.axiBvalid then false
        else s.axiBvalid
      axiArready := !s.axiArready && i.arvalid
      axiAraddr := if !s.axiArready && i.arvalid then i.araddr else s.axiAraddr
      axiRvalid :=
        if s.axiArready && i.arvalid && !s.axiRvalid then true
        else if s.axiRvalid && i.rready then false
        else s.axiRvalid
      axiRdata := if s.slvRegRden i then regDataOut else s.axiRdata }

@[simp] theorem next_of_reset (s : SlaveRegs addrWidth) (gate : Bool) (d : BitVec 32)
    {i : SlaveIn addrWidth} (hi : i.aresetn = false) : s.next gate d i = reset := by
  simp [next, hi]

section Running

variable (s : SlaveRegs addrWidth) (gate : Bool) (d : BitVec 32) {i : SlaveIn addrWidth}

theorem next_axiAwready (hi : i.aresetn = true) :
    (s.next gate d i).axiAwready = (!s.axiAwready && i.awvalid && i.wvalid) := by
  simp [next, hi, awAccept]

theorem next_axiWready (hi : i.aresetn = true) :
    (s.next gate d i).axiWready = (!s.axiWready && i.wvalid && i.awvalid && gate) := by
  simp [next, hi]

theorem next_axiAwaddr (hi : i.aresetn = true) :
    (s.next gate d i).axiAwaddr = if s.awAccept i then i.awaddr else s.axiAwaddr := by
  simp [next, hi]

theorem next_axiBvalid (hi : i.aresetn = true) :
    (s.next gate d i).axiBvalid
      = if s.slvRegWren i && !s.axiBvalid then true
        else if i.bready && s.axiBvalid then false else s.axiBvalid := by
  have hwren : (s.axiAwready && i.awvalid && s.axiWready && i.wvalid) = s.slvRegWren i := by
    unfold slvRegWren
    cases s.axiAwready <;> cases s.axiWready <;> cases i.awvalid <;> cases i.wvalid <;> rfl
  simp [next, hi, hwren]

theorem next_axiArready (hi : i.aresetn = true) :
    (s.next gate d i).axiArready = (!s.axiArready && i.arvalid) := by
  simp [next, hi]

theorem next_axiAraddr (hi : i.aresetn = true) :
    (s.next gate d i).axiAraddr
      = if !s.axiArready && i.arvalid then i.araddr else s.axiAraddr := by
  simp [next, hi]

theorem next_axiRvalid (hi : i.aresetn = true) :
    (s.next gate d i).axiRvalid
      = if s.slvRegRden i then true
        else if s.axiRvalid && i.rready then false else s.axiRvalid := by
  simp [next, hi, slvRegRden]

theorem next_axiRdata (hi : i.aresetn = true) :
    (s.next gate d i).axiRdata = if s.slvRegRden i then d else s.axiRdata := by
  simp [next, hi]

end Running

end SlaveRegs

/-- The write loop of the register files: `byte_index` runs from 0 to 3. -/
def writeBytes (slvReg wdata : BitVec 32) (wstrb : BitVec 4) : BitVec 32 :=
  writeLanes [0, 1, 2, 3] slvReg wdata wstrb

/-- With no strobe set nothing is written. -/
@[simp] theorem writeBytes_zero (slvReg wdata : BitVec 32) :
    writeBytes slvReg wdata 0#4 = slvReg := by
  simp [writeBytes, writeLanes]

theorem writeBytes_eq_mergeBytes (slvReg wdata : BitVec 32) (wstrb : BitVec 4) :
    writeBytes slvReg wdata wstrb = mergeBytes slvReg wdata wstrb := by
  refine writeLanes_eq_mergeBytes (fun k hk => ?_) slvReg wdata wstrb
  have hlane : k / 8 < 4 := by omega
  interval_cases k / 8 <;> simp

end CanBench.Axi
