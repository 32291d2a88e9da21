/-
The display controller: `display_16bit_cmd_data_bus_v1_0_S00_AXI.vhd` wired to the LCD
state machine as `display_16bit_cmd_data_bus_v1_0.vhd` does it.

The slave is the shared handshake with `ready_for_rq` as the extra condition on
`axi_wready`, a register file of sixteen words, and the request to the state machine
that a write to register 2 (command) or 3 (data) raises.  The register is selected by
`loc_addr`, so the file is indexed by it.

The wrapper instantiates the state machine with a divider of 1 and `clk_en => '1'`, on
the slave's clock and reset.  `displaySystem` puts a master in front of it that keeps
what it offers, waits for each response, and is otherwise free.
-/
import CanBench.Lib.Runs
import CanBench.Lib.AxiLite
import CanBench.Axi.Slave
import CanBench.Display.IoFsm

namespace CanBench.Display

open Lib Axi

/-- The slave's registers and the outputs to the state machine. -/
structure S00 where
  axi : SlaveRegs 6
  slvReg : BitVec 4 → BitVec 32
  dataOut : BitVec 32
  dcOut : Bool
  trasferRq : Bool
  trasferRqDbl : Bool

namespace S00

/-- `axi_awaddr(ADDR_LSB + OPT_MEM_ADDR_BITS downto ADDR_LSB)`, and the same of `axi_araddr`. -/
def locAddr (addr : BitVec 6) : BitVec 4 := addr.extractLsb' 2 4

/-- The register write process. -/
def writeRegs (s : S00) (i : SlaveIn 6) : S00 :=
  if !i.aresetn then
    { s with slvReg := fun _ => 0#32, dataOut := 0#32, dcOut := false,
             trasferRq := false, trasferRqDbl := false }
  else if s.axi.slvRegWren i then
    let loc := locAddr s.axi.axiAwaddr
    let slvReg := Function.update s.slvReg loc (writeBytes (s.slvReg loc) i.wdata i.wstrb)
    if loc = 2#4 then
      { s with slvReg := slvReg, dataOut := i.wdata, dcOut := false,
               trasferRq := true, trasferRqDbl := i.wstrb.getLsbD 2 }
    else if loc = 3#4 then
      { s with slvReg := slvReg, dataOut := i.wdata, dcOut := true,
               trasferRq := true, trasferRqDbl := i.wstrb.getLsbD 2 }
    else { s with slvReg := slvReg, trasferRq := false }
  else { s with trasferRq := false }

/-- One rising edge of `S_AXI_ACLK`. -/
def next (s : S00) (readyForRq : Bool) (i : SlaveIn 6) : S00 :=
  { s.writeRegs i with
    axi := s.axi.next readyForRq (s.slvReg (locAddr s.axi.axiAraddr)) i }

end S00

/-- The wrapper's state, and the master as its write channels show it. -/
structure Board where
  slave : S00
  fsm : IoFsm 32 16
  master : WriteMaster (BitVec 6) (BitVec 32 × BitVec 4)

namespace Board

/-- The state machine's inputs: `fsm_rst <= not s00_axi_aresetn`, `clk_en => '1'`. -/
def fsmIn (b : Board) (i : SlaveIn 6) : IoFsmIn 32 where
  resetIn := !i.aresetn
  clkEn := true
  dataOut := b.slave.dataOut
  dcOut := b.slave.dcOut
  trasferRq := b.slave.trasferRq
  trasferRqDbl := b.slave.trasferRqDbl

/-- `AWREADY` and `AWVALID` at a clock edge. -/
def awHandshake (b : Board) (i : SlaveIn 6) : Bool := b.slave.axi.axiAwready && i.awvalid

/-- `WREADY` and `WVALID` at a clock edge. -/
def wHandshake (b : Board) (i : SlaveIn 6) : Bool := b.slave.axi.axiWready && i.wvalid

def masterNext (b : Board) (i : SlaveIn 6) : WriteMaster (BitVec 6) (BitVec 32 × BitVec 4) :=
  if !i.aresetn then .idle else
    WriteMaster.respond
      { aw := b.master.aw.next i.awvalid b.slave.axi.axiAwready i.awaddr
        w := b.master.w.next i.wvalid b.slave.axi.axiWready (i.wdata, i.wstrb) }
      (b.slave.axi.axiBvalid && i.bready)

/-- One clock of the board. -/
def next (b : Board) (i : SlaveIn 6) : Board where
  slave := b.slave.next b.fsm.readyForRq i
  fsm := b.fsm.next 1 (b.fsmIn i)
  master := b.masterNext i

/-- The master offers what it has to, and nothing while it waits for a response. -/
def allows (b : Board) (i : SlaveIn 6) : Bool :=
  !i.aresetn || (b.master.aw.follows i.awvalid i.awaddr
    && b.master.w.follows i.wvalid (i.wdata, i.wstrb))

end Board

/-- Runs of the board from a reset, under any such master; further resets may follow. -/
def displaySystem : System Board (SlaveIn 6) where
  init := fun b => ∃ b₀ i, i.aresetn = false ∧ b = Board.next b₀ i
  allowed := fun b i => b.allows i = true
  next := Board.next

end CanBench.Display
