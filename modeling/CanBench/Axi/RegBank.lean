/-
The register files behind the shared slave.

Five peripherals put a bank of words behind the handshake of `Axi/Slave.lean` and differ
only in its size, its reset values, which words a write reaches, and what a read returns;
the PWM generator's bank also counts by itself.  A `RegBank` lists those differences and
`RegBank.next` is the clocked process they share.

`RegBank.file` is the bank as a plain register file: nothing of the handshake is left in
it.  `Watched` runs the two next to each other and puts on the bus any master that keeps
what it offers.
-/
import CanBench.Lib.Runs
import CanBench.Lib.RegisterFile
import CanBench.Axi.Slave

namespace CanBench.Axi

open Lib

/-- What one peripheral's register process and read multiplexer say.  `ρ` are its input
ports that can be read back. -/
structure RegBank (addrWidth locWidth : Nat) (ρ : Type) where
  resetReg : BitVec locWidth → BitVec 32
  /-- The reset value of `axi_araddr`. -/
  resetAraddr : BitVec addrWidth
  /-- The words the write loop has a branch for. -/
  writable : BitVec locWidth → Bool
  /-- What the process assigns to the words before it looks at the bus. -/
  tick : (BitVec locWidth → BitVec 32) → BitVec locWidth → BitVec 32
  /-- The read multiplexer. -/
  read : (BitVec locWidth → BitVec 32) → ρ → BitVec locWidth → BitVec 32

structure BankState (addrWidth locWidth : Nat) where
  axi : SlaveRegs addrWidth
  slvReg : BitVec locWidth → BitVec 32

/-- `axi_awaddr(ADDR_LSB + OPT_MEM_ADDR_BITS downto ADDR_LSB)`, and the same of `axi_araddr`. -/
def locAddr {addrWidth : Nat} (locWidth : Nat) (addr : BitVec addrWidth) : BitVec locWidth :=
  addr.extractLsb' 2 locWidth

namespace RegBank

variable {addrWidth locWidth : Nat} {ρ : Type} (B : RegBank addrWidth locWidth ρ)

/-- The registers and handshake after reset. -/
def reset : BankState addrWidth locWidth where
  axi := { SlaveRegs.reset with axiAraddr := B.resetAraddr }
  slvReg := B.resetReg

/-- The `case loc_addr` of the register process. -/
def writeReg (loc : BitVec locWidth) (wdata : BitVec 32) (wstrb : BitVec 4)
    (regs : BitVec locWidth → BitVec 32) : BitVec locWidth → BitVec 32 :=
  if B.writable loc then Function.update regs loc (writeBytes (regs loc) wdata wstrb) else regs

/-- One rising edge of `S_AXI_ACLK`. -/
def next (s : BankState addrWidth locWidth) (i : SlaveIn addrWidth) (port : ρ) :
    BankState addrWidth locWidth :=
  if !i.aresetn then B.reset else
    { axi := s.axi.next true (B.read s.slvReg port (locAddr locWidth s.axi.axiAraddr)) i
      slvReg :=
        if s.axi.slvRegWren i then
          B.writeReg (locAddr locWidth s.axi.axiAwaddr) i.wdata i.wstrb (B.tick s.slvReg)
        else B.tick s.slvReg }

/-- The bank with no bus in front of it: a write is an address, a word and its strobes, a
read is an address and what the input ports show. -/
def file : RegFile (BitVec locWidth → BitVec 32) (BitVec addrWidth × BitVec 32 × BitVec 4)
    (BitVec addrWidth × ρ) (BitVec 32) where
  tick := B.tick
  write := fun a regs => B.writeReg (locAddr locWidth a.1) a.2.1 a.2.2 regs
  read := fun b regs => B.read regs b.2 (locAddr locWidth b.1)

/-- A bank of words that software alone writes, all of them readable. -/
def plain (addrWidth locWidth : Nat) : RegBank addrWidth locWidth Unit where
  resetReg := fun _ => 0#32
  resetAraddr := BitVec.allOnes addrWidth
  writable := fun _ => true
  tick := id
  read := fun regs _ loc => regs loc

end RegBank

/-! ### The pins of a bank -/

section Pins

variable {addrWidth : Nat} (s : SlaveRegs addrWidth) (i : SlaveIn addrWidth)

/-- `AWREADY` and `AWVALID` at a clock edge. -/
def awBeat : Bool := s.axiAwready && i.awvalid

/-- `WREADY` and `WVALID` at a clock edge. -/
def wBeat : Bool := s.axiWready && i.wvalid

/-- `ARREADY` and `ARVALID` at a clock edge. -/
def arBeat : Bool := s.axiArready && i.arvalid

/-- A write response is taken. -/
def bDone : Bool := s.axiBvalid && i.bready

/-- A read response is taken. -/
def rDone : Bool := s.axiRvalid && i.rready

/-- The write the pins show to be taken: the address and the data of this clock edge. -/
def writeTaken : Option (BitVec addrWidth × BitVec 32 × BitVec 4) :=
  if awBeat s i && wBeat s i then some (i.awaddr, i.wdata, i.wstrb) else none

/-- The read the pins show to be taken. -/
def readTaken {ρ : Type} (port : ρ) : Option (BitVec addrWidth × ρ) :=
  if arBeat s i then some (i.araddr, port) else none

/-- An access is taken while the answer to the one before it is still on the bus. -/
def overlaps : Bool :=
  i.aresetn && ((awBeat s i && wBeat s i && s.axiBvalid) || (arBeat s i && s.axiRvalid))

end Pins

/-- A bank, what its master has on offer, and the register file it should be. -/
structure Watched (addrWidth locWidth : Nat) where
  bank : BankState addrWidth locWidth
  aw : Held (BitVec addrWidth)
  w : Held (BitVec 32 × BitVec 4)
  ar : Held (BitVec addrWidth)
  served : Served (BitVec locWidth → BitVec 32) (BitVec 32)

namespace Watched

variable {addrWidth locWidth : Nat} {ρ : Type} (B : RegBank addrWidth locWidth ρ)

/-- After a reset nothing is offered and nothing owed. -/
def reset : Watched addrWidth locWidth where
  bank := B.reset
  aw := none
  w := none
  ar := none
  served := ⟨B.resetReg, 0, []⟩

def next (x : Watched addrWidth locWidth) (e : SlaveIn addrWidth × ρ) :
    Watched addrWidth locWidth :=
  if !e.1.aresetn then reset B else
    { bank := B.next x.bank e.1 e.2
      aw := Held.next e.1.awvalid x.bank.axi.axiAwready e.1.awaddr
      w := Held.next e.1.wvalid x.bank.axi.axiWready (e.1.wdata, e.1.wstrb)
      ar := Held.next e.1.arvalid x.bank.axi.axiArready e.1.araddr
      served := B.file.serve x.served (writeTaken x.bank.axi e.1) (readTaken x.bank.axi e.1 e.2)
        (bDone x.bank.axi e.1) (rDone x.bank.axi e.1) }

/-- The master offers what it has to. -/
def allows (x : Watched addrWidth locWidth) (i : SlaveIn addrWidth) : Prop :=
  i.aresetn = true → x.aw.follows i.awvalid i.awaddr ∧ x.w.follows i.wvalid (i.wdata, i.wstrb) ∧
    x.ar.follows i.arvalid i.araddr

instance (x : Watched addrWidth locWidth) (i : SlaveIn addrWidth) : Decidable (x.allows i) :=
  inferInstanceAs (Decidable (_ → _ ∧ _ ∧ _))

/-- The bank is the register file: it holds the same words, and what it has on offer is
what it owes. -/
structure InStep (x : Watched addrWidth locWidth) : Prop where
  file : x.bank.slvReg = x.served.file
  writes : x.served.writes = x.bank.axi.axiBvalid.toNat
  reads : x.served.reads = if x.bank.axi.axiRvalid then [x.bank.axi.axiRdata] else []

end Watched

/-- Runs of a bank from a reset, under any master that keeps what it offers. -/
def RegBank.watched {addrWidth locWidth : Nat} {ρ : Type} (B : RegBank addrWidth locWidth ρ) :
    System (Watched addrWidth locWidth) (SlaveIn addrWidth × ρ) where
  init := fun x => x = Watched.reset B
  allowed := fun x e => x.allows e.1
  next := Watched.next B

instance {addrWidth locWidth : Nat} {ρ : Type} (B : RegBank addrWidth locWidth ρ)
    (x : Watched addrWidth locWidth) (e : SlaveIn addrWidth × ρ) :
    Decidable (B.watched.allowed x e) := inferInstanceAs (Decidable (x.allows e.1))

end CanBench.Axi
