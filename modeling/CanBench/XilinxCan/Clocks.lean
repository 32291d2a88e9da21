/-
The clocks of the core: `can_clk` and `bus_clk` over the life of the device.

A clock has a prepare count and an enable count, and what stands here is the driver's own
share of them.  Every entry point that changes them is written out with the unwinding of
its failures and with every access to a register, in the order of the source.  `faults`
notes what must not happen: a count below zero, a register accessed while a clock is off,
and an open that fails or is undone by a close and leaves other counts than it found.

The kernel opens and closes, suspends and resumes, asks for the error counters, which it
also does while the interface is down, and removes the device, which closes it if it is up.
Suspend and resume gate the clocks of whatever they find by looking drvdata up twice, which
is not this device; the remove looks it up once.
-/
import CanBench.Lib.Runs
import CanBench.XilinxCan.Mode

namespace CanBench.XilinxCan

open Lib

inductive Clk
  | can | bus
deriving DecidableEq

structure ClkCount where
  prepare : Int
  enable : Int
deriving DecidableEq

inductive ClkFault
  | negative (clk : Clk)
  | unclocked
  | unbalanced
deriving DecidableEq

/-- The registers these functions access. -/
inductive XcanOffset
  | srr | msr | brpr | btr | ecr | sr | ier
deriving DecidableEq

structure Clocks where
  canClk : ClkCount
  busClk : ClkCount
  faults : List ClkFault
deriving DecidableEq

namespace Clocks

def note (fault : ClkFault) (s : Clocks) : Clocks := { s with faults := s.faults ++ [fault] }

def count (s : Clocks) : Clk → ClkCount
  | .can => s.canClk
  | .bus => s.busClk

def setCount (clk : Clk) (k : ClkCount) (s : Clocks) : Clocks :=
  match clk with
  | .can => { s with canClk := k }
  | .bus => { s with busClk := k }

/-! ### The clock framework -/

def change (clk : Clk) (prepare enable : Int) (s : Clocks) : Clocks :=
  let k : ClkCount := { prepare := (s.count clk).prepare + prepare
                        enable := (s.count clk).enable + enable }
  let s := s.setCount clk k
  if k.prepare < 0 ∨ k.enable < 0 then s.note (.negative clk) else s

/-- `clk_enable`, where it succeeds; a failure changes nothing. -/
def clkEnable (clk : Clk) (s : Clocks) : Clocks := s.change clk 0 1

/-- `clk_disable`. -/
def clkDisable (clk : Clk) (s : Clocks) : Clocks := s.change clk 0 (-1)

/-- `clk_prepare_enable`, where it succeeds. -/
def clkPrepareEnable (clk : Clk) (s : Clocks) : Clocks := (s.change clk 1 0).clkEnable clk

/-- `clk_disable_unprepare`. -/
def clkDisableUnprepare (clk : Clk) (s : Clocks) : Clocks := (s.clkDisable clk).change clk (-1) 0

/-! ### Registers -/

def Running (s : Clocks) : Prop := 0 < s.canClk.enable ∧ 0 < s.busClk.enable

instance (s : Clocks) : Decidable s.Running := inferInstanceAs (Decidable (_ ∧ _))

def access (s : Clocks) : Clocks := if s.Running then s else s.note .unclocked

def readReg (_ : XcanOffset) (s : Clocks) : Clocks := s.access
def writeReg (_ : XcanOffset) (s : Clocks) : Clocks := s.access

/-- `while (!(read_reg(SR) & mask))`: the values read until the time is up. -/
def waitFor (mask : BitVec 32) : List (BitVec 32) → Clocks → Clocks × Bool
  | [], s => (s, false)
  | sr :: rest, s => if test sr mask then (s.readReg .sr, true) else waitFor mask rest (s.readReg .sr)

/-! ### The chip -/

/-- `set_reset_mode`. -/
def setResetMode (config : List (BitVec 32)) (s : Clocks) : Clocks × Bool :=
  waitFor xcanSrConfigMask config (s.writeReg .srr)

/-- `xcan_set_bittiming`. -/
def xcanSetBittiming (sr : BitVec 32) (s : Clocks) : Clocks × Bool :=
  let s := s.readReg .sr
  if !test sr xcanSrConfigMask then (s, false)
  else ((((s.writeReg .brpr).writeReg .btr).readReg .brpr).readReg .btr, true)

/-- `xcan_chip_start`. -/
def xcanChipStart (loopback : Bool) (e : ChipReads) (s : Clocks) : Clocks × Bool :=
  let (s, ok) := s.setResetMode e.config
  if !ok then (s, false) else
  let (s, ok) := s.xcanSetBittiming e.bittiming
  if !ok then (s, false) else
  let s := ((s.writeReg .ier).writeReg .msr).writeReg .srr
  let (s, ok) := s.waitFor (if loopback then xcanSrLbackMask else xcanSrNormalMask) e.mode
  if !ok then (s, false) else (s.readReg .sr, true)

/-- `xcan_chip_stop`. -/
def xcanChipStop (s : Clocks) : Clocks := ((s.readReg .ier).writeReg .ier).writeReg .srr

/-! ### The entry points -/

/-- `xcan_probe`, where it succeeds. -/
def xcanProbe (s : Clocks) : Clocks :=
  let s := (s.clkPrepareEnable .can).clkPrepareEnable .bus
  let s := s.readReg .sr
  (s.clkDisableUnprepare .bus).clkDisableUnprepare .can

/-- `xcan_open`. -/
def xcanOpen (loopback : Bool) (e : OpenResults) (s : Clocks) : Clocks × Bool :=
  let errCanClk := fun s : Clocks => (s.clkDisableUnprepare .can, false)
  let errBusClk := fun s : Clocks => errCanClk (s.clkDisableUnprepare .bus)
  if !e.requestIrq then (s, false) else
  if !e.enableCanClk then (s, false) else
  let s := s.clkPrepareEnable .can
  if !e.enableBusClk then errCanClk s else
  let s := s.clkPrepareEnable .bus
  let (s, ok) := s.setResetMode e.config
  if !ok then errBusClk s else
  if !e.openCandev then errBusClk s else
  let (s, ok) := s.xcanChipStart loopback e.chip
  if !ok then errBusClk s else (s, true)

/-- `xcan_close`. -/
def xcanClose (s : Clocks) : Clocks :=
  (s.xcanChipStop.clkDisableUnprepare .bus).clkDisableUnprepare .can

/-- `xcan_get_berr_counter`. -/
def xcanGetBerrCounter (enableCanClk enableBusClk : Bool) (s : Clocks) : Clocks :=
  if !enableCanClk then s else
  let s := s.clkPrepareEnable .can
  if !enableBusClk then s.clkDisableUnprepare .can else
  let s := s.clkPrepareEnable .bus
  let s := (s.readReg .ecr).readReg .ecr
  (s.clkDisableUnprepare .bus).clkDisableUnprepare .can

/-- `xcan_suspend`. -/
def xcanSuspend (dev : Object) (s : Clocks) : Clocks :=
  let pdev := devGetDrvdata dev
  let ndev := platformGetDrvdata pdev
  s |> ndev.reach fun s => ((s.writeReg .msr).clkDisable .bus).clkDisable .can

/-- `xcan_resume`. -/
def xcanResume (enableBusClk enableCanClk : Bool) (dev : Object) (s : Clocks) : Clocks :=
  let pdev := devGetDrvdata dev
  let ndev := platformGetDrvdata pdev
  s |> ndev.reach fun s =>
    if !enableBusClk then s else
    let s := s.clkEnable .bus
    if !enableCanClk then s.clkDisableUnprepare .bus else
    let s := s.clkEnable .can
    (s.writeReg .msr).writeReg .srr

end Clocks

/-! ### In any order the kernel allows -/

/-- The device: its clocks, what the kernel knows of it, and the counts before the last
open. -/
structure ClkDev where
  clocks : Clocks
  up : Bool
  suspended : Bool
  removed : Bool
  beforeOpen : ClkCount × ClkCount
deriving DecidableEq

inductive ClkOp
  | open (loopback : Bool) (e : OpenResults)
  | close
  | getBerrCounter (enableCanClk enableBusClk : Bool)
  | suspend
  | resume (enableBusClk enableCanClk : Bool)
  | remove (config : List (BitVec 32))
deriving DecidableEq

namespace Clocks

def counts (s : Clocks) : ClkCount × ClkCount := (s.canClk, s.busClk)

/-- Notes counts that are not as they were. -/
def compare (before : ClkCount × ClkCount) (s : Clocks) : Clocks :=
  if s.counts = before then s else s.note .unbalanced

end Clocks

namespace ClkDev

def close (s : ClkDev) : ClkDev :=
  { s with clocks := s.clocks.xcanClose.compare s.beforeOpen, up := false }

/-- `xcan_remove`; `unregister_candev` closes an interface that is up. -/
def remove (config : List (BitVec 32)) (pdev : Object) (s : ClkDev) : ClkDev :=
  let ndev := platformGetDrvdata pdev
  s |> ndev.reach fun s =>
    let s := { s with clocks := (s.clocks.setResetMode config).1 }
    { (if s.up then s.close else s) with removed := true }

def op (s : ClkDev) : ClkOp → ClkDev
  | .open loopback e =>
      let (clocks, ok) := s.clocks.xcanOpen loopback e
      if !ok then { s with clocks := clocks.compare s.clocks.counts }
      else { s with clocks := clocks, up := true, beforeOpen := s.clocks.counts }
  | .close => s.close
  | .getBerrCounter can bus => { s with clocks := s.clocks.xcanGetBerrCounter can bus }
  | .suspend => { s with clocks := s.clocks.xcanSuspend .platformDevice, suspended := true }
  | .resume bus can =>
      { s with clocks := s.clocks.xcanResume bus can .platformDevice, suspended := false }
  | .remove config => s.remove config .platformDevice

/-- The error counters go into the notice of a lost carrier too, which is sent whether the
system is suspended or not. -/
def allows (s : ClkDev) : ClkOp → Bool
  | .open _ _ => !s.removed && !s.suspended && !s.up
  | .close => !s.removed && !s.suspended && s.up
  | .getBerrCounter _ _ => !s.removed
  | .suspend | .remove _ => !s.removed && !s.suspended
  | .resume _ _ => !s.removed && s.suspended

/-- A device just probed. -/
def probed : ClkDev where
  clocks := Clocks.xcanProbe { canClk := ⟨0, 0⟩, busClk := ⟨0, 0⟩, faults := [] }
  up := false
  suspended := false
  removed := false
  beforeOpen := (⟨0, 0⟩, ⟨0, 0⟩)

end ClkDev

def clkSystem : System ClkDev ClkOp where
  init := fun s => s = ClkDev.probed
  allowed := fun s a => s.allows a = true
  next := ClkDev.op

end CanBench.XilinxCan
