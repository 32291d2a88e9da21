/-
Operating modes: the functions of the driver that write the software reset register or
`can.state`.

SRR holds RESET while the core is kept in configuration mode and CEN while it is on the
bus.  `Dev` has the last value written to each register and what the kernel knows of the
interface: up or down, suspended, and the carrier that a bus-off takes away.  What a
function reads or is told is in its argument: the values of SR until the time is up, the
outcome of `request_irq` and the like.

The driver core passes `xcan_suspend` and `xcan_resume` the device itself, and they look
its drvdata up twice, as if the first lookup gave a `platform_device` again.  It gives the
`net_device`, and the second one takes another word of that.  So what they write and clock
is whatever that word points at, and nothing here tells what comes of it; this device they
leave alone, and all that changes is that the kernel takes it to be suspended, or awake.

An interrupt is handled as a whole.  Of `xcan_tx_interrupt` and the scheduling of the
receive poll nothing is here but the registers they are announced in; the rest is in the
modules on transmission and reception.  The queue, which is stopped and woken beside these
registers, is in the module on transmission.
-/
import CanBench.Lib.Runs
import CanBench.XilinxCan.Regs

namespace CanBench.XilinxCan

open Lib

inductive CanState
  | errorActive | errorWarning | errorPassive | busOff | stopped | sleeping
deriving DecidableEq

/-- The registers these functions write. -/
inductive XcanReg
  | srr | msr | brpr | btr | esr | ier | icr
deriving DecidableEq

/-- The fields of `struct can_bittiming` that are read. -/
structure CanBittiming where
  brp : BitVec 32
  propSeg : BitVec 32
  phaseSeg1 : BitVec 32
  phaseSeg2 : BitVec 32
  sjw : BitVec 32
deriving DecidableEq

/-- The counters of `can_stats` and `net_device_stats`. -/
structure ErrStats where
  busOff : Nat
  errorPassive : Nat
  errorWarning : Nat
  arbitrationLost : Nat
  busError : Nat
  rxOverErrors : Nat
  rxErrors : Nat
  txErrors : Nat
  rxPackets : Nat
  rxBytes : Nat
deriving DecidableEq

structure Dev where
  up : Bool
  suspended : Bool
  /-- Taken away by `can_bus_off`, given back by a restart or the next open. -/
  carrierOff : Bool
  canState : CanState
  loopback : Bool
  bittiming : CanBittiming
  written : XcanReg → Option (BitVec 32)
  stats : ErrStats
  errFrames : List CanFrame

/-- The values of SR that `xcan_chip_start` reads: until the time for configuration mode
is up, in `xcan_set_bittiming`, and until the time for the mode is up. -/
structure ChipReads where
  config : List (BitVec 32)
  bittiming : BitVec 32
  mode : List (BitVec 32)
deriving DecidableEq

structure OpenResults where
  requestIrq : Bool
  enableCanClk : Bool
  enableBusClk : Bool
  config : List (BitVec 32)
  openCandev : Bool
  chip : ChipReads
deriving DecidableEq

/-- What the handler reads; ECR is read twice.  `skb` tells whether there is memory for
an error frame. -/
structure IrqReads where
  isr : BitVec 32
  esr : BitVec 32
  ecrTec : BitVec 32
  ecrRec : BitVec 32
  sr : BitVec 32
  ier : BitVec 32
  skb : Bool
deriving DecidableEq

/-! ### Drvdata -/

/-- What a pointer of the driver core points at: the two structs of this device, or
anything else. -/
inductive Object
  | platformDevice | netDevice | other
deriving DecidableEq

/-- `dev_get_drvdata`.  `xcan_probe` has stored the `net_device` in the device; in any other
struct this is the word that happens to be there. -/
def devGetDrvdata : Object → Object
  | .platformDevice => .netDevice
  | .netDevice | .other => .other

/-- `platform_get_drvdata`: that of `&pdev->dev`. -/
def platformGetDrvdata (pdev : Object) : Object := devGetDrvdata pdev

/-- What this device sees of a function that goes on with the `net_device` it has found. -/
def Object.reach {σ : Type} (ndev : Object) (body : σ → σ) (s : σ) : σ :=
  match ndev with
  | .netDevice => body s
  | .platformDevice | .other => s

/-- Looked up twice, drvdata leads away from the device. -/
theorem reach_drvdata_drvdata {σ : Type} (body : σ → σ) (s : σ) :
    (platformGetDrvdata (devGetDrvdata .platformDevice)).reach body s = s := rfl

namespace Dev

def writeReg (reg : XcanReg) (val : BitVec 32) (s : Dev) : Dev :=
  { s with written := Function.update s.written reg (some val) }

/-! ### Starting and stopping the chip -/

/-- `while (!(read_reg(SR) & mask))`, given up when the time is. -/
def waitFor (reads : List (BitVec 32)) (mask : BitVec 32) : Bool :=
  reads.any fun sr => test sr mask

/-- `set_reset_mode`. -/
def setResetMode (config : List (BitVec 32)) (s : Dev) : Dev × Bool :=
  (s.writeReg .srr xcanSrrResetMask, waitFor config xcanSrConfigMask)

/-- `xcan_set_bittiming`. -/
def xcanSetBittiming (sr : BitVec 32) (s : Dev) : Dev × Bool :=
  if !test sr xcanSrConfigMask then (s, false)
  else
    let bt := s.bittiming
    let btr0 := bt.brp - 1
    let btr1 := bt.propSeg + bt.phaseSeg1 - 1
    let btr1 := btr1 ||| (bt.phaseSeg2 - 1) <<< 4
    let btr1 := btr1 ||| (bt.sjw - 1) <<< 7
    ((s.writeReg .brpr btr0).writeReg .btr btr1, true)

/-- `xcan_chip_start`. -/
def xcanChipStart (e : ChipReads) (s : Dev) : Dev × Bool :=
  let (s, ok) := s.setResetMode e.config
  if !ok then (s, false) else
  let (s, ok) := s.xcanSetBittiming e.bittiming
  if !ok then (s, false) else
  let s := s.writeReg .ier xcanIntrAll
  let s := s.writeReg .msr (if s.loopback then xcanMsrLbackMask else 0#32)
  let s := s.writeReg .srr xcanSrrCenMask
  if !waitFor e.mode (if s.loopback then xcanSrLbackMask else xcanSrNormalMask) then (s, false)
  else ({ s with canState := .errorActive }, true)

/-- `xcan_chip_stop`. -/
def xcanChipStop (ier : BitVec 32) (s : Dev) : Dev :=
  let s := s.writeReg .ier (ier &&& ~~~xcanIntrAll)
  let s := s.writeReg .srr xcanSrrResetMask
  { s with canState := .stopped }

/-! ### The operations of the interface -/

/-- `xcan_open`; `open_candev` switches the carrier on. -/
def xcanOpen (e : OpenResults) (s : Dev) : Dev :=
  if !e.requestIrq then s else
  if !e.enableCanClk then s else
  if !e.enableBusClk then s else
  let (s, ok) := s.setResetMode e.config
  if !ok then s else
  if !e.openCandev then s else
  let (s, ok) := { s with carrierOff := false }.xcanChipStart e.chip
  if !ok then s else { s with up := true }

/-- `xcan_close`. -/
def xcanClose (ier : BitVec 32) (s : Dev) : Dev := { s.xcanChipStop ier with up := false }

/-- `xcan_do_set_mode(CAN_MODE_START)`, after which the kernel's restart switches the
carrier on, whatever the result. -/
def xcanDoSetMode (e : ChipReads) (s : Dev) : Dev :=
  { (s.xcanChipStart e).1 with carrierOff := false }

/-- `xcan_suspend`. -/
def xcanSuspend (dev : Object) (s : Dev) : Dev :=
  let pdev := devGetDrvdata dev
  let ndev := platformGetDrvdata pdev
  s |> ndev.reach fun s => { s.writeReg .msr xcanMsrSleepMask with canState := .sleeping }

/-- `xcan_resume`. -/
def xcanResume (enableBusClk enableCanClk : Bool) (dev : Object) (s : Dev) : Dev :=
  let pdev := devGetDrvdata dev
  let ndev := platformGetDrvdata pdev
  s |> ndev.reach fun s =>
    if !enableBusClk then s else
    if !enableCanClk then s else
    let s := s.writeReg .msr 0#32
    let s := s.writeReg .srr xcanSrrCenMask
    { s with canState := .errorActive }

theorem xcanSuspend_eq (s : Dev) : s.xcanSuspend .platformDevice = s := by
  unfold xcanSuspend
  exact reach_drvdata_drvdata _ s

theorem xcanResume_eq (bus can : Bool) (s : Dev) :
    s.xcanResume bus can .platformDevice = s := by
  unfold xcanResume
  exact reach_drvdata_drvdata _ s

/-! ### Interrupts -/

/-- `xcan_state_interrupt`. -/
def xcanStateInterrupt (isr : BitVec 32) (s : Dev) : Dev :=
  let s := if test isr xcanIxrSlpMask then { s with canState := .sleeping } else s
  if test isr xcanIxrWkupMask then { s with canState := .errorActive } else s

/-- Both bits of ESTAT. -/
def errPassive (status : BitVec 32) : Bool := status &&& xcanSrEstatMask == xcanSrEstatMask

/-- The errors `xcan_err_interrupt` counts. -/
def errStats (e : IrqReads) (c : ErrStats) : ErrStats :=
  let c := if test e.isr xcanIxrBsoffMask then { c with busOff := c.busOff + 1 }
    else if errPassive e.sr then { c with errorPassive := c.errorPassive + 1 }
    else if test e.sr xcanSrErrwrnMask then { c with errorWarning := c.errorWarning + 1 }
    else c
  let c := if test e.isr xcanIxrArblstMask then
      { c with arbitrationLost := c.arbitrationLost + 1 } else c
  let c := if test e.isr xcanIxrRxoflwMask then
      { c with rxOverErrors := c.rxOverErrors + 1, rxErrors := c.rxErrors + 1 } else c
  if test e.isr xcanIxrErrorMask then
    { c with
      txErrors := c.txErrors + (test e.esr xcanEsrAckerMask).toNat
        + (test e.esr xcanEsrBerrMask).toNat
      rxErrors := c.rxErrors + (test e.esr xcanEsrSterMask).toNat
        + (test e.esr xcanEsrFmerMask).toNat + (test e.esr xcanEsrCrcerMask).toNat
      busError := c.busError + 1 }
  else c

/-- `cf->can_id |= bits; cf->data[k] = v`. -/
def report (cond : Bool) (bits : BitVec 32) (k : Fin 8) (v : BitVec 8 → BitVec 8)
    (cf : CanFrame) : CanFrame :=
  if cond then
    { cf with canId := cf.canId ||| bits, data := Function.update cf.data k (v (cf.data k)) }
  else cf

/-- `cf->data[6] = txerr; cf->data[7] = rxerr`. -/
def reportCounters (cond : Bool) (txerr rxerr : BitVec 32) (cf : CanFrame) : CanFrame :=
  if cond then
    { cf with data := Function.update (Function.update cf.data 6 (txerr.setWidth 8)) 7
                        (rxerr.setWidth 8) }
  else cf

/-- The error frame of `xcan_err_interrupt`, from the empty one of `alloc_can_err_skb`. -/
def errFrame (e : IrqReads) : CanFrame :=
  let txerr := e.ecrTec &&& xcanEcrTecMask
  let rxerr := (e.ecrRec &&& xcanEcrRecMask) >>> 8
  let bsoff := test e.isr xcanIxrBsoffMask
  let passive := !bsoff && errPassive e.sr
  let warning := !bsoff && !errPassive e.sr && test e.sr xcanSrErrwrnMask
  let error := test e.isr xcanIxrErrorMask
  let cf : CanFrame := { canId := 0x20000000, canDlc := 8, data := fun _ => 0#8 }
  let cf := cf |> report bsoff 0x40 0 id
  let cf := cf |> report passive 0x04 1 (fun _ => if 127 < rxerr.toNat then 0x10 else 0x20)
  let cf := cf |> report warning 0x04 1
    (fun v => v ||| if rxerr.toNat < txerr.toNat then 0x08 else 0x04)
  let cf := cf |> reportCounters (passive || warning) txerr rxerr
  let cf := cf |> report (test e.isr xcanIxrArblstMask) 0x02 0 (fun _ => 0x00)
  let cf := cf |> report (test e.isr xcanIxrRxoflwMask) 0x04 1 (fun v => v ||| 0x01)
  let cf := cf |> report error 0x88 0 id
  let cf := cf |> report (error && test e.esr xcanEsrAckerMask) 0x20 3 (fun _ => 0x19)
  let cf := cf |> report (error && test e.esr xcanEsrBerrMask) 0x08 2 (fun _ => 0x01)
  let cf := cf |> report (error && test e.esr xcanEsrSterMask) 0x08 2 (fun _ => 0x04)
  let cf := cf |> report (error && test e.esr xcanEsrFmerMask) 0x08 2 (fun _ => 0x02)
  cf |> report (error && test e.esr xcanEsrCrcerMask) 0x08 3 (fun _ => 0x08)

/-- `netif_rx` of the error frame, which is counted as received. -/
def netifRx (cf : CanFrame) (s : Dev) : Dev :=
  { s with
    errFrames := s.errFrames ++ [cf]
    stats := { s.stats with
      rxPackets := s.stats.rxPackets + 1
      rxBytes := s.stats.rxBytes + cf.canDlc.toNat } }

/-- `xcan_err_interrupt`. -/
def xcanErrInterrupt (e : IrqReads) (s : Dev) : Dev :=
  let s := s.writeReg .esr e.esr
  let s := if test e.isr xcanIxrBsoffMask then
      { s.writeReg .srr xcanSrrResetMask with canState := .busOff, carrierOff := true }
    else if errPassive e.sr then { s with canState := .errorPassive }
    else if test e.sr xcanSrErrwrnMask then { s with canState := .errorWarning }
    else s
  let s := if test e.isr xcanIxrRxoflwMask then s.writeReg .srr xcanSrrResetMask else s
  let s := { s with stats := errStats e s.stats }
  if e.skb then s.netifRx (errFrame e) else s

def errCauses : BitVec 32 :=
  xcanIxrErrorMask ||| xcanIxrRxoflwMask ||| xcanIxrBsoffMask ||| xcanIxrArblstMask

/-- `xcan_interrupt`. -/
def xcanInterrupt (e : IrqReads) (s : Dev) : Dev :=
  if e.isr = 0#32 then s else
  let s := if test e.isr (xcanIxrSlpMask ||| xcanIxrWkupMask) then
      (s.writeReg .icr (xcanIxrSlpMask ||| xcanIxrWkupMask)).xcanStateInterrupt e.isr
    else s
  let s := if test e.isr xcanIxrTxokMask then s.writeReg .icr xcanIxrTxokMask else s
  let s := if test e.isr errCauses then (s.writeReg .icr errCauses).xcanErrInterrupt e else s
  if test e.isr (xcanIxrRxnempMask ||| xcanIxrRxokMask) then
    s.writeReg .ier (e.ier &&& ~~~(xcanIxrRxnempMask ||| xcanIxrRxokMask))
  else s

end Dev

/-! ### In any order the kernel allows -/

inductive DevOp
  | open (e : OpenResults)
  | close (ier : BitVec 32)
  | suspend
  | resume (enableBusClk enableCanClk : Bool)
  | restart (e : ChipReads)
  | interrupt (e : IrqReads)
deriving DecidableEq

namespace Dev

def op (s : Dev) : DevOp → Dev
  | .open e => s.xcanOpen e
  | .close ier => s.xcanClose ier
  | .suspend => { s.xcanSuspend .platformDevice with suspended := true }
  -- a resume that fails is reported and does not keep the system suspended
  | .resume bus can => { s.xcanResume bus can .platformDevice with suspended := false }
  | .restart e => s.xcanDoSetMode e
  | .interrupt e => s.xcanInterrupt e

theorem op_suspend (s : Dev) : s.op .suspend = { s with suspended := true } := by
  rw [op, xcanSuspend_eq]

theorem op_resume (bus can : Bool) (s : Dev) :
    s.op (.resume bus can) = { s with suspended := false } := by
  rw [op, xcanResume_eq]

/-- While the system is suspended user space is frozen, but interrupts and the kernel's own
restart still come. -/
def allows (s : Dev) : DevOp → Bool
  | .open _ => !s.up && !s.suspended
  | .close _ => s.up && !s.suspended
  | .suspend => !s.suspended
  | .resume _ _ => s.suspended
  | .restart _ => s.up && s.carrierOff
  | .interrupt _ => s.up

end Dev

/-- Runs from a device just probed, which has written no register yet. -/
def devSystem : System Dev DevOp where
  init := fun s => s.up = false ∧ s.suspended = false ∧ s.canState = .stopped ∧
    ∀ reg, s.written reg = none
  allowed := fun s a => s.allows a = true
  next := Dev.op

end CanBench.XilinxCan
