/-
The receive interrupt and the poll beside each other.

`xcan_interrupt` takes the receive interrupts out of IER and schedules the poll, the poll
puts them back when it is done, and opening, closing and restarting the interface goes on
around both.  `xcan_rx_poll` alone is in `Rx.lean`; here it is cut into steps, and so are
the others, wherever one of them can come between: IER is read in one step and written in
another, and a call into NAPI is a step.

Of NAPI: `napi_schedule` does nothing unless NAPI is enabled, `napi_enable` finds no poll
scheduled and leaves none, `napi_disable` waits for the poll to end.  `napi_complete` may
schedule another poll, as later kernels do if `napi_schedule` was called in the meantime.
A poll past `napi_complete` no longer counts as running, so another one may begin on
another CPU; `tails` are the polls that still have IER to write.

A reset takes the controller off the bus and empties FIFO and ISR.  What it leaves of IER
the driver does not say; `resetIer` is any function.
-/
import CanBench.Lib.Runs
import CanBench.XilinxCan.Rx

namespace CanBench.XilinxCan

open Lib

inductive NapiState
  | disabled | enabled | disabling
deriving DecidableEq

/-- Where the handler stands: before the read of ISR, at the causes other than a received
frame, and at the three lines that hand over to the poll. -/
inductive IrqPc
  | idle
  | isr
  | causes (isr : BitVec 32)
  | readIer
  | writeIer (ier : BitVec 32)
  | schedule
deriving DecidableEq

/-- Where the poll stands: at the read of ISR, at the `while`, and in its body. -/
inductive PollPc
  | idle | isr | test | rxok | rx | rxnemp
deriving DecidableEq

/-- Where the process stands that opens and closes the interface.  `opening` and
`restarting` are in `xcan_chip_start`, `started` is before `napi_enable`, `closing` in
`napi_disable` or before `xcan_chip_stop`, `stopped` before `free_irq`. -/
inductive Process
  | down | opening | started | up | restarting | closing | stopped
deriving DecidableEq

structure Receiver where
  rx : Rx
  chipOn : Bool
  napi : NapiState
  irq : IrqPc
  poll : PollPc
  /-- Before the read of IER, or with what was read. -/
  tails : List (Option (BitVec 32))
  process : Process

inductive RxStep
  /-- Frames and status bits, while nobody looks. -/
  | elapse
  /-- The handler goes on; `echoes` is how often it clears TXOK. -/
  | irq (echoes : Nat)
  /-- The poll goes on; `again` is whether `napi_complete` schedules it again. -/
  | poll (again : Bool)
  | tail (k : Nat)
  | setResetMode
  | chipEnable
  | startFails
  | napiEnable
  | closeBegin
  | napiDisable
  | chipStop
  | freeIrq
deriving DecidableEq

namespace Receiver

variable (env : Env) (quota : Nat) (resetIer : BitVec 32 → BitVec 32)

/-- The interrupt line. -/
def line (s : Receiver) : Bool := s.rx.isrReg &&& s.rx.ierReg != 0#32

/-- SRR is written with `XCAN_SRR_RESET_MASK`. -/
def reset (s : Receiver) : Receiver :=
  { s with
    chipOn := false
    rx := { s.rx.elapse env with fifo := [], isrReg := 0#32, ierReg := resetIer s.rx.ierReg } }

/-! ### The handler -/

def rxCauses : BitVec 32 := xcanIxrRxnempMask ||| xcanIxrRxokMask

/-- The writes to ICR of the other causes, in their order. -/
def clearCauses (echoes : Nat) (isr : BitVec 32) (rx : Rx) : Rx :=
  let errors := xcanIxrErrorMask ||| xcanIxrRxoflwMask ||| xcanIxrBsoffMask ||| xcanIxrArblstMask
  let rx := if test isr (xcanIxrSlpMask ||| xcanIxrWkupMask) then
      rx.writeIcr env (xcanIxrSlpMask ||| xcanIxrWkupMask) else rx
  let rx := if test isr xcanIxrTxokMask then
      (fun rx => rx.writeIcr env xcanIxrTxokMask)^[echoes] rx else rx
  if test isr errors then rx.writeIcr env errors else rx

/-- `xcan_interrupt`.  Bus-off and overflow reset the controller. -/
def irqStep (echoes : Nat) (s : Receiver) : Receiver :=
  match s.irq with
  | .idle => { s with irq := .isr }
  | .isr =>
      let rx := s.rx.elapse env
      { s with rx := rx, irq := if rx.isrReg = 0#32 then .idle else .causes rx.isrReg }
  | .causes isr =>
      let s := { s with rx := clearCauses env echoes isr s.rx }
      let s := if test isr (xcanIxrBsoffMask ||| xcanIxrRxoflwMask) then s.reset env resetIer else s
      { s with irq := if test isr rxCauses then .readIer else .idle }
  | .readIer =>
      let rx := s.rx.elapse env
      { s with rx := rx, irq := .writeIer rx.ierReg }
  | .writeIer ier =>
      { s with rx := { s.rx.elapse env with ierReg := ier &&& ~~~rxCauses }, irq := .schedule }
  | .schedule =>
      { s with
        rx := if s.napi = .enabled then { s.rx with napiScheduled := true } else s.rx
        irq := .idle }

/-! ### The poll -/

/-- `xcan_rx_poll` as far as `napi_complete`. -/
def pollStep (again : Bool) (s : Receiver) : Receiver :=
  match s.poll with
  | .idle => { s with rx := { s.rx with workDone := 0, arrived := [], removed := [] }, poll := .isr }
  | .isr => { s with rx := s.rx.readIsr env, poll := .test }
  | .test =>
      if s.rx.polls quota then { s with poll := .rxok }
      else if s.rx.workDone < quota then
        { s with
          rx := { s.rx with napiScheduled := again }, poll := .idle, tails := s.tails ++ [none] }
      else { s with poll := .idle }
  | .rxok => { s with rx := s.rx.writeIcr env xcanIxrRxokMask, poll := .rx }
  | .rx => { s with rx := s.rx.xcanRx env, poll := .rxnemp }
  | .rxnemp => { s with rx := s.rx.writeIcr env xcanIxrRxnempMask, poll := .isr }

/-- `ier |= …` of one of the polls past `napi_complete`. -/
def tailStep (k : Nat) (s : Receiver) : Receiver :=
  match s.tails[k]? with
  | none => s
  | some none =>
      let rx := s.rx.elapse env
      { s with rx := rx, tails := s.tails.set k (some rx.ierReg) }
  | some (some ier) =>
      { s with
        rx := { s.rx.elapse env with ierReg := ier ||| (xcanIxrRxokMask ||| xcanIxrRxnempMask) }
        tails := s.tails.eraseIdx k }

/-! ### Opening, restarting, closing -/

/-- The rest of `xcan_chip_start`: IER, MSR and SRR are written. -/
def chipEnable (s : Receiver) : Receiver :=
  { s with
    rx := { s.rx.elapse env with ierReg := xcanIntrAll }
    chipOn := true
    process := if s.process = .opening then .started else .up }

/-- One of the waits of `xcan_chip_start` is given up: `xcan_open` fails, a restart leaves
the interface open. -/
def startFails (s : Receiver) : Receiver :=
  if s.process = .restarting then { s with process := .up }
  else { s with chipOn := false, process := .down }

/-- `xcan_chip_stop`. -/
def chipStop (s : Receiver) : Receiver :=
  let s := { s with rx := { s.rx.elapse env with ierReg := s.rx.ierReg &&& ~~~xcanIntrAll } }
  { s.reset env resetIer with process := .stopped }

def step (s : Receiver) : RxStep → Receiver
  | .elapse => { s with rx := s.rx.elapse env }
  | .irq echoes => s.irqStep env resetIer echoes
  | .poll again => s.pollStep env quota again
  | .tail k => s.tailStep env k
  | .setResetMode =>
      { s.reset env resetIer with process := if s.process = .up then .restarting else .opening }
  | .chipEnable => s.chipEnable env
  | .startFails => s.startFails
  | .napiEnable =>
      { s with napi := .enabled, rx := { s.rx with napiScheduled := false }, process := .up }
  | .closeBegin => { s with napi := .disabling, process := .closing }
  | .napiDisable => { s with napi := .disabled }
  | .chipStop => s.chipStop env resetIer
  | .freeIrq => { s with process := .down }

/-- The handler is entered while the line is up and the interrupt is requested; a poll
begins when one is scheduled. -/
def allows (s : Receiver) : RxStep → Bool
  | .elapse => true
  | .irq _ => decide (s.irq ≠ .idle) || (s.line && decide (s.process ≠ .down))
  | .poll _ => decide (s.poll ≠ .idle) || (s.rx.napiScheduled && decide (s.napi ≠ .disabled))
  | .tail k => decide (k < s.tails.length)
  | .setResetMode => decide (s.process ∈ [.down, .opening, .up])
  | .chipEnable => decide (s.process ∈ [.opening, .restarting])
  | .startFails =>
      decide (s.process = .restarting) ||
        (decide (s.process ∈ [.opening, .started]) && decide (s.irq = .idle))
  | .napiEnable => decide (s.process = .started)
  | .closeBegin => decide (s.process = .up)
  | .napiDisable =>
      decide (s.process = .closing ∧ s.napi = .disabling ∧ s.poll = .idle) && !s.rx.napiScheduled
  | .chipStop => decide (s.process = .closing ∧ s.napi = .disabled)
  | .freeIrq => decide (s.process = .stopped ∧ s.irq = .idle)

end Receiver

/-- Runs from an interface just probed. -/
def rxSystem (env : Env) (quota : Nat) (resetIer : BitVec 32 → BitVec 32) :
    System Receiver RxStep where
  init := fun s => s.process = .down ∧ s.napi = .disabled ∧ s.irq = .idle ∧ s.poll = .idle ∧
    s.tails = [] ∧ s.rx.fifo = [] ∧ s.chipOn = false
  allowed := fun s a => s.allows a = true
  next := Receiver.step env quota resetIer

end CanBench.XilinxCan
