/-
Receiving: `xcan_rx` and `xcan_rx_poll`, and the part of the controller they talk to.

The RX FIFO is a queue.  The interrupt status bits are sticky, and RXNEMP is raised
whenever the FIFO is not empty, again right after it has been cleared.  Reading DW2, the
last of the four words of a frame, removes the frame.

The driver runs beside the controller: before each register access any number of frames
may have arrived and any other status bits may have been raised.  `Env` says which, by
the number of the access; it also says which calls of `alloc_can_skb` succeed, what time
it is when a frame is read, and what an empty FIFO would return.  `arrived` and `removed`,
both since the poll began, and `underruns` are notes for the reader, the driver does not
see them.
-/
import CanBench.XilinxCan.Regs
import CanBench.XilinxCan.Timestamp

namespace CanBench.XilinxCan

/-- A received frame on its way up the stack. -/
structure Skb where
  frame : CanFrame
  hwtstamp : BitVec 64
deriving DecidableEq

structure Env where
  arrivals : Nat → List FifoWords
  raised : Nat → BitVec 32
  stale : Nat → BitVec 32
  alloc : Nat → Bool
  ktimeGet : Nat → BitVec 64

structure Rx where
  fifo : List FifoWords
  isrReg : BitVec 32
  ierReg : BitVec 32
  factors : ClockFactors
  refTimepoint : XcanTimepoint
  /-- Passed to `netif_receive_skb`, oldest first. -/
  received : List Skb
  rxPackets : Nat
  rxBytes : Nat
  rxDropped : Nat
  napiScheduled : Bool
  /-- The local variables of `xcan_rx_poll`. -/
  isr : BitVec 32
  workDone : Nat
  /-- Register accesses and allocations so far. -/
  accesses : Nat
  allocs : Nat
  arrived : List FifoWords
  removed : List FifoWords
  underruns : Nat

namespace Rx

variable (env : Env)

/-! ### The controller -/

/-- RXNEMP is raised while the FIFO is not empty. -/
def raiseRxnemp (s : Rx) : Rx :=
  if s.fifo = [] then s else { s with isrReg := s.isrReg ||| xcanIxrRxnempMask }

/-- What has happened by the time of the next register access. -/
def elapse (s : Rx) : Rx :=
  raiseRxnemp
    { s with
      fifo := s.fifo ++ env.arrivals s.accesses
      arrived := s.arrived ++ env.arrivals s.accesses
      isrReg := s.isrReg ||| (env.raised s.accesses &&& ~~~xcanIxrRxnempMask)
        ||| (if env.arrivals s.accesses = [] then 0#32 else xcanIxrRxokMask)
      accesses := s.accesses + 1 }

/-- `priv->write_reg(priv, XCAN_ICR_OFFSET, mask)`. -/
def writeIcr (mask : BitVec 32) (s : Rx) : Rx :=
  let s := s.elapse env
  raiseRxnemp { s with isrReg := s.isrReg &&& ~~~mask }

/-- `isr = priv->read_reg(priv, XCAN_ISR_OFFSET)`. -/
def readIsr (s : Rx) : Rx :=
  let s := s.elapse env
  { s with isr := s.isrReg }

/-- A read of one of the words of the frame at the head of the FIFO. -/
def readFifo (word : FifoWords → BitVec 32) (s : Rx) : BitVec 32 × Rx :=
  let s := s.elapse env
  match s.fifo with
  | [] => (env.stale s.accesses, { s with underruns := s.underruns + 1 })
  | w :: _ => (word w, s)

/-- `priv->read_reg(priv, XCAN_RXFIFO_DW2_OFFSET)`. -/
def readDw2 (s : Rx) : BitVec 32 × Rx :=
  let s := s.elapse env
  match s.fifo with
  | [] => (env.stale s.accesses, { s with underruns := s.underruns + 1 })
  | w :: rest => (w.dw2, { s with fifo := rest, removed := s.removed ++ [w] })

/-! ### The driver -/

/-- The four reads of `xcan_rx`.  The timestamp is taken between the reads of the DLC and
the data words; the CPU is little-endian. -/
def readFrame (s : Rx) : FifoWords × BitVec 64 × Rx :=
  let (idXcan, s) := s.readFifo env FifoWords.id
  let (dlcReg, s) := s.readFifo env FifoWords.dlc
  let (ref, hwtstamp) := xcanTimestamp2ktime s.factors s.refTimepoint
    (env.ktimeGet s.accesses) (xcanGetTimestamp dlcReg)
  let s := { s with refTimepoint := ref }
  let (data0, s) := s.readFifo env FifoWords.dw1
  let (data1, s) := s.readDw2 env
  ({ id := idXcan, dlc := dlcReg, dw1 := data0, dw2 := data1 }, hwtstamp, s)

/-- The end of `xcan_rx`, its result of 1 added to `work_done` as the caller does. -/
def netifReceiveSkb (skb : Skb) (s : Rx) : Rx :=
  { s with
    rxBytes := s.rxBytes + skb.frame.canDlc.toNat
    rxPackets := s.rxPackets + 1
    received := s.received ++ [skb]
    workDone := s.workDone + 1 }

/-- `xcan_rx`: without memory the frame counts as dropped, and the result is 0. -/
def xcanRx (s : Rx) : Rx :=
  let ok := env.alloc s.allocs
  let s := { s with allocs := s.allocs + 1 }
  if ok then
    let (w, hwtstamp, s) := s.readFrame env
    s.netifReceiveSkb { frame := rxFrame w, hwtstamp := hwtstamp }
  else { s with rxDropped := s.rxDropped + 1 }

/-- The condition of the `while`. -/
def polls (quota : Nat) (s : Rx) : Bool :=
  test s.isr xcanIxrRxnempMask && decide (s.workDone < quota)

/-- The body of the `while`. -/
def pollOnce (s : Rx) : Rx :=
  let s := s.writeIcr env xcanIxrRxokMask
  let s := s.xcanRx env
  let s := s.writeIcr env xcanIxrRxnempMask
  s.readIsr env

/-- At most `fuel` turns of the `while`; `none` if it has not ended by then. -/
def pollLoop (quota : Nat) : Nat → Rx → Option Rx
  | fuel, s =>
      if s.polls quota then
        match fuel with
        | 0 => none
        | fuel + 1 => pollLoop quota fuel (s.pollOnce env)
      else some s

/-- After the loop: with quota left, NAPI is done and the receive interrupts are enabled. -/
def pollFinish (quota : Nat) (s : Rx) : Rx :=
  if s.workDone < quota then
    let s := { s with napiScheduled := false }
    let s := s.elapse env
    let ier := s.ierReg ||| (xcanIxrRxokMask ||| xcanIxrRxnempMask)
    { s.elapse env with ierReg := ier }
  else s

/-- The first read of `xcan_rx_poll`. -/
def pollStart (s : Rx) : Rx :=
  { s with workDone := 0, arrived := [], removed := [] }.readIsr env

/-- `xcan_rx_poll`: the result is `work_done` of the state it ends in. -/
def xcanRxPoll (quota fuel : Nat) (s : Rx) : Option Rx :=
  ((s.pollStart env).pollLoop env quota fuel).map (pollFinish env quota)

end Rx

end CanBench.XilinxCan
