/-
Transmitting: `xcan_start_xmit`, `xcan_tx_interrupt` and the restart after bus-off.

The TX FIFO is a queue of `tx_max` frames, TXOK one sticky bit that every frame sent
sets.  A socket buffer handed to the driver waits in the echo slot `tx_head % tx_max`
until its frame is reported as sent.

The steps are those that can be interleaved: a call of `xcan_start_xmit`, a frame sent,
a restart, and the interrupt handler in pieces, as frames may be sent between its
accesses to ICR and ISR.  The handler's piece from the write of ICR to the next read of
ISR touches memory only and is one step.  `sent` and `echoed` are notes for the reader.
-/
import CanBench.Lib.Runs
import CanBench.Lib.Ring
import CanBench.XilinxCan.Regs

namespace CanBench.XilinxCan

open Lib

/-- A socket buffer; `serial` tells apart two with the same frame. -/
structure TxSkb where
  serial : Nat
  frame : CanFrame
deriving DecidableEq

/-- Where the handler stands in `xcan_tx_interrupt`: not in it, at the test of its
`while` with `isr & XCAN_IXR_TXOK_MASK` as read, or before the next read of ISR. -/
inductive TxIrq
  | idle
  | test (isr : Bool)
  | reread
deriving DecidableEq

structure Tx where
  txHead : BitVec 32
  txTail : BitVec 32
  awake : Bool
  echo : Nat → Option TxSkb
  txPackets : Nat
  txBytes : Nat
  irq : TxIrq
  fifo : List (FifoWords × TxSkb)
  txok : Bool
  /-- Frames sent, and buffers echoed, oldest first. -/
  sent : List TxSkb
  echoed : List TxSkb

inductive TxStep
  /-- `invalid` is the result of `can_dropped_invalid_skb`. -/
  | xmit (skb : TxSkb) (invalid : Bool)
  | complete
  | interrupt
  | advance
  /-- Whether `xcan_chip_start` succeeds, and whether TXOK survives the reset. -/
  | restart (started keepsTxok : Bool)

namespace Tx

variable (txMax : BitVec 32)

/-- `XCAN_SR_TXFLL_MASK` in SR. -/
def txFifoFull (s : Tx) : Bool := decide (txMax.toNat ≤ s.fifo.length)

/-- `can_put_echo_skb`: a slot in use is left alone, and the buffer freed. -/
def canPutEchoSkb (skb : TxSkb) (echo : Nat → Option TxSkb) (idx : Nat) : Nat → Option TxSkb :=
  if (echo idx).isSome then echo else Function.update echo idx (some skb)

/-- The echo slot, `tx_head` and the writes to the TX FIFO. -/
def enqueue (skb : TxSkb) (s : Tx) : Tx :=
  { s with
    echo := canPutEchoSkb skb s.echo (ringSlot txMax s.txHead)
    txHead := s.txHead + 1
    fifo := s.fifo ++ [(txWords skb.frame, skb)]
    txBytes := if test skb.frame.canId canRtrFlag then s.txBytes
      else s.txBytes + skb.frame.canDlc.toNat }

/-- `xcan_start_xmit`. -/
def xcanStartXmit (skb : TxSkb) (invalid : Bool) (s : Tx) : Tx :=
  if invalid then s
  else if s.txFifoFull txMax then { s with awake := false }
  else
    let s := s.enqueue txMax skb
    if s.txHead - s.txTail = txMax then { s with awake := false } else s

/-- The oldest frame of the FIFO has been sent. -/
def complete (s : Tx) : Tx :=
  match s.fifo with
  | [] => s
  | (_, skb) :: rest => { s with fifo := rest, txok := true, sent := s.sent ++ [skb] }

/-- `xcan_interrupt` reads ISR, and calls `xcan_tx_interrupt` if TXOK is set. -/
def xcanInterrupt (s : Tx) : Tx := if s.txok then { s with irq := .test true } else s

/-- The body of the `while`: TXOK cleared, `can_get_echo_skb`, one packet more. -/
def echoOne (s : Tx) : Tx :=
  { s with
    txok := false
    echoed := s.echoed ++ (s.echo (ringSlot txMax s.txTail)).toList
    echo := Function.update s.echo (ringSlot txMax s.txTail) none
    txTail := s.txTail + 1
    txPackets := s.txPackets + 1
    irq := .reread }

/-- The handler goes on: out of the loop, it wakes the queue. -/
def advance (s : Tx) : Tx :=
  match s.irq with
  | .idle => s
  | .test isr =>
      if s.txHead - s.txTail ≠ 0 ∧ isr = true then s.echoOne txMax
      else { s with awake := true, irq := .idle }
  | .reread => { s with irq := .test s.txok }

/-- The restart after bus-off: FIFO and echo slots are flushed, and
`xcan_do_set_mode(CAN_MODE_START)` wakes the queue if the chip starts. -/
def restart (started keepsTxok : Bool) (s : Tx) : Tx :=
  { s with fifo := [], echo := fun _ => none, txok := s.txok && keepsTxok,
           awake := s.awake || started }

def step (s : Tx) : TxStep → Tx
  | .xmit skb invalid => s.xcanStartXmit txMax skb invalid
  | .complete => s.complete
  | .interrupt => s.xcanInterrupt
  | .advance => s.advance txMax
  | .restart started keepsTxok => s.restart started keepsTxok

/-- A frame is handed over only while the queue is awake, sent only from the FIFO; the
handler is not interleaved with the other two. -/
def allows (s : Tx) : TxStep → Bool
  | .xmit _ _ => s.awake && decide (s.irq = .idle)
  | .complete => !s.fifo.isEmpty
  | .interrupt => decide (s.irq = .idle)
  | .advance => decide (s.irq ≠ .idle)
  | .restart _ _ => decide (s.irq = .idle)

end Tx

/-- Runs from an interface just opened; `xcan_open` leaves the counters where they are. -/
def txSystem (txMax : BitVec 32) : System Tx TxStep where
  init := fun s => s.txHead = s.txTail ∧ s.awake = true ∧ s.echo = (fun _ => none) ∧
    s.txPackets = 0 ∧ s.irq = .idle ∧ s.fifo = [] ∧ s.txok = false ∧ s.sent = [] ∧ s.echoed = []
  allowed := fun s a => s.allows a = true
  next := Tx.step txMax

end CanBench.XilinxCan
