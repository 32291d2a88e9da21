/-
The test of the CAN interfaces: `_send_msgs_sync` of `test_cantest.py` with the handlers of
`common.py`.

One thread sends on one interface and receives on others.  A selector holds the handlers that
are not done; the loop calls `on_event` of those whose sockets are ready, in the order the
selector has them, until none is registered or an exception leaves it.  `LoopStep` is one such
call, or a frame that reaches a socket; what a call of `bus.recv` or `bus.send` does is in its
arguments.

The generators `receive_messages` and `send_messages` are between two of their `yield`s when
nothing runs; what is left of them is the number of frames to come, and the index of the next
one to send.
-/
import CanBench.Lib.Stream

namespace CanBench.CanTest

open Lib

/-- The fields of `CANInterface` that are read here. -/
structure CANInterface where
  ifc : String
  fdCapable : Bool

/-- What `bus.send` does: sends, or raises a `CanError` with this `errno` or another. -/
inductive SendResult
  | sent | enobufs | error
deriving DecidableEq

variable {α : Type*}

/-! ### Receiving -/

/-- `MessageReceiver`; `left` is what its generator still waits for. -/
structure MessageReceiver (α : Type*) where
  messages : List α
  n : Nat
  left : Nat
  isOpen : Bool

namespace MessageReceiver

/-- `__init__`. -/
def new (n : Nat) : MessageReceiver α := ⟨[], n, n, true⟩

def close (r : MessageReceiver α) : MessageReceiver α := { r with isOpen := false }

/-- `on_event`, and whether it raises; `bus.recv` returns a message or raises.  A generator
with nothing left raises `StopIteration`. -/
def onEvent (recv : Option α) (r : MessageReceiver α) : MessageReceiver α × Bool :=
  match r.left, recv with
  | left + 1, some msg =>
      let r := { r with messages := r.messages ++ [msg], left := left }
      (if r.messages.length = r.n then r.close else r, false)
  | _, _ => (r.close, true)

end MessageReceiver

/-! ### Sending -/

/-- How a generator gives control back. -/
inductive Resumed
  | yielded | stopped | raised
deriving DecidableEq

/-- `bus.send` until it sends or raises something else than ENOBUFS; `none` when it never
does. -/
def trySend : List SendResult → Option Bool
  | .sent :: _ => some true
  | .enobufs :: rest => trySend rest
  | .error :: _ => some false
  | [] => none

/-- `send_messages` from its index `i` to the next `yield`. -/
def sendMessages (msgs : List α) (i : Nat) (results : List SendResult) :
    Option (Nat × Resumed) :=
  if i < msgs.length then
    (trySend results).map fun ok => if ok then (i + 1, .yielded) else (i, .raised)
  else some (i, .stopped)

/-- `MessageSender`; `i` is the index its generator has come to. -/
structure MessageSender (α : Type*) where
  msgs : List α
  i : Nat
  isOpen : Bool

namespace MessageSender

def new (msgs : List α) : MessageSender α := ⟨msgs, 0, true⟩

/-- `on_event`, and whether it raises. -/
def onEvent (results : List SendResult) (s : MessageSender α) : MessageSender α × Bool :=
  match sendMessages s.msgs s.i results with
  | some (i, .yielded) => ({ s with i := i }, false)
  | some (i, .stopped) => ({ s with i := i, isOpen := false }, false)
  | some (i, .raised) => ({ s with i := i, isOpen := false }, true)
  | none => (s, false)

end MessageSender

/-! ### The loop -/

/-- The handlers, what has reached each socket and not been read, and whether an exception has
left the loop. -/
structure Loop (n : Nat) (α : Type*) where
  recs : Fin n → MessageReceiver α
  sockets : Fin n → List α
  sender : MessageSender α
  raised : Bool

inductive LoopStep (n : Nat) (α : Type*)
  /-- A frame reaches a socket. -/
  | arrive (j : Fin n) (msg : α)
  /-- `on_event` of a receiver, whose `bus.recv` may raise. -/
  | receive (j : Fin n) (fails : Bool)
  /-- `on_event` of the sender. -/
  | send (results : List SendResult)

namespace Loop

variable {n : Nat}

/-- `sel.get_map()` is empty. -/
def finished (s : Loop n α) : Bool := !s.sender.isOpen && decide (∀ j, (s.recs j).isOpen = false)

def next (s : Loop n α) : LoopStep n α → Loop n α
  | .arrive j msg => { s with sockets := Function.update s.sockets j (s.sockets j ++ [msg]) }
  | .receive j fails =>
      let recv := if fails then none else (s.sockets j).head?
      let r := (s.recs j).onEvent recv
      let read := decide (0 < (s.recs j).left) && !fails
      { s with
        recs := Function.update s.recs j r.1
        sockets := if read then Function.update s.sockets j (s.sockets j).tail else s.sockets
        raised := r.2 }
  | .send results =>
      let r := s.sender.onEvent results
      { s with sender := r.1, raised := r.2 }

/-- A handler is called while it is registered and its socket is ready: readable, or in error.
A call that never returns is not a step. -/
def allows (s : Loop n α) : LoopStep n α → Bool
  | .arrive _ _ => true
  | .receive j fails =>
      !s.raised && (s.recs j).isOpen && (fails || !(s.sockets j).isEmpty)
  | .send results =>
      !s.raised && s.sender.isOpen && (sendMessages s.sender.msgs s.sender.i results).isSome

end Loop

section Test

variable {n : Nat} (rxis : Fin n → CANInterface) (isFd : α → Bool) (sentMsgs : List α)

/-- `nonfd_msgs`. -/
def nonfdMsgs : List α := sentMsgs.filter fun msg => !isFd msg

/-- What a receiver is to get: all, or `nonfd_msgs` if it cannot do CAN FD. -/
def expected (j : Fin n) : List α :=
  if (rxis j).fdCapable then sentMsgs else nonfdMsgs isFd sentMsgs

/-- `_send_msgs_sync`: the loop from its handlers just registered. -/
def loopSystem : System (Loop n α) (LoopStep n α) where
  init := fun s => s =
    { recs := fun j => MessageReceiver.new (expected rxis isFd sentMsgs j).length
      sockets := fun _ => []
      sender := MessageSender.new sentMsgs
      raised := false }
  allowed := fun s a => s.allows a = true
  next := Loop.next

/-- What `_check_messages_match` expects of one interface, with the text if it is not so. -/
def checkInterface [BEq α] (rxi : CANInterface) (rms sms : List α) : List (Bool × String) :=
  (rms.length == sms.length,
    rxi.ifc ++ ": received frame count not equal to sent frame count") ::
  (rms.zip sms).zipIdx.map fun p => (p.1.2 == p.1.1,
    rxi.ifc ++ ": Received message " ++ toString p.2 ++ " not equal to sent!")

/-- `_check_messages_match`. -/
def checkMessagesMatch [BEq α] (s : Loop n α) : List (Bool × String) :=
  (List.finRange n).flatMap fun j =>
    checkInterface (rxis j) (s.recs j).messages (expected rxis isFd sentMsgs j)

end Test

end CanBench.CanTest
