/-
AXI4-Lite write traffic, seen from outside.

Two monitors, one for each side of the bus.  `WriteMaster` watches a master: each of
the two write channels is free, offering a beat that has to stay until it is taken, or
done for the current write; the response frees both.  `Outstanding` watches a slave: it
counts the address and data beats accepted and not yet answered, and remembers a
response that is being offered.  `follows` says in each case what the watched side may
show at the next clock edge, and nothing here says when a side that may act does act.
-/
import Mathlib

namespace Lib

universe u v

/-! ### A master with one write at a time -/

/-- One write channel during one write: nothing offered yet, a beat offered and held, or
the beat taken and the response still to come. -/
inductive Chan (α : Type u)
  | free
  | offered (payload : α)
  | taken
deriving DecidableEq

namespace Chan

variable {α : Type u}

/-- A beat once offered is held; a beat once taken is not followed by another. -/
def follows [DecidableEq α] (c : Chan α) (valid : Bool) (payload : α) : Bool :=
  match c with
  | .free => true
  | .offered p => valid && decide (payload = p)
  | .taken => !valid

/-- The channel after a clock edge at which no response is delivered. -/
def next (c : Chan α) (valid ready : Bool) (payload : α) : Chan α :=
  if valid then (if ready then .taken else .offered payload) else c

@[simp] theorem next_idle (c : Chan α) (ready : Bool) (payload : α) :
    c.next false ready payload = c := rfl

@[simp] theorem next_stalled (c : Chan α) (payload : α) :
    c.next true false payload = .offered payload := rfl

@[simp] theorem next_handshake (c : Chan α) (payload : α) :
    c.next true true payload = .taken := rfl

@[simp] theorem offered_follows [DecidableEq α] {p : α} {valid : Bool} {payload : α} :
    (Chan.offered p).follows valid payload = true ↔ valid = true ∧ payload = p := by
  simp [follows]

@[simp] theorem taken_follows [DecidableEq α] {valid : Bool} {payload : α} :
    (Chan.taken : Chan α).follows valid payload = true ↔ valid = false := by
  simp [follows]

end Chan

/-- The two write channels of a master that waits for each response. -/
structure WriteMaster (A : Type u) (W : Type v) where
  aw : Chan A
  w : Chan W
deriving DecidableEq

namespace WriteMaster

variable {A : Type u} {W : Type v}

/-- A master with no write in progress. -/
def idle : WriteMaster A W := ⟨.free, .free⟩

/-- A response ends the write on both channels. -/
def respond (m : WriteMaster A W) (delivered : Bool) : WriteMaster A W :=
  if delivered then idle else m

@[simp] theorem respond_true (m : WriteMaster A W) : m.respond true = idle := rfl

@[simp] theorem respond_false (m : WriteMaster A W) : m.respond false = m := rfl

end WriteMaster

/-! ### A slave that answers what it accepted -/

/-- What is on offer is taken or still on offer. -/
theorem taken_add_offered (valid ready : Bool) :
    (valid && ready).toNat + (valid && !ready).toNat = valid.toNat := by
  cases valid <;> cases ready <;> rfl

/-- Address and data beats accepted and not yet answered, and whether a response is on
offer. -/
structure Outstanding where
  aw : Nat
  w : Nat
  bvalid : Bool
deriving DecidableEq

namespace Outstanding

/-- Nothing accepted, nothing to answer. -/
def empty : Outstanding := ⟨0, 0, false⟩

/-- The beats accepted up to and including this clock edge. -/
def accept (o : Outstanding) (awBeat wBeat : Bool) : Outstanding :=
  { o with aw := o.aw + awBeat.toNat, w := o.w + wBeat.toNat }

/-- A response needs an address and a data beat to answer, and is held until taken. -/
def follows (o : Outstanding) (awBeat wBeat bvalid : Bool) : Prop :=
  (bvalid = true → 0 < (o.accept awBeat wBeat).aw ∧ 0 < (o.accept awBeat wBeat).w) ∧
  (o.bvalid = true → bvalid = true)

instance (o : Outstanding) (awBeat wBeat bvalid : Bool) :
    Decidable (o.follows awBeat wBeat bvalid) :=
  inferInstanceAs (Decidable (_ ∧ _))

/-- After the edge: a response delivered answers one beat of each channel. -/
def next (o : Outstanding) (awBeat wBeat bvalid bready : Bool) : Outstanding :=
  let o' := o.accept awBeat wBeat
  if bvalid && bready then ⟨o'.aw - 1, o'.w - 1, false⟩ else { o' with bvalid := bvalid }

@[simp] theorem next_aw (o : Outstanding) (awBeat wBeat bvalid bready : Bool) :
    (o.next awBeat wBeat bvalid bready).aw
      = o.aw + awBeat.toNat - (bvalid && bready).toNat := by
  cases hb : bvalid && bready <;> simp [next, accept, hb]

@[simp] theorem next_w (o : Outstanding) (awBeat wBeat bvalid bready : Bool) :
    (o.next awBeat wBeat bvalid bready).w
      = o.w + wBeat.toNat - (bvalid && bready).toNat := by
  cases hb : bvalid && bready <;> simp [next, accept, hb]

@[simp] theorem next_bvalid (o : Outstanding) (awBeat wBeat bvalid bready : Bool) :
    (o.next awBeat wBeat bvalid bready).bvalid = (bvalid && !bready) := by
  cases bvalid <;> cases bready <;> simp [next, accept]

end Outstanding

end Lib
