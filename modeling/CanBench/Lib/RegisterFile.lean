/-
A register file behind a bus, seen from its pins.

`RegFile` says what one write and one read of the file do, and what the file does by
itself on a clock.  `Served` is the file together with what it still owes: the number of
writes it took and has not answered, and the data of the reads it took and has not
answered, oldest first.  A read is worth what the file held when it was taken, whenever
its answer is delivered.

`Held` is the side of the master: a beat that was offered and not taken is offered again,
unchanged.  Nothing here keeps a master from offering the next access before the last one
is answered.
-/
import Mathlib

namespace Lib

universe u v w x

/-! ### A beat on offer -/

/-- What a channel's driver offered at the last clock edge and could not deliver. -/
abbrev Held (α : Type u) := Option α

namespace Held

variable {α : Type u}

def follows (o : Held α) (valid : Bool) (payload : α) : Prop :=
  ∀ p ∈ o, valid = true ∧ payload = p

instance [DecidableEq α] (o : Held α) (valid : Bool) (payload : α) :
    Decidable (o.follows valid payload) :=
  match o with
  | none => isTrue (by simp [follows])
  | some p => decidable_of_iff (valid = true ∧ payload = p) (by simp [follows])

def next (valid ready : Bool) (payload : α) : Held α :=
  if valid && !ready then some payload else none

@[simp] theorem next_stalled (payload : α) : next true false payload = some payload := rfl

@[simp] theorem next_ready (valid : Bool) (payload : α) : next valid true payload = none := by
  simp [next]

end Held

/-! ### The file and what it owes -/

/-- A file of type `σ`, written by commands `α`, read by commands `β` as words `γ`. -/
structure RegFile (σ : Type u) (α : Type v) (β : Type w) (γ : Type x) where
  tick : σ → σ
  write : α → σ → σ
  read : β → σ → γ

structure Served (σ : Type u) (γ : Type x) where
  file : σ
  writes : Nat
  reads : List γ

namespace RegFile

variable {σ : Type u} {α : Type v} {β : Type w} {γ : Type x} (f : RegFile σ α β γ)

/-- The file after a clock: its own update first, the write on top of it. -/
def updated (s : σ) : Option α → σ
  | none => f.tick s
  | some a => f.write a (f.tick s)

/-- One clock: at most one write and one read are taken, and at most one answer of each
kind delivered. -/
def serve (s : Served σ γ) (write : Option α) (read : Option β) (bDone rDone : Bool) :
    Served σ γ where
  file := f.updated s.file write
  writes := s.writes + write.isSome.toNat - bDone.toNat
  reads := (if rDone then s.reads.tail else s.reads) ++ (read.map (f.read · s.file)).toList

end RegFile

end Lib
