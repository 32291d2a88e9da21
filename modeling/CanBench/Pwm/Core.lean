/-
A PWM bank behind a register file.

The servo and audio cores are the same machine: words that software writes, one divider
and some pulse generators that are always enabled, all on the bus clock.  They differ in the
number of channels and in which words are the period and the durations, which is what a
`PwmCore` lists.

`PwmCore.pulses` follows the words from the bus to the outputs.  A write reaches the ports
of the bank at once, but they are read at the start of a period only, so all channels of a
period run on the words of one and the same moment.
-/
import CanBench.Axi.Atomic
import CanBench.Pwm.Bank

namespace CanBench.Pwm

open Lib Axi

structure PwmCore (addrWidth locWidth n w : Nat) where
  bank : RegBank addrWidth locWidth Unit
  ratio : (BitVec locWidth → BitVec 32) → BitVec w
  duration : (BitVec locWidth → BitVec 32) → Fin n → BitVec w

namespace PwmCore

variable {addrWidth locWidth n w : Nat} (C : PwmCore addrWidth locWidth n w)

structure Board (addrWidth locWidth n w : Nat) where
  s00 : BankState addrWidth locWidth
  pwm : PwmBank n w w

variable (b : Board addrWidth locWidth n w) (i : SlaveIn addrWidth)

/-- `fsm_rst <= not s00_axi_aresetn`, `en_i => '1'`. -/
def pwmIn : PwmBankIn n w w where
  reset := !i.aresetn
  en := true
  ratio := C.ratio b.s00.slvReg
  duration := C.duration b.s00.slvReg

def pwmCycleStart : Bool := b.pwm.trigger (C.pwmIn b i)

/-- The output of the `k`-th `pulse_gen`. -/
def pwmOut (k : Fin n) : Bool := b.pwm.qOut (C.pwmIn b i) k

/-- One rising edge of the clock. -/
def next : Board addrWidth locWidth n w where
  s00 := C.bank.next b.s00 i ()
  pwm := b.pwm.next (C.pwmIn b i)

/-! ### On the bus -/

/-- The board, with the register file and the master that its slave is watched with. -/
structure WatchedBoard (addrWidth locWidth n w : Nat) where
  watch : Watched addrWidth locWidth
  pwm : PwmBank n w w

def WatchedBoard.board (x : WatchedBoard addrWidth locWidth n w) :
    Board addrWidth locWidth n w where
  s00 := x.watch.bank
  pwm := x.pwm

/-- Runs from a reset; any counts may be left from before it. -/
def system : System (WatchedBoard addrWidth locWidth n w) (SlaveIn addrWidth) where
  init := fun x => x.watch = Watched.reset C.bank
  allowed := fun x i => x.watch.allows i
  next := fun x i =>
    { watch := Watched.next C.bank x.watch (i, ())
      pwm := x.pwm.next (C.pwmIn x.board i) }

instance (x : WatchedBoard addrWidth locWidth n w) (i : SlaveIn addrWidth) :
    Decidable (C.system.allowed x i) := inferInstanceAs (Decidable (x.watch.allows i))

/-- What is watched is the board. -/
theorem board_next (x : WatchedBoard addrWidth locWidth n w) (i : SlaveIn addrWidth) :
    (C.system.next x i).board = C.next x.board i := by
  have hbank : (Watched.next C.bank x.watch (i, ())).bank = C.bank.next x.watch.bank i () := by
    unfold Watched.next RegBank.next
    by_cases hi : i.aresetn = true
    · simp [hi]
    · simp [hi, Watched.reset]
  show Board.mk (Watched.next C.bank x.watch (i, ())).bank _ = _
  rw [hbank]
  rfl

variable {C} {h : List (WatchedBoard addrWidth locWidth n w × SlaveIn addrWidth)}
  {s : WatchedBoard addrWidth locWidth n w}

theorem agreed (r : Run C.system h s) : s.watch.Agreed := by
  refine r.invariant (I := fun x => x.watch.Agreed) ?_ ?_
  · intro x hx
    rw [show x.watch = Watched.reset C.bank from hx]
    exact Watched.reset_agreed C.bank
  · intro x i hx ok
    show (Watched.next C.bank x.watch (i, ())).Agreed
    exact hx.next C.bank ok

/-- The registers of every step are the words of the register file. -/
theorem slvReg_eq_file (r : Run C.system h s) :
    ∀ e ∈ h, e.1.watch.bank.slvReg = e.1.watch.served.file := by
  intro e he
  obtain ⟨h', r', -, -⟩ := r.of_mem e he
  exact (agreed r').file

/--
**A period runs on the words of its first clock.**  From a clock that starts a period on,
until a reset: the next period starts after as many clocks as the period word said then, and
until that clock channel `k` shows the pulse of the duration word of then.
-/
theorem pulses (r : Run C.system h s)
    {e₀ : WatchedBoard addrWidth locWidth n w × SlaveIn addrWidth}
    {l : List (WatchedBoard addrWidth locWidth n w × SlaveIn addrWidth)} (hseg : e₀ :: l <:+: h)
    (hreset : ∀ e ∈ e₀ :: l, e.2.aresetn = true) (ht : C.pwmCycleStart e₀.1.board e₀.2 = true)
    (k : Fin n) {j : Nat} {e : WatchedBoard addrWidth locWidth n w × SlaveIn addrWidth}
    (he : (e₀ :: l)[j]? = some e) {P d : Nat}
    (hP : (C.ratio e₀.1.watch.served.file).toNat = P)
    (hd : (C.duration e₀.1.watch.served.file k).toNat = d) (hj : j ≤ max 1 P) :
    C.pwmCycleStart e.1.board e.2 = decide (j = 0 ∨ j = max 1 P) ∧
    (j < max 1 P → C.pwmOut e.1.board e.2 k = decide (0 < d ∧ j ≤ d)) := by
  obtain ⟨s', r'⟩ := r.of_infix hseg
  have hfile := slvReg_eq_file r e₀ (hseg.subset (by simp))
  have hlatched := latched_run (M := C.system) (fun x => x.pwm) (fun x i => C.pwmIn x.board i)
    (fun _ _ => rfl) ht k l r'
    (fun e he => by show (!e.2.aresetn) = false; rw [hreset e he]; rfl)
  rw [observed_of_enabled _ _ k (fun _ _ => rfl)] at hlatched
  have hP' : (C.pwmIn e₀.1.board e₀.2).ratio.toNat = P := by
    rw [← hP, ← hfile]
    rfl
  have hd' : ((C.pwmIn e₀.1.board e₀.2).duration k).toNat = d := by
    rw [← hd, ← hfile]
    rfl
  rw [hP', hd'] at hlatched
  exact hlatched.shown j (C.pwmCycleStart e.1.board e.2, C.pwmOut e.1.board e.2 k)
    (by rw [List.getElem?_map, he]; rfl) hj

end PwmCore

end CanBench.Pwm
