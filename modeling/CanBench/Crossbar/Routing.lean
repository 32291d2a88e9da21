/-
The crossbar is a set of wired lines.

`lineOf sel i` is the line that selector `sel` assigns to port `i`, as a number.  The
lemma the file turns on is `simplexCrossbar_getLsb`: one crossbar puts on each
destination the level of its line, where the level is the library's `wired`.  The
demultiplexers are the library's "drive every line, floating where not attached", and
the process `psrcand` is its fold.

`Routing` is what the entity is for, with the selectors already decoded: two sets of
ports attached to numbered lines, and an enable for each bus.  `canCrossbar_routing`
says that the ports of the entity show exactly that, for any number of controllers,
buses and lines.

The last section is about a line none of whose buses is enabled.  Its controllers hear
each other through the loopback of the disabled buses, so there has to be such a bus: on
a line without any, the receive side floats and the controllers hear nothing.
-/
import CanBench.Lib.WiredLine
import CanBench.Crossbar.Impl

namespace CanBench.Crossbar

open Lib

/-- The line assigned to port `i`: the unsigned value of its selector slice. -/
def lineOf {n logNlines : Nat} (sel : BitVec (n * logNlines)) (i : Fin n) : Nat :=
  sel.toNat / 2 ^ (i.val * logNlines) % 2 ^ logNlines

variable {n nsrc ndst logNlines ncontrollers nbuses : Nat}

theorem selSlice_toNat (sel : BitVec (n * logNlines)) (i : Fin n) :
    (selSlice sel i).toNat = lineOf sel i := by
  simp [selSlice, lineOf, BitVec.extractLsb'_toNat, Nat.shiftRight_eq_div_pow]

theorem lineOf_lt (sel : BitVec (n * logNlines)) (i : Fin n) :
    lineOf sel i < sllInt 1 logNlines := by
  rw [sllInt_eq, one_mul]
  exact Nat.mod_lt _ (Nat.two_pow_pos _)

theorem demux_getLsb {bits : Nat} (defval : Bool) (sel : BitVec bits) (din : Bool)
    (k : Fin (sllInt 1 bits)) :
    (demux defval sel din).getLsb k = if sel.toNat = k.val then din else defval := by
  simp [demux, eq_comm]

/-- The process computes, line by line, the meet of what the sources drive onto it. -/
theorem psrcand_getLsb {nlines : Nat} (onehot : Fin nsrc → BitVec nlines) (l : Fin nlines) :
    (psrcand onehot).getLsb l = Finset.univ.inf fun i => (onehot i).getLsb l := by
  rw [← foldl_inf_eq]
  simp [psrcand]

/-- **One crossbar puts on each destination the wired level of its line.** -/
theorem simplexCrossbar_getLsb (src : BitVec nsrc) (selSrcLine : BitVec (nsrc * logNlines))
    (selDstLine : BitVec (ndst * logNlines)) (d : Fin ndst) :
    (simplexCrossbar src selSrcLine selDstLine).getLsb d
      = wired (lineOf selSrcLine) src.getLsb (lineOf selDstLine d) := by
  set l : Fin (sllInt 1 logNlines) := ⟨lineOf selDstLine d, lineOf_lt selDstLine d⟩ with hl
  have hmux : (simplexCrossbar src selSrcLine selDstLine).getLsb d
      = (psrcand fun i : Fin nsrc =>
          demux true (selSlice selSrcLine i) (src.getLsb i)).getLsb l := by
    simp only [simplexCrossbar, mux, selSlice_toNat, BitVec.getLsb_ofFnLE]
    exact BitVec.getLsbD_eq_getElem l.isLt
  rw [hmux, psrcand_getLsb, wired_eq_inf_ite]
  refine Finset.inf_congr rfl fun i _ => ?_
  rw [demux_getLsb, selSlice_toNat]
  rfl

/-! ### What the crossbar is for -/

/-- Controllers and buses attached to numbered lines. -/
structure Routing (ncontrollers nbuses : Nat) where
  controllerLine : Fin ncontrollers → Nat
  busLine : Fin nbuses → Nat
  oe : Fin nbuses → Bool

namespace Routing

variable (r : Routing ncontrollers nbuses) (tx : Fin ncontrollers → Bool)
  (rx : Fin nbuses → Bool)

/-- The transmit level of line `l`: the conjunction over the controllers attached to it. -/
noncomputable def txLevel (l : Nat) : Bool := wired r.controllerLine tx l

/-- An enabled bus transmits the level of its line, a disabled one stays recessive. -/
noncomputable def busTx (b : Fin nbuses) : Bool := if r.oe b then r.txLevel tx (r.busLine b) else true

/-- What a bus contributes to its line: the wire when enabled, a loopback when not. -/
noncomputable def busLevel (b : Fin nbuses) : Bool := if r.oe b then rx b else r.txLevel tx (r.busLine b)

/-- A controller receives the conjunction over the buses attached to its line. -/
noncomputable def controllerRx (c : Fin ncontrollers) : Bool :=
  wired r.busLine (r.busLevel tx rx) (r.controllerLine c)

/-- On a line whose buses are all disabled the loopback is all there is to receive. -/
theorem controllerRx_disabled {c : Fin ncontrollers}
    (hoe : ∀ b, r.busLine b = r.controllerLine c → r.oe b = false) :
    r.controllerRx tx rx c
      = if ∃ b, r.busLine b = r.controllerLine c then r.txLevel tx (r.controllerLine c)
        else true := by
  by_cases hbus : ∃ b, r.busLine b = r.controllerLine c
  · rw [if_pos hbus]
    refine wired_const hbus fun b hb => ?_
    simp [busLevel, hoe b hb, hb]
  · rw [if_neg hbus]
    exact wired_undriven fun b hb => hbus ⟨b, hb⟩

/-- A dominant bit reaches the transmit level of its own line. -/
theorem txLevel_dominant {c : Fin ncontrollers} (hc : tx c = false) :
    r.txLevel tx (r.controllerLine c) = false := by
  have hle : r.txLevel tx (r.controllerLine c) ≤ tx c := wired_le r.controllerLine tx c
  rw [hc] at hle
  exact le_bot_iff.mp hle

end Routing

/-- The routing that the selector and enable ports of the entity stand for. -/
def Ports.routing (p : Ports ncontrollers nbuses logNlines) : Routing ncontrollers nbuses where
  controllerLine := lineOf p.selControllerLine
  busLine := lineOf p.selBusLine
  oe := p.busOe.getLsb

variable (p : Ports ncontrollers nbuses logNlines)

theorem intBusTx_getLsb (b : Fin nbuses) :
    p.intBusTx.getLsb b = p.routing.txLevel p.controllerTx.getLsb (lineOf p.selBusLine b) :=
  simplexCrossbar_getLsb p.controllerTx p.selControllerLine p.selBusLine b

theorem intBusRx_getLsb (b : Fin nbuses) :
    p.intBusRx.getLsb b = p.routing.busLevel p.controllerTx.getLsb p.busRx.getLsb b := by
  have hget : p.intBusRx.getLsb b
      = if p.busOe.getLsb b then p.busRx.getLsb b else p.intBusTx.getLsb b :=
    BitVec.getLsb_ofFnLE _ b
  rw [hget, intBusTx_getLsb]
  rfl

/-- **The crossbar is the wired-AND reference.** -/
theorem canCrossbar_routing (p : Ports ncontrollers nbuses logNlines) :
    (∀ b, p.busTx.getLsb b = p.routing.busTx p.controllerTx.getLsb b) ∧
    (∀ c, p.controllerRx.getLsb c
      = p.routing.controllerRx p.controllerTx.getLsb p.busRx.getLsb c) := by
  refine ⟨fun b => ?_, fun c => ?_⟩
  · have hget : p.busTx.getLsb b = if p.busOe.getLsb b then p.intBusTx.getLsb b else true :=
      BitVec.getLsb_ofFnLE _ b
    rw [hget, intBusTx_getLsb]
    rfl
  · have hsrc : p.intBusRx.getLsb = p.routing.busLevel p.controllerTx.getLsb p.busRx.getLsb := by
      funext b
      exact intBusRx_getLsb p b
    calc p.controllerRx.getLsb c
        = wired (lineOf p.selBusLine) p.intBusRx.getLsb (lineOf p.selControllerLine c) :=
          simplexCrossbar_getLsb p.intBusRx p.selBusLine p.selControllerLine c
      _ = _ := by rw [hsrc]; rfl

/-! ### Lines with no enabled bus -/

/--
**The internal bus of a line whose buses are all disabled.**  Each of its controllers
receives the conjunction of what the line's controllers transmit, provided some bus is
assigned to the line; with no bus at all it receives '1'.  In the first case a dominant
bit is read back.  The buses of the line stay recessive.
-/
theorem disabledLine_internal_bus (p : Ports ncontrollers nbuses logNlines) (l : Nat)
    (hoe : ∀ b, lineOf p.selBusLine b = l → p.busOe.getLsb b = false) :
    (∀ c, lineOf p.selControllerLine c = l →
      p.controllerRx.getLsb c = if ∃ b, lineOf p.selBusLine b = l
        then p.routing.txLevel p.controllerTx.getLsb l else true) ∧
    (∀ c, lineOf p.selControllerLine c = l → (∃ b, lineOf p.selBusLine b = l) →
      p.controllerTx.getLsb c = false → p.controllerRx.getLsb c = false) ∧
    (∀ b, lineOf p.selBusLine b = l → p.busTx.getLsb b = true) := by
  obtain ⟨hbusTx, hcontrollerRx⟩ := canCrossbar_routing p
  have hrx : ∀ c, lineOf p.selControllerLine c = l →
      p.controllerRx.getLsb c = if ∃ b, lineOf p.selBusLine b = l
        then p.routing.txLevel p.controllerTx.getLsb l else true := by
    intro c hc
    subst hc
    rw [hcontrollerRx c]
    exact p.routing.controllerRx_disabled _ _ hoe
  refine ⟨hrx, fun c hc hbus htx => ?_, fun b hb => ?_⟩
  · rw [hrx c hc, if_pos hbus, ← hc]
    exact p.routing.txLevel_dominant _ htx
  · have hb' : p.routing.oe b = false := hoe b hb
    rw [hbusTx b, Routing.busTx, hb']
    rfl

/-- The testbench's identity routing with all outputs disabled, on line 1. -/
theorem disabledLine_identity_routing :
    let p : Ports 8 4 2 := ⟨0xdf#8, 0x5#4, 0xe4e4#16, 0xe4#8, 0#4⟩
    p.controllerRx.getLsb 1 = p.routing.txLevel p.controllerTx.getLsb 1 := by
  intro p
  have h := (disabledLine_internal_bus p 1 (by decide)).1 1 (by decide)
  rwa [if_pos (by decide)] at h

/-- One controller alone on line 0, the only bus on line 1: the controller transmits a
dominant bit and does not read it back. -/
theorem emptyLine_no_readback :
    let p : Ports 1 1 1 := ⟨0#1, 1#1, 0#1, 1#1, 0#1⟩
    (∀ b, lineOf p.selBusLine b = 0 → p.busOe.getLsb b = false) ∧
    ¬ (∀ c, lineOf p.selControllerLine c = 0 →
      p.controllerRx.getLsb c = p.routing.txLevel p.controllerTx.getLsb 0) := by
  decide

end CanBench.Crossbar
