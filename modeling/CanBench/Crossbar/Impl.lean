/-
The CAN crossbar, version 2: `can_crossbar_impl.vhd`.

Every entity of the file is one function here, from its input ports to its output
ports, with the generics as implicit arguments.  A `std_logic_vector(n-1 downto 0)`
that carries only '0' and '1' is a `BitVec n`, bit `i` of the source being bit `i`
here; a vector assigned element by element is built with `BitVec.ofFnLE`.

The design has no clock.  `can_crossbar` looks circular, since the bus side feeds
the controller side through the output-enable stage, but the transmit crossbar does
not depend on the receive one, so the signals have an evaluation order and the
definitions follow it.
-/
import Mathlib

namespace CanBench.Crossbar

/-- `helpers.sll_int`: `a` doubled `b` times. -/
def sllInt (a b : Nat) : Nat :=
  (List.range b).foldl (fun res _ => res * 2) a

theorem sllInt_eq (a b : Nat) : sllInt a b = a * 2 ^ b := by
  unfold sllInt
  induction b with
  | zero => simp
  | succ b ih => rw [List.range_succ, List.foldl_append, ih]; simp [pow_succ, mul_assoc]

/-- Entity `demux`: everything at `DEFVAL`, then the selected element at `din`. -/
def demux {bits : Nat} (defval : Bool) (sel : BitVec bits) (din : Bool) :
    BitVec (sllInt 1 bits) :=
  BitVec.ofFnLE fun k => if k.val = sel.toNat then din else defval

/-- Entity `mux`. -/
def mux {bits : Nat} (sel : BitVec bits) (din : BitVec (sllInt 1 bits)) : Bool :=
  din.getLsbD sel.toNat

/-- The port map `sel((i+1)*LOG_NLINES-1 downto i*LOG_NLINES)`. -/
def selSlice {n logNlines : Nat} (sel : BitVec (n * logNlines)) (i : Nat) : BitVec logNlines :=
  sel.extractLsb' (i * logNlines) logNlines

/-- Process `psrcand`: `tmp := '1'`, then `tmp and onehot(isrc)(iline)` for each source. -/
def psrcand {nsrc nlines : Nat} (onehot : Fin nsrc → BitVec nlines) : BitVec nlines :=
  BitVec.ofFnLE fun iline =>
    (List.finRange nsrc).foldl (fun tmp isrc => tmp && (onehot isrc).getLsb iline) true

/-- Entity `simplex_crossbar`. -/
def simplexCrossbar {nsrc logNlines ndst : Nat} (src : BitVec nsrc)
    (selSrcLine : BitVec (nsrc * logNlines)) (selDstLine : BitVec (ndst * logNlines)) :
    BitVec ndst :=
  let onehot : Fin nsrc → BitVec (sllInt 1 logNlines) := fun i =>
    demux true (selSlice selSrcLine i) (src.getLsb i)
  let lines := psrcand onehot
  BitVec.ofFnLE fun i => mux (selSlice selDstLine i) lines

/-- The input ports of `can_crossbar`. -/
structure Ports (ncontrollers nbuses logNlines : Nat) where
  controllerTx : BitVec ncontrollers
  busRx : BitVec nbuses
  selControllerLine : BitVec (ncontrollers * logNlines)
  selBusLine : BitVec (nbuses * logNlines)
  busOe : BitVec nbuses

variable {ncontrollers nbuses logNlines : Nat}

/-- Instance `i_tx`, driving `int_bus_tx`. -/
def Ports.intBusTx (p : Ports ncontrollers nbuses logNlines) : BitVec nbuses :=
  simplexCrossbar p.controllerTx p.selControllerLine p.selBusLine

/-- `int_bus_rx(i) <= bus_rx(i) when bus_oe(i) = '1' else int_bus_tx(i)`. -/
def Ports.intBusRx (p : Ports ncontrollers nbuses logNlines) : BitVec nbuses :=
  BitVec.ofFnLE fun i => if p.busOe.getLsb i then p.busRx.getLsb i else p.intBusTx.getLsb i

/-- Output `bus_tx(i) <= int_bus_tx(i) when bus_oe(i) = '1' else '1'`. -/
def Ports.busTx (p : Ports ncontrollers nbuses logNlines) : BitVec nbuses :=
  BitVec.ofFnLE fun i => if p.busOe.getLsb i then p.intBusTx.getLsb i else true

/-- Output `controller_rx`, driven by instance `i_rx`. -/
def Ports.controllerRx (p : Ports ncontrollers nbuses logNlines) : BitVec ncontrollers :=
  simplexCrossbar p.intBusRx p.selBusLine p.selControllerLine

end CanBench.Crossbar
