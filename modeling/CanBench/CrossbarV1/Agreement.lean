/-
The two versions of the crossbar side by side.

Both transmit the wired level of a port's line through the port's enable.  They differ on
the way back.  Version 2 loops a disabled bus back by itself, so a line receives the
conjunction over its buses, wire or loopback.  Version 1 decides it once for a line, by
the enable bit that has the *line's* number, and then takes either all wires or only what
the controllers of the line transmit.

So they are the same circuit exactly when the bit of a line says what the bits of its ports
say: `crossbars_agree_iff`.  With every port on the line of its number, as after reset, it
is the same bit.
-/
import CanBench.Crossbar.Routing
import CanBench.CrossbarV1.Impl

namespace CanBench.CrossbarV1

open Lib Crossbar

/-! ### The lines of version 1 -/

namespace CrossIn

variable (p : CrossIn)

theorem lineAnd_getLsb (line : Fin 4 → BitVec 2) (drive : BitVec 4) (l : Fin 4) :
    (lineAnd line drive).getLsb l = wired (fun k => (line k).toNat) drive.getLsb l.val := by
  have hfold : Finset.univ.inf (fun k => if (line k).toNat = l.val then drive.getLsb k else ⊤)
      = (lineAnd line drive).getLsb l := by
    rw [← foldl_inf_eq, lineAnd, BitVec.getLsb_ofFnLE]
    rfl
  rw [wired_eq_inf_ite, hfold]

/-- The routing that the control word stands for. -/
def routing : Routing 4 4 where
  controllerLine := fun k => (p.ifcLine k).toNat
  busLine := fun k => (p.canLine k).toNat
  oe := p.canEn.getLsb

/-- The enable bit with the number of a line. -/
def lineEn (l : Nat) : Bool := p.canEn.getLsbD l

theorem lineTx_getLsbD (sel : BitVec 2) :
    p.lineTx.getLsbD sel.toNat = p.routing.txLevel p.ifcTx.getLsb sel.toNat := by
  have hget : p.lineTx.getLsbD sel.toNat = p.lineTx.getLsb ⟨sel.toNat, sel.isLt⟩ :=
    BitVec.getLsbD_eq_getElem sel.isLt
  rw [hget, lineTx, lineAnd_getLsb]
  rfl

theorem canTx_getLsb (k : Fin 4) : p.canTx.getLsb k = p.routing.busTx p.ifcTx.getLsb k := by
  rw [canTx, BitVec.getLsb_ofFnLE, lineTx_getLsbD]
  rfl

/-- What version 1 has on a line to receive. -/
noncomputable def lineLevel (l : Nat) : Bool :=
  if p.lineEn l then wired p.routing.busLine p.canRx.getLsb l
  else p.routing.txLevel p.ifcTx.getLsb l

theorem ifcRx_getLsb (k : Fin 4) : p.ifcRx.getLsb k = p.lineLevel (p.ifcLine k).toNat := by
  have hl := (p.ifcLine k).isLt
  have hrx : p.lineRx.getLsbD (p.ifcLine k).toNat = p.lineRx.getLsb ⟨(p.ifcLine k).toNat, hl⟩ :=
    BitVec.getLsbD_eq_getElem hl
  have hen : p.canEn.getLsb ⟨(p.ifcLine k).toNat, hl⟩ = p.lineEn (p.ifcLine k).toNat :=
    (BitVec.getLsbD_eq_getElem hl).symm
  rw [ifcRx, BitVec.getLsb_ofFnLE, hrx, lineRx, BitVec.getLsb_ofFnLE, hen]
  unfold lineLevel
  congr 1
  · rw [canLineRx, lineAnd_getLsb]
    rfl
  · rw [lineTx, lineAnd_getLsb]
    rfl

end CrossIn

/-! ### The same word in version 2 -/

/-- Version 2 with four controllers, four buses and the fields of the control word. -/
def CrossIn.v2 (p : CrossIn) : Ports 4 4 2 where
  controllerTx := p.ifcTx
  busRx := p.canRx
  selControllerLine := p.ctrlWord.extractLsb' 8 8
  selBusLine := p.ctrlWord.extractLsb' 0 8
  busOe := p.canEn

/-- A field of two bits inside a field of eight. -/
theorem lineOf_extract (w : BitVec 32) (lo : Nat) (k : Fin 4) :
    @lineOf 4 2 (w.extractLsb' lo 8) k
      = (w.extractLsb' (lo + 2 * k.val) 2).toNat := by
  have hinner : w.extractLsb' (lo + 2 * k.val) 2
      = (w.extractLsb' lo 8).extractLsb' (2 * k.val) 2 := by
    apply BitVec.eq_of_getLsbD_eq
    intro j hj
    have hj8 : 2 * k.val + j < 8 := by omega
    simp only [BitVec.getLsbD_extractLsb', hj, hj8, decide_true, Bool.true_and]
    congr 1
    omega
  rw [hinner]
  generalize w.extractLsb' lo 8 = sel
  rw [lineOf, BitVec.extractLsb'_toNat, Nat.shiftRight_eq_div_pow, Nat.mul_comm 2 k.val]

theorem v2_routing (p : CrossIn) : p.v2.routing = p.routing := by
  have hc : ∀ k, lineOf p.v2.selControllerLine k = (p.ifcLine k).toNat :=
    fun k => lineOf_extract p.ctrlWord 8 k
  have hb : ∀ k, lineOf p.v2.selBusLine k = (p.canLine k).toNat := by
    intro k
    have hk := lineOf_extract p.ctrlWord 0 k
    rw [Nat.zero_add] at hk
    exact hk
  unfold Ports.routing CrossIn.routing
  rw [funext hc, funext hb]
  rfl

theorem v2_busTx_getLsb (p : CrossIn) (b : Fin 4) :
    p.v2.busTx.getLsb b = p.routing.busTx p.ifcTx.getLsb b := by
  have hget : p.v2.busTx.getLsb b
      = if p.v2.busOe.getLsb b then p.v2.intBusTx.getLsb b else true := BitVec.getLsb_ofFnLE _ b
  rw [hget, intBusTx_getLsb, v2_routing, ← v2_routing p]
  rfl

theorem v2_controllerRx_getLsb (p : CrossIn) (c : Fin 4) :
    p.v2.controllerRx.getLsb c
      = p.routing.controllerRx p.ifcTx.getLsb p.canRx.getLsb c := by
  have hsrc : p.v2.intBusRx.getLsb = p.v2.routing.busLevel p.ifcTx.getLsb p.canRx.getLsb :=
    funext fun b => intBusRx_getLsb p.v2 b
  rw [Ports.controllerRx, simplexCrossbar_getLsb, hsrc, v2_routing]
  show wired p.v2.routing.busLine _ (p.v2.routing.controllerLine c) = _
  rw [v2_routing]
  rfl

/-! ### When they agree -/

/-- On a line with a controller, one decision for the line and one for each bus come to the
same for all levels exactly when the line's bit agrees with those of its buses, and a line
looped back has a bus to loop it. -/
theorem lineLevels_agree_iff {n m : Nat} (r : Routing n m) (en : Bool) {c : Fin n} :
    (∀ (tx : Fin n → Bool) (rx : Fin m → Bool),
      (if en then wired r.busLine rx (r.controllerLine c)
        else r.txLevel tx (r.controllerLine c)) = r.controllerRx tx rx c) ↔
    (en = true ∧ ∀ b, r.busLine b = r.controllerLine c → r.oe b = true) ∨
    (en = false ∧ (∃ b, r.busLine b = r.controllerLine c) ∧
      ∀ b, r.busLine b = r.controllerLine c → r.oe b = false) := by
  have htxHigh : r.txLevel (fun _ => true) (r.controllerLine c) = true :=
    wired_const ⟨c, rfl⟩ fun _ _ => rfl
  constructor
  · intro hagree
    rcases Bool.eq_false_or_eq_true en with hen | hen
    · refine Or.inl ⟨hen, ?_⟩
      intro b hb
      -- a bus that loops back hides its own dominant wire
      by_contra hoe
      have hline := hagree (fun _ => true) (fun b' => decide (b' ≠ b))
      rw [if_pos hen] at hline
      have hwire : wired r.busLine (fun b' => decide (b' ≠ b)) (r.controllerLine c) = false := by
        have hle := wired_le r.busLine (fun b' => decide (b' ≠ b)) b
        rw [hb] at hle
        exact le_bot_iff.mp (hle.trans (by simp))
      have hlooped : r.controllerRx (fun _ => true) (fun b' => decide (b' ≠ b)) c = true := by
        refine wired_const ⟨b, hb⟩ ?_
        intro b' hb'
        by_cases hoe' : r.oe b' = true
        · have hne : b' ≠ b := by
            rintro rfl
            exact hoe hoe'
          simp [Routing.busLevel, hoe', hne]
        · simp [Routing.busLevel, hoe', hb', htxHigh]
      rw [hwire, hlooped] at hline
      exact absurd hline (by simp)
    · have hsilent : ∀ tx rx, r.txLevel tx (r.controllerLine c) = r.controllerRx tx rx c := by
        intro tx rx
        have hline := hagree tx rx
        rwa [hen] at hline
      refine Or.inr ⟨hen, ?_, ?_⟩
      · by_contra hnone
        have hfloat : r.controllerRx (fun _ => false) (fun _ => true) c = true :=
          wired_undriven fun b hb => hnone ⟨b, hb⟩
        have hlow : r.txLevel (fun _ => false) (r.controllerLine c) = false :=
          r.txLevel_dominant _ rfl
        have hline := hsilent (fun _ => false) (fun _ => true)
        rw [hfloat, hlow] at hline
        exact absurd hline (by simp)
      · intro b hb
        by_contra hoe
        have hoe' : r.oe b = true := by simpa using hoe
        have hline := hsilent (fun _ => true) (fun _ => false)
        have hle : r.controllerRx (fun _ => true) (fun _ => false) c
            ≤ r.busLevel (fun _ => true) (fun _ => false) b := by
          rw [Routing.controllerRx, ← hb]
          exact wired_le _ _ b
        rw [← hline, htxHigh] at hle
        rw [Routing.busLevel, if_pos hoe'] at hle
        exact absurd hle (by decide)
  · rintro (⟨hen, hall⟩ | ⟨hen, hsome, hall⟩) tx rx
    · rw [if_pos hen]
      refine wired_congr ?_
      intro b hb
      simp [Routing.busLevel, hall b hb]
    · rw [r.controllerRx_disabled tx rx hall, if_pos hsome, hen]
      rfl

/--
**When the two crossbars are the same circuit.**  For one control word the outputs of the
two versions agree on all inputs exactly when each line with a controller is either enabled
together with all its ports, or disabled together with all of at least one.
-/
theorem crossbars_agree_iff (ctrlWord : BitVec 32) :
    (∀ canRx ifcTx, let p : CrossIn := ⟨canRx, ifcTx, ctrlWord⟩
      p.canTx = p.v2.busTx ∧ p.ifcRx = p.v2.controllerRx) ↔
    ∀ c, let p : CrossIn := ⟨0, 0, ctrlWord⟩
      (p.lineEn (p.ifcLine c).toNat = true ∧
        ∀ b, p.canLine b = p.ifcLine c → p.canEn.getLsb b = true) ∨
      (p.lineEn (p.ifcLine c).toNat = false ∧ (∃ b, p.canLine b = p.ifcLine c) ∧
        ∀ b, p.canLine b = p.ifcLine c → p.canEn.getLsb b = false) := by
  have hline : ∀ (p : CrossIn) (b c : Fin 4),
      p.routing.busLine b = p.routing.controllerLine c ↔ p.canLine b = p.ifcLine c :=
    fun p b c => BitVec.toNat_inj
  have htx : ∀ p : CrossIn, p.canTx = p.v2.busTx := by
    intro p
    apply BitVec.eq_of_getLsbD_eq
    intro b hb
    have h1 : p.canTx.getLsbD b = p.canTx.getLsb ⟨b, hb⟩ := BitVec.getLsbD_eq_getElem hb
    have h2 : p.v2.busTx.getLsbD b = p.v2.busTx.getLsb ⟨b, hb⟩ := BitVec.getLsbD_eq_getElem hb
    rw [h1, h2, p.canTx_getLsb, v2_busTx_getLsb]
  have hrx : ∀ p : CrossIn, p.ifcRx = p.v2.controllerRx ↔
      ∀ c, p.lineLevel (p.ifcLine c).toNat
        = p.routing.controllerRx p.ifcTx.getLsb p.canRx.getLsb c := by
    intro p
    constructor
    · intro h c
      rw [← p.ifcRx_getLsb, h, v2_controllerRx_getLsb]
    · intro h
      apply BitVec.eq_of_getLsbD_eq
      intro c hc
      have h1 : p.ifcRx.getLsbD c = p.ifcRx.getLsb ⟨c, hc⟩ := BitVec.getLsbD_eq_getElem hc
      have h2 : p.v2.controllerRx.getLsbD c = p.v2.controllerRx.getLsb ⟨c, hc⟩ :=
        BitVec.getLsbD_eq_getElem hc
      rw [h1, h2, p.ifcRx_getLsb, v2_controllerRx_getLsb, h]
  have hlevels := fun c => lineLevels_agree_iff (CrossIn.routing ⟨0, 0, ctrlWord⟩)
    (CrossIn.lineEn ⟨0, 0, ctrlWord⟩ (CrossIn.ifcLine ⟨0, 0, ctrlWord⟩ c).toNat) (c := c)
  simp only [hline] at hlevels
  constructor
  · intro hagree c
    refine (hlevels c).mp ?_
    intro tx rx
    have hp := (hrx ⟨BitVec.ofFnLE rx, BitVec.ofFnLE tx, ctrlWord⟩).mp
      (hagree (BitVec.ofFnLE rx) (BitVec.ofFnLE tx)).2 c
    have htx' : (BitVec.ofFnLE tx).getLsb = tx := funext fun k => BitVec.getLsb_ofFnLE tx k
    have hrx' : (BitVec.ofFnLE rx).getLsb = rx := funext fun k => BitVec.getLsb_ofFnLE rx k
    unfold CrossIn.lineLevel at hp
    simp only [htx', hrx'] at hp
    exact hp
  · intro hcond canRx ifcTx p
    refine ⟨htx p, (hrx p).mpr ?_⟩
    intro c
    exact (hlevels c).mpr (hcond c) ifcTx.getLsb canRx.getLsb

end CanBench.CrossbarV1
