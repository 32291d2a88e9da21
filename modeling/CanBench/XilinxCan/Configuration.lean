/-
What the user has configured, and what the controller is told.

Bit timing and loopback mode are set while the interface is down, and go into BRPR, BTR and
MSR when `xcan_chip_start` runs.  The bit timing is packed: every field counts from one, three
of them share BTR.  `xcan_bittiming_const` has the limits in which the kernel keeps it, and
they are the very ones within which nothing is lost.

While the interface is up nothing else is written there.  A restart writes the same again or
fails before it does, and no interrupt touches these registers.  The 0 that `xcan_resume` has
for MSR, which is normal mode whatever the interface was opened in, is not written here: drvdata
looked up twice leads elsewhere.
-/
import CanBench.Lib.BitFields
import CanBench.XilinxCan.ModePairing

namespace CanBench.XilinxCan

open Lib

def xcanBrprBrpMask : BitVec 32 := 0x000000FF
def xcanBtrSjwMask : BitVec 32 := 0x00000180
def xcanBtrTs2Mask : BitVec 32 := 0x00000070
def xcanBtrTs1Mask : BitVec 32 := 0x0000000F

def xcanBtrSjwShift : Nat := 7
def xcanBtrTs2Shift : Nat := 4

/-- `struct can_bittiming_const`, without its name and the step of the prescaler. -/
structure CanBittimingConst where
  tseg1Min : Nat
  tseg1Max : Nat
  tseg2Min : Nat
  tseg2Max : Nat
  sjwMax : Nat
  brpMin : Nat
  brpMax : Nat
deriving DecidableEq

def xcanBittimingConst : CanBittimingConst where
  tseg1Min := 1
  tseg1Max := 16
  tseg2Min := 1
  tseg2Max := 8
  sjwMax := 4
  brpMin := 1
  brpMax := 256

namespace CanBittiming

/-- Time segment 1, as the kernel adds it up. -/
def tseg1 (bt : CanBittiming) : BitVec 32 := bt.propSeg + bt.phaseSeg1

/-- What the kernel lets through; it makes a `sjw` of 0 a 1. -/
structure Within (bt : CanBittiming) (btc : CanBittimingConst) : Prop where
  tseg1 : btc.tseg1Min ≤ bt.tseg1.toNat ∧ bt.tseg1.toNat ≤ btc.tseg1Max
  tseg2 : btc.tseg2Min ≤ bt.phaseSeg2.toNat ∧ bt.phaseSeg2.toNat ≤ btc.tseg2Max
  sjw : 1 ≤ bt.sjw.toNat ∧ bt.sjw.toNat ≤ btc.sjwMax
  brp : btc.brpMin ≤ bt.brp.toNat ∧ bt.brp.toNat ≤ btc.brpMax

/-- A field that counts from one. -/
def counted (reg mask : BitVec 32) (shift : Nat) : BitVec 32 := ((reg &&& mask) >>> shift) + 1

/-- The registers stand for the bit timing, and no bit is set outside their fields. -/
structure HeldBy (bt : CanBittiming) (brpr btr : BitVec 32) : Prop where
  brp : counted brpr xcanBrprBrpMask 0 = bt.brp
  tseg1 : counted btr xcanBtrTs1Mask 0 = bt.tseg1
  tseg2 : counted btr xcanBtrTs2Mask xcanBtrTs2Shift = bt.phaseSeg2
  sjw : counted btr xcanBtrSjwMask xcanBtrSjwShift = bt.sjw
  brprRest : brpr &&& ~~~xcanBrprBrpMask = 0
  btrRest : btr &&& ~~~(xcanBtrSjwMask ||| xcanBtrTs2Mask ||| xcanBtrTs1Mask) = 0

/-- `btr0` of `xcan_set_bittiming`. -/
def btr0 (bt : CanBittiming) : BitVec 32 := bt.brp - 1

/-- `btr1` of `xcan_set_bittiming`. -/
def btr1 (bt : CanBittiming) : BitVec 32 :=
  (bt.tseg1 - 1 ||| (bt.phaseSeg2 - 1) <<< xcanBtrTs2Shift) ||| (bt.sjw - 1) <<< xcanBtrSjwShift

end CanBittiming

/-! ### The fields -/

/-- A field has as many values as its mask allows. -/
theorem counted_le (reg mask : BitVec 32) (shift : Nat) {k : Nat}
    (hmask : mask.toNat >>> shift = k) (hk : k < 2 ^ 32 - 1) :
    1 ≤ (CanBittiming.counted reg mask shift).toNat ∧
      (CanBittiming.counted reg mask shift).toNat ≤ k + 1 := by
  have hfield : ((reg &&& mask) >>> shift).toNat ≤ k := by
    rw [BitVec.toNat_ushiftRight, BitVec.toNat_and, Nat.shiftRight_and_distrib, hmask]
    exact Nat.and_le_right
  have hval : (CanBittiming.counted reg mask shift).toNat
      = ((reg &&& mask) >>> shift).toNat + 1 := by
    rw [CanBittiming.counted, BitVec.toNat_add]
    exact Nat.mod_eq_of_lt (show ((reg &&& mask) >>> shift).toNat + 1 < 2 ^ 32 by omega)
  omega

/-- What is packed into BTR lies in its own field. -/
theorem btr_fields {x y z : BitVec 32} (hx : x.toNat < 2 ^ 4) (hy : y.toNat < 2 ^ 3)
    (hz : z.toNat < 2 ^ 2) :
    (x ||| y <<< 4 ||| z <<< 7) &&& bits 32 0 4 = x ∧
      ((x ||| y <<< 4 ||| z <<< 7) &&& bits 32 4 3) >>> 4 = y ∧
      ((x ||| y <<< 4 ||| z <<< 7) &&& bits 32 7 2) >>> 7 = z ∧
      (x ||| y <<< 4 ||| z <<< 7) &&& ~~~bits 32 0 9 = 0 := by
  have hx' : ∀ i, 4 ≤ i → x.getLsbD i = false := fun i hi => getLsbD_of_toNat_lt hx hi
  have hy' : ∀ i, 3 ≤ i → y.getLsbD i = false := fun i hi => getLsbD_of_toNat_lt hy hi
  have hz' : ∀ i, 2 ≤ i → z.getLsbD i = false := fun i hi => getLsbD_of_toNat_lt hz hi
  refine ⟨?_, ?_, ?_, ?_⟩ <;> refine BitVec.eq_of_getLsbD_eq fun i hi => ?_ <;>
    simp only [BitVec.getLsbD_and, BitVec.getLsbD_or, BitVec.getLsbD_shiftLeft,
      BitVec.getLsbD_ushiftRight, BitVec.getLsbD_not, getLsbD_bits] <;>
    grind

theorem brpr_field {w : BitVec 32} (hw : w.toNat < 2 ^ 8) :
    w &&& bits 32 0 8 = w ∧ w &&& ~~~bits 32 0 8 = 0 := by
  have hw' : ∀ i, 8 ≤ i → w.getLsbD i = false := fun i hi => getLsbD_of_toNat_lt hw hi
  refine ⟨?_, ?_⟩ <;> refine BitVec.eq_of_getLsbD_eq fun i hi => ?_ <;>
    simp only [BitVec.getLsbD_and, BitVec.getLsbD_not, getLsbD_bits] <;>
    grind

/-- One less, if it is at least one. -/
theorem toNat_sub_one_lt {v : BitVec 32} {k : Nat} (hv : 1 ≤ v.toNat ∧ v.toNat ≤ k) :
    (v - 1).toNat < k := by
  have hpred : (v - 1).toNat = v.toNat - 1 := by
    rw [BitVec.toNat_sub_of_le (by simpa [BitVec.le_def] using hv.1)]
    rfl
  omega

theorem xcanBrprBrpMask_bits : xcanBrprBrpMask = bits 32 0 8 := by decide
theorem xcanBtrTs1Mask_bits : xcanBtrTs1Mask = bits 32 0 4 := by decide
theorem xcanBtrTs2Mask_bits : xcanBtrTs2Mask = bits 32 4 3 := by decide
theorem xcanBtrSjwMask_bits : xcanBtrSjwMask = bits 32 7 2 := by decide

theorem xcanBtrMasks_bits : xcanBtrSjwMask ||| xcanBtrTs2Mask ||| xcanBtrTs1Mask = bits 32 0 9 := by
  decide

/-- **The limits are those of the registers.** -/
theorem heldBy_iff (bt : CanBittiming) :
    bt.HeldBy bt.btr0 bt.btr1 ↔ bt.Within xcanBittimingConst := by
  constructor
  · intro h
    refine ⟨?_, ?_, ?_, ?_⟩
    · rw [← h.tseg1]
      exact counted_le _ _ _ (k := 15) (by decide) (by omega)
    · rw [← h.tseg2]
      exact counted_le _ _ _ (k := 7) (by decide) (by omega)
    · rw [← h.sjw]
      exact counted_le _ _ _ (k := 3) (by decide) (by omega)
    · rw [← h.brp]
      exact counted_le _ _ _ (k := 255) (by decide) (by omega)
  · intro h
    obtain ⟨hts1, hts2, hsjw, hrest⟩ := btr_fields (toNat_sub_one_lt h.tseg1)
      (toNat_sub_one_lt h.tseg2) (toNat_sub_one_lt h.sjw)
    obtain ⟨hbrp, hbrpRest⟩ := brpr_field (toNat_sub_one_lt h.brp)
    refine ⟨?_, ?_, ?_, ?_, ?_, ?_⟩
    · rw [CanBittiming.counted, xcanBrprBrpMask_bits, BitVec.ushiftRight_zero, CanBittiming.btr0,
        hbrp, BitVec.sub_add_cancel]
    · rw [CanBittiming.counted, xcanBtrTs1Mask_bits, BitVec.ushiftRight_zero, CanBittiming.btr1]
      exact (congrArg (· + 1) hts1).trans (BitVec.sub_add_cancel _ _)
    · rw [CanBittiming.counted, xcanBtrTs2Mask_bits, CanBittiming.btr1]
      exact (congrArg (· + 1) hts2).trans (BitVec.sub_add_cancel _ _)
    · rw [CanBittiming.counted, xcanBtrSjwMask_bits, CanBittiming.btr1]
      exact (congrArg (· + 1) hsjw).trans (BitVec.sub_add_cancel _ _)
    · rw [xcanBrprBrpMask_bits]
      exact hbrpRest
    · rw [xcanBtrMasks_bits]
      exact hrest

/-! ### The settings through the operations -/

/-- What happens to the interface: an operation of the driver, or new settings. -/
inductive LinkOp
  | dev (a : DevOp)
  | configure (bt : CanBittiming) (loopback : Bool)
deriving DecidableEq

/-- The registers that the settings go to. -/
def XcanReg.holdsSettings : XcanReg → Bool
  | .brpr | .btr | .msr => true
  | _ => false

/-- What the user has set, and what these registers have. -/
structure Settings where
  up : Bool
  bittiming : CanBittiming
  loopback : Bool
  brpr : Option (BitVec 32)
  btr : Option (BitVec 32)
  msr : Option (BitVec 32)

namespace Settings

/-- `reg_msr` of `xcan_chip_start`. -/
def regMsr (c : Settings) : BitVec 32 := if c.loopback then xcanMsrLbackMask else 0

/-- What `xcan_chip_start` writes. -/
def start (c : Settings) : Settings :=
  { c with
    brpr := some c.bittiming.btr0
    btr := some c.bittiming.btr1
    msr := some c.regMsr }

/-- The registers have what the last start of the chip wrote, and it would write it again. -/
structure Told (c : Settings) : Prop where
  brpr : c.brpr = some c.bittiming.btr0
  btr : c.btr = some c.bittiming.btr1
  msr : c.msr = some c.regMsr

/-- Nothing is promised of an interface that is down. -/
def Sound (c : Settings) : Prop := c.up = true → c.Told

theorem sound_of_down {c : Settings} (hup : c.up = false) : c.Sound := fun h =>
  absurd (h.symm.trans hup) (by simp)

theorem sound_start (c : Settings) (up : Bool) : Sound { c.start with up := up } :=
  fun _ => ⟨rfl, rfl, rfl⟩

end Settings

namespace Dev

variable {s : Dev}

def settings (s : Dev) : Settings where
  up := s.up
  bittiming := s.bittiming
  loopback := s.loopback
  brpr := s.written .brpr
  btr := s.written .btr
  msr := s.written .msr

theorem settings_writeReg {reg : XcanReg} (hreg : reg.holdsSettings = false) (v : BitVec 32) :
    (s.writeReg reg v).settings = s.settings := by
  have hne : ∀ q : XcanReg, q.holdsSettings = true → q ≠ reg := by
    rintro q hq rfl
    exact Bool.false_ne_true (hreg.symm.trans hq)
  simp [settings, writeReg, hne .brpr rfl, hne .btr rfl, hne .msr rfl]

theorem settings_xcanChipStart (e : ChipReads) :
    (s.xcanChipStart e).1.settings = (if e.configures then s.settings.start else s.settings) ∧
      ((s.xcanChipStart e).2 = true → e.configures = true) := by
  cases hconfig : waitFor e.config xcanSrConfigMask with
  | false =>
      simp [ChipReads.configures, xcanChipStart, setResetMode, hconfig, settings, writeReg]
  | true =>
      cases hbit : test e.bittiming xcanSrConfigMask with
      | false =>
          simp [ChipReads.configures, xcanChipStart, setResetMode, xcanSetBittiming, hconfig, hbit,
            settings, writeReg]
      | true =>
          have hconf : e.configures = true := by simp [ChipReads.configures, hconfig, hbit]
          refine ⟨?_, fun _ => hconf⟩
          rw [hconf, if_pos rfl]
          cases henter : e.enters s.loopback with
          | false =>
              rw [ChipReads.enters] at henter
              simp [xcanChipStart, setResetMode, xcanSetBittiming, hconfig, hbit, writeReg, henter,
                settings, Settings.start, Settings.regMsr, CanBittiming.btr0, CanBittiming.btr1,
                CanBittiming.tseg1, xcanBtrTs2Shift, xcanBtrSjwShift]
              rfl
          | true =>
              rw [ChipReads.enters] at henter
              simp [xcanChipStart, setResetMode, xcanSetBittiming, hconfig, hbit, writeReg, henter,
                settings, Settings.start, Settings.regMsr, CanBittiming.btr0, CanBittiming.btr1,
                CanBittiming.tseg1, xcanBtrTs2Shift, xcanBtrSjwShift]
              rfl

theorem settings_setResetMode (config : List (BitVec 32)) :
    (s.setResetMode config).1.settings = s.settings :=
  settings_writeReg rfl xcanSrrResetMask

/-- An open starts the chip or leaves the settings alone, and then the interface is down. -/
theorem settings_xcanOpen (e : OpenResults) :
    (s.xcanOpen e).settings = s.settings ∨
      ∃ up, (s.xcanOpen e).settings = { s.settings.start with up := up } := by
  cases hready : e.readies with
  | false =>
      refine Or.inl ?_
      have hreset := settings_setResetMode (s := s) e.config
      cases hclk : e.requestIrq && e.enableCanClk && e.enableBusClk with
      | false =>
          have hopen : s.xcanOpen e = s := by
            simp only [xcanOpen]
            grind
          rw [hopen]
      | true =>
          have hclks := hclk
          simp only [Bool.and_eq_true] at hclks
          cases hconfig : waitFor e.config xcanSrConfigMask with
          | false => simpa [xcanOpen, setResetMode, hclks, hconfig] using hreset
          | true =>
              have hcandev : e.openCandev = false := by
                simpa [OpenResults.readies, hclk, hconfig] using hready
              simpa [xcanOpen, setResetMode, hclks, hconfig, hcandev] using hreset
  | true =>
      rw [xcanOpen_of_readies hready]
      have hbefore : ({ (s.setResetMode e.config).1 with carrierOff := false } : Dev).settings
          = s.settings := settings_setResetMode e.config
      obtain ⟨hstart, hok⟩ := settings_xcanChipStart
        (s := { (s.setResetMode e.config).1 with carrierOff := false }) e.chip
      rw [hbefore] at hstart
      cases hconf : e.chip.configures with
      | false =>
          have hfails : (s.started e).2 = false :=
            Bool.eq_false_iff.mpr fun htrue => absurd ((hok htrue).symm.trans hconf) (by simp)
          rw [hconf] at hstart
          rw [hfails]
          exact Or.inl hstart
      | true =>
          rw [hconf, if_pos rfl] at hstart
          refine Or.inr ?_
          cases (s.started e).2 with
          | false => exact ⟨s.up, hstart⟩
          | true => exact ⟨true, congrArg (fun c : Settings => { c with up := true }) hstart⟩

theorem settings_ite {cond : Prop} [Decidable cond] {a b : Dev} (ha : a.settings = s.settings)
    (hb : b.settings = s.settings) : (if cond then a else b).settings = s.settings := by
  split
  · exact ha
  · exact hb

theorem settings_xcanStateInterrupt (isr : BitVec 32) :
    (s.xcanStateInterrupt isr).settings = s.settings := by
  unfold xcanStateInterrupt
  exact settings_ite (settings_ite rfl rfl) (settings_ite rfl rfl)

theorem settings_xcanErrInterrupt (e : IrqReads) :
    (s.xcanErrInterrupt e).settings = s.settings := by
  have hesr : (s.writeReg .esr e.esr).settings = s.settings :=
    settings_writeReg rfl e.esr
  have hsrr : ∀ t : Dev, t.settings = s.settings →
      (t.writeReg .srr xcanSrrResetMask).settings = s.settings := fun t ht =>
    (settings_writeReg rfl xcanSrrResetMask).trans ht
  have hoverflow : ∀ t : Dev, t.settings = s.settings →
      (if test e.isr xcanIxrRxoflwMask then t.writeReg .srr xcanSrrResetMask else t).settings
        = s.settings := fun t ht => settings_ite (hsrr t ht) ht
  have hframe : ∀ t : Dev, t.settings = s.settings →
      (if e.skb then { t with stats := errStats e t.stats }.netifRx (errFrame e)
        else { t with stats := errStats e t.stats }).settings = s.settings := fun t ht =>
    settings_ite ht ht
  unfold xcanErrInterrupt
  refine hframe _ (hoverflow _ ?_)
  exact settings_ite (hsrr _ hesr) (settings_ite hesr (settings_ite hesr hesr))

/-- The handler writes ICR, IER, ESR and SRR. -/
theorem settings_xcanInterrupt (e : IrqReads) : (s.xcanInterrupt e).settings = s.settings := by
  have hwrite : ∀ (reg : XcanReg) (v : BitVec 32) (t : Dev), reg.holdsSettings = false →
      t.settings = s.settings → (t.writeReg reg v).settings = s.settings :=
    fun reg v t hreg ht => (settings_writeReg hreg v).trans ht
  have hreceive : ∀ t : Dev, t.settings = s.settings →
      (if test e.isr (xcanIxrRxnempMask ||| xcanIxrRxokMask) then
        t.writeReg .ier (e.ier &&& ~~~(xcanIxrRxnempMask ||| xcanIxrRxokMask)) else t).settings
        = s.settings := fun t ht => settings_ite (hwrite .ier _ t rfl ht) ht
  have herrors : ∀ t : Dev, t.settings = s.settings →
      (if test e.isr errCauses then (t.writeReg .icr errCauses).xcanErrInterrupt e else t).settings
        = s.settings := fun t ht =>
    settings_ite ((settings_xcanErrInterrupt e).trans (hwrite .icr _ t rfl ht)) ht
  have htransmit : ∀ t : Dev, t.settings = s.settings →
      (if test e.isr xcanIxrTxokMask then t.writeReg .icr xcanIxrTxokMask else t).settings
        = s.settings := fun t ht => settings_ite (hwrite .icr _ t rfl ht) ht
  unfold xcanInterrupt
  refine settings_ite rfl (hreceive _ (herrors _ (htransmit _ ?_)))
  refine settings_ite ?_ rfl
  exact (settings_xcanStateInterrupt e.isr).trans (hwrite .icr _ s rfl rfl)

/-! ### In any order the kernel allows -/

def link (s : Dev) : LinkOp → Dev
  | .dev a => s.op a
  | .configure bt loopback => { s with bittiming := bt, loopback := loopback }

/-- New settings are taken while the interface is down. -/
def linkAllows (s : Dev) : LinkOp → Bool
  | .dev a => s.allows a
  | .configure _ _ => !s.up && !s.suspended

/-- The controller has been told what the user has set. -/
structure Configured (s : Dev) : Prop where
  timing : ∃ brpr btr, s.written .brpr = some brpr ∧ s.written .btr = some btr ∧
    (s.bittiming.HeldBy brpr btr ↔ s.bittiming.Within xcanBittimingConst)
  mode : s.written .msr = some (if s.loopback then xcanMsrLbackMask else 0)

theorem configured_of_sound (hsound : s.settings.Sound) (hup : s.up = true) : s.Configured := by
  obtain ⟨hbrpr, hbtr, hmsr⟩ := hsound hup
  exact ⟨⟨_, _, hbrpr, hbtr, heldBy_iff s.bittiming⟩, hmsr⟩

/-- An operation starts the chip, takes the interface down or leaves the settings alone. -/
theorem sound_op (h : s.settings.Sound) (a : DevOp) : (s.op a).settings.Sound := by
  cases a with
  | «open» e =>
      rcases settings_xcanOpen (s := s) e with hsame | ⟨up, hstart⟩
      · rw [op, hsame]
        exact h
      · rw [op, hstart]
        exact Settings.sound_start s.settings up
  | close ier => exact Settings.sound_of_down rfl
  | suspend =>
      rw [op_suspend]
      exact h
  | resume bus can =>
      rw [op_resume]
      exact h
  | restart e =>
      have hstart : (s.op (.restart e)).settings
          = if e.configures then s.settings.start else s.settings :=
        (settings_xcanChipStart (s := s) e).1
      rw [hstart]
      split
      · exact Settings.sound_start s.settings s.up
      · exact h
  | interrupt e =>
      rw [op, settings_xcanInterrupt]
      exact h

theorem sound_link (h : s.settings.Sound) {a : LinkOp} (hok : s.linkAllows a = true) :
    (s.link a).settings.Sound := by
  cases a with
  | dev a => exact sound_op h a
  | configure bt loopback =>
      simp only [linkAllows, Bool.and_eq_true, Bool.not_eq_true'] at hok
      exact Settings.sound_of_down hok.1

end Dev

/-- Runs from a device just probed. -/
def linkSystem : System Dev LinkOp where
  init := devSystem.init
  allowed := fun s a => s.linkAllows a = true
  next := Dev.link

/--
**What is set is what the controller is told.**  In every order of the operations, interrupts
and changes of the settings: whenever the interface is up, the values last written to BRPR and
BTR stand for the bit timing set (which fits if it is within the limits, and only then) and MSR
has the mode set.
-/
theorem configured_of_up {h : List (Dev × LinkOp)} {s : Dev} (r : Run linkSystem h s)
    (hup : s.up = true) : s.Configured := by
  have hsound : s.settings.Sound := by
    refine r.invariant (I := fun x => x.settings.Sound) ?_ ?_
    · rintro x ⟨hdown, -⟩
      exact Settings.sound_of_down hdown
    · intro x a hx hok
      exact Dev.sound_link hx hok
  exact Dev.configured_of_sound hsound hup

/-! ### A night's sleep -/

/-- 500 kbit/s of a 20 MHz clock. -/
def halfMegabit : CanBittiming := ⟨2, 8, 7, 4, 1⟩

def loopReads : ChipReads := ⟨[xcanSrConfigMask], xcanSrConfigMask, [xcanSrLbackMask]⟩

/-- Configured for loopback, opened, suspended and resumed; then the bus goes off. -/
def overnight : List LinkOp :=
  [.configure halfMegabit true,
    .dev (.open ⟨true, true, true, [xcanSrConfigMask], true, loopReads⟩),
    .dev .suspend, .dev (.resume true true), .dev (.interrupt (irqOf xcanIxrBsoffMask))]

instance (s : Dev) (a : LinkOp) : Decidable (linkSystem.allowed s a) :=
  inferInstanceAs (Decidable (s.linkAllows a = true))

/-- The core is still told the mode it was opened in. -/
theorem overnight_configured :
    (linkSystem.runFrom probed overnight).Configured ∧
      (linkSystem.runFrom probed overnight).written .msr = some xcanMsrLbackMask := by
  have hstart : Run linkSystem [] probed := Run.start ⟨rfl, rfl, rfl, fun _ => rfl⟩
  have r := System.run_of_steps _ overnight hstart (by decide +kernel)
  have hconf := configured_of_up r (by decide +kernel)
  exact ⟨hconf, hconf.mode.trans (by decide +kernel)⟩

end CanBench.XilinxCan
