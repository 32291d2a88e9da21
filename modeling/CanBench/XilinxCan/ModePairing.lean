/-
Whether `can.state` and the software reset register agree.

`Mode` is all of the device that the question is about: whether the interface is up, the
state the kernel is told and the last value written to SRR.  The first half of the file
says what each operation makes of it, the second half reads nothing else.

While the interface is up and an error state is reported, SRR should hold CEN; while it
is down, off the bus or stopped, RESET.  Nothing has been written before the first open,
which is as good: the core comes out of its own reset in configuration mode.

Opens, restarts and interrupts have inputs after which the two disagree, and
`keepsPairing` has them all.  An overflow of the receive FIFO resets the core as a bus-off
does, and is not reported as one.  A wake-up or an error status can be announced while the
core is in reset.  A start that times out has written CEN and returns; a restart that
fails before that has written RESET.  Suspend and resume reach neither the register nor the
state.
-/
import CanBench.XilinxCan.Mode

namespace CanBench.XilinxCan

open Lib

/-- The states in which the core is reported to be on the bus. -/
def CanState.onBus : CanState → Bool
  | .errorActive | .errorWarning | .errorPassive => true
  | .busOff | .stopped | .sleeping => false

/-- The states in which it is reported to be off it. -/
def CanState.offBus : CanState → Bool
  | .busOff | .stopped => true
  | .errorActive | .errorWarning | .errorPassive | .sleeping => false

structure Mode where
  up : Bool
  state : CanState
  srr : Option (BitVec 32)

/-- What is reported agrees with what was written. -/
structure Mode.Paired (m : Mode) : Prop where
  cen : m.up = true → m.state.onBus = true → m.srr = some xcanSrrCenMask
  reset : m.up = false ∨ m.state.offBus = true → ∀ v ∈ m.srr, v = xcanSrrResetMask

namespace Mode

variable {m : Mode}

theorem paired_of_reset (hsrr : m.srr = some xcanSrrResetMask) :
    m.Paired ↔ (m.up = true → m.state.onBus = false) := by
  refine ⟨fun h hup => ?_, fun h => ⟨fun hup hon => ?_, fun _ v hv => ?_⟩⟩
  · by_contra hon
    have hcen := h.cen hup (by simpa using hon)
    rw [hsrr] at hcen
    exact absurd hcen (by decide)
  · exact absurd hon (by simp [h hup])
  · rw [hsrr] at hv
    exact (Option.some.inj hv).symm

theorem paired_of_cen (hsrr : m.srr = some xcanSrrCenMask) :
    m.Paired ↔ m.up = true ∧ m.state.offBus = false := by
  refine ⟨fun h => ?_, fun h => ⟨fun _ _ => hsrr, fun hoff => ?_⟩⟩
  · have hne : ¬ (m.up = false ∨ m.state.offBus = true) := fun hoff =>
      absurd (h.reset hoff xcanSrrCenMask hsrr) (by decide)
    exact ⟨by simpa using fun hup => hne (Or.inl hup),
      by simpa using fun hoff => hne (Or.inr hoff)⟩
  · rcases hoff with hup | hoff
    · exact absurd (hup.symm.trans h.1) (by simp)
    · exact absurd (hoff.symm.trans h.2) (by simp)

/-- Only what is written to SRR, and the states that promise something about it, count. -/
theorem Paired.of_state (h : m.Paired) {st : CanState} (hon : st.onBus = false)
    (hoff : st.offBus = false) : Paired { m with state := st } := by
  refine ⟨fun _ hst => absurd (hst.symm.trans hon) (by simp), fun hdown => ?_⟩
  rcases hdown with hup | hst
  · exact h.reset (Or.inl hup)
  · exact absurd (hst.symm.trans hoff) (by simp)

end Mode

/-! ### What the operations make of the mode -/

/-- Configuration mode is reached, and still there when the bit timing is set: CEN will
be written. -/
def ChipReads.configures (e : ChipReads) : Bool :=
  Dev.waitFor e.config xcanSrConfigMask && test e.bittiming xcanSrConfigMask

/-- The core is in the mode asked for before the time is up. -/
def ChipReads.enters (e : ChipReads) (loopback : Bool) : Bool :=
  Dev.waitFor e.mode (if loopback then xcanSrLbackMask else xcanSrNormalMask)

/-- `xcan_open` gets as far as `xcan_chip_start`. -/
def OpenResults.readies (e : OpenResults) : Bool :=
  e.requestIrq && e.enableCanClk && e.enableBusClk && Dev.waitFor e.config xcanSrConfigMask &&
    e.openCandev

/-- There is an error status to report, and an interrupt to report it in. -/
def IrqReads.reportsError (e : IrqReads) : Bool :=
  test e.isr Dev.errCauses && (Dev.errPassive e.sr || test e.sr xcanSrErrwrnMask)

namespace Dev

variable {s : Dev}

def mode (s : Dev) : Mode where
  up := s.up
  state := s.canState
  srr := s.written .srr

theorem mode_writeReg_srr (v : BitVec 32) :
    (s.writeReg .srr v).mode = { s.mode with srr := some v } := by
  simp [mode, writeReg]

theorem mode_writeReg {reg : XcanReg} (hreg : reg ≠ .srr) (v : BitVec 32) :
    (s.writeReg reg v).mode = s.mode := by
  simp [mode, writeReg, hreg.symm]

/-- `xcan_chip_start` fails with RESET written, fails with CEN written or succeeds. -/
theorem xcanChipStart_cases (e : ChipReads) :
    (e.configures = false ∧ (s.xcanChipStart e).2 = false ∧
      (s.xcanChipStart e).1.mode = { s.mode with srr := some xcanSrrResetMask }) ∨
    (e.configures = true ∧ e.enters s.loopback = false ∧ (s.xcanChipStart e).2 = false ∧
      (s.xcanChipStart e).1.mode = { s.mode with srr := some xcanSrrCenMask }) ∨
    (e.configures = true ∧ e.enters s.loopback = true ∧ (s.xcanChipStart e).2 = true ∧
      (s.xcanChipStart e).1.mode =
        { s.mode with state := .errorActive, srr := some xcanSrrCenMask }) := by
  have hreset : (s.setResetMode e.config).1.mode =
      { s.mode with srr := some xcanSrrResetMask } := mode_writeReg_srr xcanSrrResetMask
  cases hconfig : waitFor e.config xcanSrConfigMask with
  | false =>
      refine Or.inl ⟨by simp [ChipReads.configures, hconfig], ?_, ?_⟩
      · simp [xcanChipStart, setResetMode, hconfig]
      · simpa [xcanChipStart, setResetMode, hconfig] using hreset
  | true =>
      cases hbit : test e.bittiming xcanSrConfigMask with
      | false =>
          refine Or.inl ⟨by simp [ChipReads.configures, hbit], ?_, ?_⟩
          · simp [xcanChipStart, setResetMode, xcanSetBittiming, hconfig, hbit]
          · simpa [xcanChipStart, setResetMode, xcanSetBittiming, hconfig, hbit] using hreset
      | true =>
          have hconf : e.configures = true := by simp [ChipReads.configures, hconfig, hbit]
          cases henter : e.enters s.loopback with
          | false =>
              refine Or.inr (Or.inl ⟨hconf, rfl, ?_, ?_⟩) <;> rw [ChipReads.enters] at henter
              · simp [xcanChipStart, setResetMode, xcanSetBittiming, hconfig, hbit, writeReg,
                  henter]
              · simp [xcanChipStart, setResetMode, xcanSetBittiming, hconfig, hbit, writeReg,
                  henter, mode]
          | true =>
              refine Or.inr (Or.inr ⟨hconf, rfl, ?_, ?_⟩) <;> rw [ChipReads.enters] at henter
              · simp [xcanChipStart, setResetMode, xcanSetBittiming, hconfig, hbit, writeReg,
                  henter]
              · simp [xcanChipStart, setResetMode, xcanSetBittiming, hconfig, hbit, writeReg,
                  henter, mode]

/-- What `xcan_open` has of `xcan_chip_start`. -/
def started (e : OpenResults) (s : Dev) : Dev × Bool :=
  { (s.setResetMode e.config).1 with carrierOff := false }.xcanChipStart e.chip

theorem xcanOpen_of_readies {e : OpenResults} (hready : e.readies = true) :
    s.xcanOpen e =
      if !(s.started e).2 then (s.started e).1 else { (s.started e).1 with up := true } := by
  simp only [OpenResults.readies, Bool.and_eq_true] at hready
  obtain ⟨⟨⟨⟨hirq, hcan⟩, hbus⟩, hconfig⟩, hcandev⟩ := hready
  simp only [xcanOpen, started, setResetMode, hirq, hcan, hbus, hconfig, hcandev,
    Bool.not_true, Bool.false_eq_true, if_false]

/-- An open that fails early may have written RESET already. -/
theorem mode_xcanOpen_of_not_readies {e : OpenResults} (hready : e.readies = false) :
    (s.xcanOpen e).mode = s.mode ∨
      (s.xcanOpen e).mode = { s.mode with srr := some xcanSrrResetMask } := by
  have hreset : (s.setResetMode e.config).1.mode =
      { s.mode with srr := some xcanSrrResetMask } := mode_writeReg_srr xcanSrrResetMask
  cases hirq : e.requestIrq && e.enableCanClk && e.enableBusClk with
  | false =>
      have hopen : s.xcanOpen e = s := by
        simp only [xcanOpen]
        grind
      exact Or.inl (by rw [hopen])
  | true =>
      have hclk := hirq
      simp only [Bool.and_eq_true] at hclk
      cases hconfig : waitFor e.config xcanSrConfigMask with
      | false =>
          refine Or.inr ?_
          simpa [xcanOpen, setResetMode, hclk, hconfig] using hreset
      | true =>
          have hcandev : e.openCandev = false := by
            simpa [OpenResults.readies, hirq, hconfig] using hready
          refine Or.inr ?_
          simpa [xcanOpen, setResetMode, hclk, hconfig, hcandev] using hreset

theorem xcanOpen_cases (e : OpenResults) :
    ((e.readies && e.chip.configures) = false ∧ ((s.xcanOpen e).mode = s.mode ∨
      (s.xcanOpen e).mode = { s.mode with srr := some xcanSrrResetMask })) ∨
    ((e.readies && e.chip.configures) = true ∧ e.chip.enters s.loopback = false ∧
      (s.xcanOpen e).mode = { s.mode with srr := some xcanSrrCenMask }) ∨
    ((e.readies && e.chip.configures) = true ∧ e.chip.enters s.loopback = true ∧
      (s.xcanOpen e).mode =
        { up := true, state := .errorActive, srr := some xcanSrrCenMask }) := by
  cases hready : e.readies with
  | false => exact Or.inl ⟨rfl, mode_xcanOpen_of_not_readies hready⟩
  | true =>
      have hreset : ({ (s.setResetMode e.config).1 with carrierOff := false } : Dev).mode =
          { s.mode with srr := some xcanSrrResetMask } := mode_writeReg_srr xcanSrrResetMask
      rw [xcanOpen_of_readies hready, Bool.true_and]
      rcases xcanChipStart_cases (s := { (s.setResetMode e.config).1 with carrierOff := false })
        e.chip with ⟨hconf, hok, hmode⟩ | ⟨hconf, henter, hok, hmode⟩ |
          ⟨hconf, henter, hok, hmode⟩
      · rw [hreset] at hmode
        refine Or.inl ⟨hconf, Or.inr ?_⟩
        rw [started, hok]
        exact hmode
      · rw [hreset] at hmode
        refine Or.inr (Or.inl ⟨hconf, henter, ?_⟩)
        rw [started, hok]
        exact hmode
      · rw [hreset] at hmode
        refine Or.inr (Or.inr ⟨hconf, henter, ?_⟩)
        rw [started, hok]
        exact congrArg (fun m : Mode => { m with up := true }) hmode

theorem mode_xcanClose (ier : BitVec 32) :
    (s.xcanClose ier).mode =
      { up := false, state := .stopped, srr := some xcanSrrResetMask } := by
  simp [xcanClose, xcanChipStop, mode, writeReg]

theorem mode_xcanDoSetMode (e : ChipReads) :
    (s.xcanDoSetMode e).mode = (s.xcanChipStart e).1.mode := rfl

theorem mode_xcanErrInterrupt (e : IrqReads) :
    (s.xcanErrInterrupt e).mode =
      if test e.isr xcanIxrBsoffMask then
        { s.mode with state := .busOff, srr := some xcanSrrResetMask }
      else
        { s.mode with
          state := if errPassive e.sr then .errorPassive
            else if test e.sr xcanSrErrwrnMask then .errorWarning else s.canState
          srr := if test e.isr xcanIxrRxoflwMask then some xcanSrrResetMask
            else s.written .srr } := by
  have hdeliver (t : Dev) :
      (if e.skb then t.netifRx (errFrame e) else t).mode = t.mode := by
    cases e.skb <;> rfl
  simp only [xcanErrInterrupt, hdeliver]
  cases test e.isr xcanIxrBsoffMask <;> cases errPassive e.sr <;>
    cases test e.sr xcanSrErrwrnMask <;> cases test e.isr xcanIxrRxoflwMask <;>
    simp [mode, writeReg]

theorem test_errCauses (isr : BitVec 32) :
    test isr errCauses = (test isr xcanIxrErrorMask || test isr xcanIxrRxoflwMask ||
      test isr xcanIxrBsoffMask || test isr xcanIxrArblstMask) := by
  simp only [errCauses, test_or]

/-- The state after the sleep and wake-up bits. -/
def woken (isr : BitVec 32) (st : CanState) : CanState :=
  if test isr xcanIxrWkupMask then .errorActive
  else if test isr xcanIxrSlpMask then .sleeping else st

/-- The state after an interrupt that is no bus-off. -/
def announced (e : IrqReads) (st : CanState) : CanState :=
  if e.reportsError then if errPassive e.sr then .errorPassive else .errorWarning
  else woken e.isr st

theorem woken_of_not_test {isr : BitVec 32}
    (h : test isr (xcanIxrSlpMask ||| xcanIxrWkupMask) = false) (st : CanState) :
    woken isr st = st := by
  rw [test_or, Bool.or_eq_false_iff] at h
  simp [woken, h]

theorem mode_xcanStateInterrupt (isr : BitVec 32) :
    (s.xcanStateInterrupt isr).mode = { s.mode with state := woken isr s.canState } := by
  unfold xcanStateInterrupt woken
  cases test isr xcanIxrSlpMask <;> cases test isr xcanIxrWkupMask <;> rfl

theorem mode_ite_writeReg {reg : XcanReg} (hreg : reg ≠ .srr) (c : Bool) (v : BitVec 32) :
    (if c then s.writeReg reg v else s).mode = s.mode := by
  cases c
  · rfl
  · exact mode_writeReg hreg v

/-- What `xcan_interrupt` has done when it comes to the errors. -/
def beforeErrors (e : IrqReads) (s : Dev) : Dev :=
  let s := if test e.isr (xcanIxrSlpMask ||| xcanIxrWkupMask) then
      (s.writeReg .icr (xcanIxrSlpMask ||| xcanIxrWkupMask)).xcanStateInterrupt e.isr
    else s
  if test e.isr xcanIxrTxokMask then s.writeReg .icr xcanIxrTxokMask else s

theorem mode_beforeErrors (e : IrqReads) :
    (s.beforeErrors e).mode = { s.mode with state := woken e.isr s.canState } := by
  rw [beforeErrors, mode_ite_writeReg (by decide)]
  cases hwake : test e.isr (xcanIxrSlpMask ||| xcanIxrWkupMask) with
  | false =>
      rw [woken_of_not_test hwake]
      rfl
  | true =>
      rw [if_pos rfl, mode_xcanStateInterrupt, mode_writeReg (by decide)]
      rfl

theorem mode_xcanInterrupt_eq {e : IrqReads} (hisr : e.isr ≠ 0#32) :
    (s.xcanInterrupt e).mode =
      (if test e.isr errCauses then
        ((s.beforeErrors e).writeReg .icr errCauses).xcanErrInterrupt e
      else s.beforeErrors e).mode := by
  rw [xcanInterrupt, if_neg hisr, mode_ite_writeReg (by decide)]
  rfl

/-- Of the parts of `xcan_interrupt` the one on errors has the last word. -/
theorem mode_xcanInterrupt (e : IrqReads) :
    (s.xcanInterrupt e).mode =
      if test e.isr xcanIxrBsoffMask then
        { s.mode with state := .busOff, srr := some xcanSrrResetMask }
      else
        { s.mode with
          state := announced e s.canState
          srr := if test e.isr xcanIxrRxoflwMask then some xcanSrrResetMask
            else s.written .srr } := by
  by_cases hisr : e.isr = 0#32
  · have hnone (mask : BitVec 32) : test e.isr mask = false := by simp [test, hisr]
    rw [xcanInterrupt, if_pos hisr]
    simp [hnone, announced, IrqReads.reportsError, woken]
    rfl
  · have hbefore := mode_beforeErrors (s := s) e
    have hstate : (s.beforeErrors e).canState = woken e.isr s.canState :=
      congrArg Mode.state hbefore
    have hsrr : (s.beforeErrors e).written .srr = s.written .srr := congrArg Mode.srr hbefore
    rw [mode_xcanInterrupt_eq hisr]
    cases herr : test e.isr errCauses with
    | false =>
        have hcause := herr
        simp only [test_errCauses, Bool.or_eq_false_iff] at hcause
        simp only [hcause, announced, IrqReads.reportsError, herr, Bool.false_and,
          Bool.false_eq_true, if_false]
        exact hbefore
    | true =>
        rw [if_pos rfl, mode_xcanErrInterrupt, mode_writeReg (by decide), hbefore]
        cases hpassive : errPassive e.sr <;> cases hwarn : test e.sr xcanSrErrwrnMask <;>
          simp [announced, IrqReads.reportsError, herr, hpassive, hwarn, writeReg, hstate, hsrr]

/-! ### Where the pairing survives -/

/-- What the operation must not meet for the mode to stay paired. -/
def keepsPairing (s : Dev) : DevOp → Bool
  | .open e => !(e.readies && e.chip.configures) || e.chip.enters s.loopback
  | .close _ | .suspend | .resume _ _ => true
  | .restart e =>
      if e.configures then e.enters s.loopback || !s.canState.offBus else !s.canState.onBus
  | .interrupt e =>
      test e.isr xcanIxrBsoffMask ||
        if test e.isr xcanIxrRxoflwMask then
          !(e.reportsError || test e.isr xcanIxrWkupMask ||
            !test e.isr xcanIxrSlpMask && s.canState.onBus)
        else
          !(e.reportsError || test e.isr xcanIxrWkupMask) ||
            s.written .srr == some xcanSrrCenMask

theorem paired_xcanOpen_iff (h : s.mode.Paired) (hdown : s.up = false) (e : OpenResults) :
    (s.xcanOpen e).mode.Paired ↔ s.keepsPairing (.open e) = true := by
  rcases s.xcanOpen_cases e with ⟨hconf, hmode⟩ | ⟨hconf, henter, hmode⟩ |
    ⟨hconf, henter, hmode⟩
  · have hpaired : (s.xcanOpen e).mode.Paired := by
      rcases hmode with hmode | hmode
      · rw [hmode]
        exact h
      · rw [hmode, Mode.paired_of_reset rfl]
        exact fun hup => absurd (hup.symm.trans hdown) (by simp)
    simp [hpaired, keepsPairing, hconf]
  · rw [hmode, Mode.paired_of_cen rfl]
    simp [keepsPairing, hconf, henter, mode, hdown]
  · rw [hmode, Mode.paired_of_cen rfl]
    simp [keepsPairing, henter, CanState.offBus]

theorem paired_xcanDoSetMode_iff (hup : s.up = true) (e : ChipReads) :
    (s.xcanDoSetMode e).mode.Paired ↔ s.keepsPairing (.restart e) = true := by
  rw [mode_xcanDoSetMode]
  rcases s.xcanChipStart_cases e with ⟨hconf, -, hmode⟩ | ⟨hconf, henter, -, hmode⟩ |
    ⟨hconf, henter, -, hmode⟩
  · rw [hmode, Mode.paired_of_reset rfl]
    simp [keepsPairing, hconf, mode, hup]
  · rw [hmode, Mode.paired_of_cen rfl]
    simp [keepsPairing, hconf, henter, mode, hup]
  · rw [hmode, Mode.paired_of_cen rfl]
    simp [keepsPairing, hconf, henter, mode, hup, CanState.offBus]

/-- An error status or a wake-up is always announced as a state on the bus. -/
theorem announced_onBus {e : IrqReads} (st : CanState)
    (h : (e.reportsError || test e.isr xcanIxrWkupMask) = true) :
    (announced e st).onBus = true ∧ (announced e st).offBus = false := by
  unfold announced woken
  cases herr : e.reportsError with
  | true => cases errPassive e.sr <;> exact ⟨rfl, rfl⟩
  | false =>
      rw [herr, Bool.false_or] at h
      rw [if_neg (by simp), if_pos h]
      exact ⟨rfl, rfl⟩

/-- Without either the interrupt tells at most that the core sleeps. -/
theorem announced_eq {e : IrqReads} (st : CanState)
    (h : (e.reportsError || test e.isr xcanIxrWkupMask) = false) :
    announced e st = .sleeping ∨ announced e st = st := by
  rw [Bool.or_eq_false_iff] at h
  unfold announced woken
  rw [if_neg (by simp [h.1]), if_neg (by simp [h.2])]
  cases test e.isr xcanIxrSlpMask
  · exact Or.inr rfl
  · exact Or.inl rfl

theorem announced_onBus_eq (e : IrqReads) (st : CanState) :
    (announced e st).onBus = (e.reportsError || test e.isr xcanIxrWkupMask ||
      !test e.isr xcanIxrSlpMask && st.onBus) := by
  unfold announced woken
  cases e.reportsError with
  | true => cases errPassive e.sr <;> rfl
  | false => cases test e.isr xcanIxrWkupMask <;> cases test e.isr xcanIxrSlpMask <;> rfl

theorem paired_xcanInterrupt_iff (h : s.mode.Paired) (hup : s.up = true) (e : IrqReads) :
    (s.xcanInterrupt e).mode.Paired ↔ s.keepsPairing (.interrupt e) = true := by
  rw [mode_xcanInterrupt]
  cases hbsoff : test e.isr xcanIxrBsoffMask with
  | true =>
      rw [if_pos rfl, Mode.paired_of_reset rfl]
      simp [keepsPairing, hbsoff, CanState.onBus]
  | false =>
      rw [if_neg (by simp)]
      cases hoflw : test e.isr xcanIxrRxoflwMask with
      | true =>
          have hcond : s.keepsPairing (.interrupt e) = !(announced e s.canState).onBus := by
            rw [announced_onBus_eq]
            simp only [keepsPairing, hbsoff, hoflw]
            rfl
          rw [Mode.paired_of_reset rfl, hcond]
          simp [mode, hup]
      | false =>
          cases hann : e.reportsError || test e.isr xcanIxrWkupMask with
          | false =>
              have hpaired : Mode.Paired { s.mode with state := announced e s.canState } := by
                rcases announced_eq s.canState hann with hst | hst
                · rw [hst]
                  exact h.of_state rfl rfl
                · rw [hst]
                  exact h
              refine iff_of_true hpaired ?_
              simp only [keepsPairing, hbsoff, hoflw, hann]
              rfl
          | true =>
              obtain ⟨hon, hoff⟩ := announced_onBus s.canState hann
              have hcond : s.keepsPairing (.interrupt e) = true ↔
                  s.written .srr = some xcanSrrCenMask := by
                simp [keepsPairing, hbsoff, hoflw, hann]
              rw [hcond]
              refine ⟨fun hpaired => hpaired.cen hup hon, fun hcen => ?_⟩
              exact (Mode.paired_of_cen hcen).mpr ⟨hup, hoff⟩

theorem paired_op_iff (h : s.mode.Paired) {a : DevOp} (hok : s.allows a = true) :
    (s.op a).mode.Paired ↔ s.keepsPairing a = true := by
  cases a with
  | «open» e =>
      simp only [allows, Bool.and_eq_true, Bool.not_eq_true'] at hok
      exact paired_xcanOpen_iff h hok.1 e
  | close ier =>
      refine iff_of_true ?_ rfl
      rw [op, mode_xcanClose, Mode.paired_of_reset rfl]
      simp
  | suspend =>
      refine iff_of_true ?_ rfl
      rw [op_suspend]
      exact h
  | resume bus can =>
      refine iff_of_true ?_ rfl
      rw [op_resume]
      exact h
  | restart e =>
      simp only [allows, Bool.and_eq_true] at hok
      exact paired_xcanDoSetMode_iff hok.1 e
  | interrupt e => exact paired_xcanInterrupt_iff h hok e

end Dev

/-- **The mode stays paired throughout a run exactly when no operation of it meets what
breaks the pairing.** -/
theorem mode_paired_iff {h : List (Dev × DevOp)} {s : Dev} (r : Run devSystem h s) :
    (∀ x, Visits h s x → x.mode.Paired) ↔ ∀ e ∈ h, e.1.keepsPairing e.2 = true := by
  refine r.exact (J := fun x => x.mode.Paired) (P := fun x => x.mode.Paired)
    (G := fun x a => x.keepsPairing a = true) ?_ ?_ (fun _ hx => hx) ?_
  · intro x hx
    obtain ⟨hup, -, hst, hnone⟩ := hx
    refine ⟨fun hup' => absurd (hup'.symm.trans hup) (by simp), fun _ v hv => ?_⟩
    exact absurd hv (by simp [Dev.mode, hnone])
  · intro x a hx hok hgood
    exact (Dev.paired_op_iff hx hok).mpr hgood
  · intro x a hx hok hbad hpaired
    exact hbad ((Dev.paired_op_iff hx hok).mp hpaired)

/-! ### An overflow, and a bus-off -/

/-- A device just probed. -/
def probed : Dev where
  up := false
  suspended := false
  carrierOff := true
  canState := .stopped
  loopback := false
  bittiming := ⟨10, 5, 6, 4, 1⟩
  written := fun _ => none
  stats := ⟨0, 0, 0, 0, 0, 0, 0, 0, 0, 0⟩
  errFrames := []

def startReads : ChipReads :=
  ⟨[xcanSrConfigMask], xcanSrConfigMask, [xcanSrNormalMask]⟩

/-- An interrupt, with nothing in the error registers and the core in normal mode. -/
def irqOf (isr : BitVec 32) : IrqReads :=
  ⟨isr, 0, 0, 0, xcanSrNormalMask, xcanIntrAll, true⟩

def openUp : DevOp := .open ⟨true, true, true, [xcanSrConfigMask], true, startReads⟩

/-- The bus goes off and is restarted before the interface is closed. -/
def busOffAndBack : List DevOp :=
  [openUp, .interrupt (irqOf xcanIxrBsoffMask), .restart startReads, .close xcanIntrAll]

/-- The receive FIFO, with frames in it, overflows. -/
def overflow : List DevOp :=
  [openUp, .interrupt (irqOf (xcanIxrRxoflwMask ||| xcanIxrRxnempMask ||| xcanIxrRxokMask))]

instance (s : Dev) (a : DevOp) : Decidable (devSystem.allowed s a) :=
  inferInstanceAs (Decidable (s.allows a = true))

theorem probed_run (l : List DevOp)
    (hok : ∀ e ∈ devSystem.steps probed l, devSystem.allowed e.1 e.2) :
    Run devSystem (devSystem.steps probed l) (devSystem.runFrom probed l) := by
  have r : Run devSystem [] probed := Run.start ⟨rfl, rfl, rfl, fun _ => rfl⟩
  exact System.run_of_steps _ l r hok

theorem busOffAndBack_paired :
    (∀ e ∈ devSystem.steps probed busOffAndBack, e.1.keepsPairing e.2 = true) ∧
      ∀ x, Visits (devSystem.steps probed busOffAndBack)
        (devSystem.runFrom probed busOffAndBack) x → x.mode.Paired := by
  have hgood : ∀ e ∈ devSystem.steps probed busOffAndBack, e.1.keepsPairing e.2 = true := by
    decide +kernel
  have r := probed_run busOffAndBack (by decide +kernel)
  exact ⟨hgood, (mode_paired_iff r).mpr hgood⟩

/-- The overflow leaves the core in reset, and the interface up and error-active. -/
theorem overflow_not_paired :
    ¬ ∀ h s, Run devSystem h s → ∀ x, Visits h s x → x.mode.Paired := by
  intro hall
  have hpaired := hall _ _ (probed_run overflow (by decide +kernel)) _ (Or.inl rfl)
  have hcen := hpaired.cen (by decide +kernel) (by decide +kernel)
  exact absurd hcen (by decide +kernel)

end CanBench.XilinxCan
