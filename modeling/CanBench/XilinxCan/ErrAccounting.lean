/-
The error counters against the error frames.

`xcan_err_interrupt` counts an error and reports it in an error frame, and it goes on counting
when there is no memory for the frame.  So in every run the counters are ahead of what has been
reported by exactly the frames that were never built, and whoever adds up the error frames
arrives at the counters if and only if no such interrupt found the memory short.

This is so of the errors that have bits of their own in the frame.  It is not so of
`rx_errors` and `tx_errors`: two protocol errors of one interrupt are written into one byte.
-/
import CanBench.XilinxCan.ModePairing

namespace CanBench.XilinxCan

open Lib

/-- The errors counted and reported one by one. -/
inductive ErrKind
  | busOff | errorPassive | errorWarning | arbitrationLost | rxOver | busError
deriving DecidableEq

/-- The counter of an error. -/
def ErrStats.counted (c : ErrStats) : ErrKind → Nat
  | .busOff => c.busOff
  | .errorPassive => c.errorPassive
  | .errorWarning => c.errorWarning
  | .arbitrationLost => c.arbitrationLost
  | .rxOver => c.rxOverErrors
  | .busError => c.busError

/-- The byte for problems of the controller, `data[1]`. -/
def crtlByte : Fin 8 := Fin.castAdd 6 (Fin.last 1)

/-- What an error frame says, by the bits of `linux/can/error.h`. -/
def CanFrame.reports (cf : CanFrame) : ErrKind → Bool
  | .busOff => test cf.canId 0x40
  | .errorPassive => test cf.canId 0x04 && (cf.data crtlByte &&& 0x30#8 != 0#8)
  | .errorWarning => test cf.canId 0x04 && (cf.data crtlByte &&& 0x0c#8 != 0#8)
  | .arbitrationLost => test cf.canId 0x02
  | .rxOver => test cf.canId 0x04 && (cf.data crtlByte &&& 0x01#8 != 0#8)
  | .busError => test cf.canId 0x80

/-- The errors that the registers of an interrupt show. -/
def IrqReads.shows (e : IrqReads) : ErrKind → Bool
  | .busOff => test e.isr xcanIxrBsoffMask
  | .errorPassive => !test e.isr xcanIxrBsoffMask && Dev.errPassive e.sr
  | .errorWarning =>
      !test e.isr xcanIxrBsoffMask && !Dev.errPassive e.sr && test e.sr xcanSrErrwrnMask
  | .arbitrationLost => test e.isr xcanIxrArblstMask
  | .rxOver => test e.isr xcanIxrRxoflwMask
  | .busError => test e.isr xcanIxrErrorMask

/-- The handler gets to `xcan_err_interrupt`. -/
def IrqReads.hasError (e : IrqReads) : Bool := test e.isr Dev.errCauses

namespace Dev

/-! ### One error frame -/

theorem test_comm (a b : BitVec 32) : test a b = test b a := by
  rw [test, BitVec.and_comm, test]

section Report

variable {cond : Bool} {bits mask txerr rxerr : BitVec 32} {j k : Fin 8}
  {v : BitVec 8 → BitVec 8} {cf : CanFrame}

theorem test_report :
    test (report cond bits k v cf).canId mask
      = (test cf.canId mask || cond && test bits mask) := by
  unfold report
  rcases cond with _ | _
  · simp
  · rw [if_pos rfl, test_comm, test_or, test_comm mask, test_comm mask, Bool.true_and]

theorem report_data_self :
    (report cond bits k v cf).data k = if cond then v (cf.data k) else cf.data k := by
  unfold report
  split
  · exact Function.update_self ..
  · rfl

theorem report_data_of_ne (h : j ≠ k) : (report cond bits k v cf).data j = cf.data j := by
  unfold report
  split
  · exact Function.update_of_ne h ..
  · rfl

theorem reportCounters_canId : (reportCounters cond txerr rxerr cf).canId = cf.canId := by
  unfold reportCounters
  split
  · rfl
  · rfl

theorem reportCounters_data (h6 : j ≠ 6) (h7 : j ≠ 7) :
    (reportCounters cond txerr rxerr cf).data j = cf.data j := by
  unfold reportCounters
  split
  · show Function.update _ 7 _ j = _
    rw [Function.update_of_ne h7, Function.update_of_ne h6]
  · rfl

end Report

/-- The bits of the identifier. -/
theorem test_errFrame_canId (e : IrqReads) :
    test (errFrame e).canId 0x40 = e.shows .busOff ∧
      test (errFrame e).canId 0x02 = e.shows .arbitrationLost ∧
      test (errFrame e).canId 0x80 = e.shows .busError ∧
      test (errFrame e).canId 0x04
        = (e.shows .errorPassive || e.shows .errorWarning || e.shows .rxOver) := by
  simp only [errFrame, test_report, reportCounters_canId, IrqReads.shows]
  simp [test]

/-- The byte of the controller's problems: passive, warning and overflow. -/
theorem errFrame_data (e : IrqReads) :
    (((errFrame e).data crtlByte &&& 0x30#8 != 0#8) = e.shows .errorPassive) ∧
      (((errFrame e).data crtlByte &&& 0x0c#8 != 0#8) = e.shows .errorWarning) ∧
      (((errFrame e).data crtlByte &&& 0x01#8 != 0#8) = e.shows .rxOver) := by
  have hne : (1 : Fin 8) ≠ 0 ∧ (1 : Fin 8) ≠ 2 ∧ (1 : Fin 8) ≠ 3 ∧ (1 : Fin 8) ≠ 6 ∧
      (1 : Fin 8) ≠ 7 := by decide
  have hbyte : crtlByte = 1 := rfl
  simp only [hbyte, errFrame, report_data_of_ne hne.1, report_data_of_ne hne.2.1,
    report_data_of_ne hne.2.2.1, report_data_self,
    reportCounters_data hne.2.2.2.1 hne.2.2.2.2, IrqReads.shows]
  generalize test e.isr xcanIxrBsoffMask = bsoff
  generalize test e.isr xcanIxrRxoflwMask = rxoflw
  generalize errPassive e.sr = passive
  generalize test e.sr xcanSrErrwrnMask = warning
  rcases bsoff with _ | _ <;> rcases rxoflw with _ | _ <;> rcases passive with _ | _ <;>
    rcases warning with _ | _ <;> simp <;> split <;> simp

/-- **An error frame says what the registers show**, neither more nor less. -/
theorem reports_errFrame (e : IrqReads) (k : ErrKind) : (errFrame e).reports k = e.shows k := by
  obtain ⟨hbsoff, harblst, herror, hcrtl⟩ := test_errFrame_canId e
  obtain ⟨hpassive, hwarning, hrxoflw⟩ := errFrame_data e
  rcases k with _ | _ | _ | _ | _ | _
  · exact hbsoff
  · rw [CanFrame.reports, hcrtl, hpassive]
    cases e.shows .errorPassive <;> simp
  · rw [CanFrame.reports, hcrtl, hwarning]
    cases e.shows .errorWarning <;> simp
  · exact harblst
  · rw [CanFrame.reports, hcrtl, hrxoflw]
    cases e.shows .rxOver <;> simp
  · exact herror

/-- And the counters go up by that. -/
theorem counted_errStats (e : IrqReads) (c : ErrStats) (k : ErrKind) :
    (errStats e c).counted k = c.counted k + (e.shows k).toNat := by
  rcases k with _ | _ | _ | _ | _ | _ <;> simp only [ErrStats.counted, IrqReads.shows, errStats]
  · simp only [apply_ite ErrStats.busOff, ite_self]
    cases test e.isr xcanIxrBsoffMask <;> simp
  · simp only [apply_ite ErrStats.errorPassive, ite_self]
    cases test e.isr xcanIxrBsoffMask <;> cases errPassive e.sr <;> simp
  · simp only [apply_ite ErrStats.errorWarning, ite_self]
    cases test e.isr xcanIxrBsoffMask <;> cases errPassive e.sr <;>
      cases test e.sr xcanSrErrwrnMask <;> simp
  · simp only [apply_ite ErrStats.arbitrationLost, ite_self]
    cases test e.isr xcanIxrArblstMask <;> simp
  · simp only [apply_ite ErrStats.rxOverErrors, ite_self]
    cases test e.isr xcanIxrRxoflwMask <;> simp
  · simp only [apply_ite ErrStats.busError, ite_self]
    cases test e.isr xcanIxrErrorMask <;> simp

theorem packets_errStats (e : IrqReads) (c : ErrStats) :
    (errStats e c).rxPackets = c.rxPackets ∧ (errStats e c).rxBytes = c.rxBytes := by
  simp only [errStats, apply_ite ErrStats.rxPackets, apply_ite ErrStats.rxBytes, ite_self, and_self]

/-- An error interrupt shows at least one error. -/
theorem shows_of_hasError {e : IrqReads} (h : e.hasError = true) : ∃ k, e.shows k = true := by
  rw [IrqReads.hasError, errCauses, test_or, test_or, test_or] at h
  simp only [Bool.or_eq_true] at h
  rcases h with ((herror | hrxoflw) | hbsoff) | harblst
  · exact ⟨.busError, herror⟩
  · exact ⟨.rxOver, hrxoflw⟩
  · exact ⟨.busOff, hbsoff⟩
  · exact ⟨.arbitrationLost, harblst⟩

theorem errFrame_canDlc (e : IrqReads) : (errFrame e).canDlc = 8#8 := by
  have hreport : ∀ (cond : Bool) (bits : BitVec 32) (k : Fin 8) (v : BitVec 8 → BitVec 8)
      (cf : CanFrame), (report cond bits k v cf).canDlc = cf.canDlc := by
    intro cond bits k v cf
    unfold report
    split
    · rfl
    · rfl
  have hcounters : ∀ (cond : Bool) (txerr rxerr : BitVec 32) (cf : CanFrame),
      (reportCounters cond txerr rxerr cf).canDlc = cf.canDlc := by
    intro cond txerr rxerr cf
    unfold reportCounters
    split
    · rfl
    · rfl
  simp only [errFrame, hreport, hcounters]
  rfl

/-! ### What the operations do to the counters -/

/-- Neither a counter nor an error frame. -/
def KeepsErrors (s t : Dev) : Prop := t.stats = s.stats ∧ t.errFrames = s.errFrames

theorem KeepsErrors.trans {s t u : Dev} (h : KeepsErrors s t) (h' : KeepsErrors t u) :
    KeepsErrors s u :=
  ⟨h'.1.trans h.1, h'.2.trans h.2⟩

variable {s : Dev}

theorem xcanChipStart_keepsErrors (e : ChipReads) (s : Dev) :
    KeepsErrors s (s.xcanChipStart e).1 := by
  rcases hconfig : waitFor e.config xcanSrConfigMask with _ | _
  · simp [xcanChipStart, setResetMode, hconfig, KeepsErrors, writeReg]
  · rcases hbit : test e.bittiming xcanSrConfigMask with _ | _
    · simp [xcanChipStart, setResetMode, xcanSetBittiming, hconfig, hbit, KeepsErrors, writeReg]
    · rcases henter : waitFor e.mode
        (if s.loopback then xcanSrLbackMask else xcanSrNormalMask) with _ | _
      · simp [xcanChipStart, setResetMode, xcanSetBittiming, hconfig, hbit, henter, KeepsErrors,
          writeReg]
      · simp [xcanChipStart, setResetMode, xcanSetBittiming, hconfig, hbit, henter, KeepsErrors,
          writeReg]

theorem xcanOpen_keepsErrors (e : OpenResults) (s : Dev) : KeepsErrors s (s.xcanOpen e) := by
  have hreset : KeepsErrors s (s.setResetMode e.config).1 := ⟨rfl, rfl⟩
  rcases hclk : e.requestIrq && e.enableCanClk && e.enableBusClk with _ | _
  · have hopen : s.xcanOpen e = s := by
      simp only [xcanOpen]
      grind
    rw [hopen]
    exact ⟨rfl, rfl⟩
  · have hclks := hclk
    simp only [Bool.and_eq_true] at hclks
    rcases hconfig : waitFor e.config xcanSrConfigMask with _ | _
    · simpa [xcanOpen, setResetMode, hclks, hconfig] using hreset
    · rcases hcandev : e.openCandev with _ | _
      · simpa [xcanOpen, setResetMode, hclks, hconfig, hcandev] using hreset
      · have hready : e.readies = true := by simp [OpenResults.readies, hclk, hconfig, hcandev]
        have hstart : KeepsErrors s (s.started e).1 :=
          xcanChipStart_keepsErrors e.chip
            { (s.setResetMode e.config).1 with carrierOff := false }
        rw [xcanOpen_of_readies hready]
        split
        · exact hstart
        · exact hstart

/-- An error interrupt counts what it shows, and delivers its frame if it has one. -/
theorem xcanErrInterrupt_errors (e : IrqReads) (s : Dev) :
    (∀ k, (s.xcanErrInterrupt e).stats.counted k = s.stats.counted k + (e.shows k).toNat) ∧
      (s.xcanErrInterrupt e).errFrames
        = s.errFrames ++ (if e.skb then [errFrame e] else []) ∧
      (s.xcanErrInterrupt e).stats.rxPackets = s.stats.rxPackets + e.skb.toNat ∧
      (s.xcanErrInterrupt e).stats.rxBytes = s.stats.rxBytes + 8 * e.skb.toNat := by
  have hstate : ∃ t : Dev, KeepsErrors s t ∧ s.xcanErrInterrupt e
      = if e.skb then { t with stats := errStats e t.stats }.netifRx (errFrame e)
        else { t with stats := errStats e t.stats } := by
    refine ⟨_, ?_, rfl⟩
    split
    · split
      · exact ⟨rfl, rfl⟩
      · split
        · exact ⟨rfl, rfl⟩
        · split
          · exact ⟨rfl, rfl⟩
          · exact ⟨rfl, rfl⟩
    · split
      · exact ⟨rfl, rfl⟩
      · split
        · exact ⟨rfl, rfl⟩
        · split
          · exact ⟨rfl, rfl⟩
          · exact ⟨rfl, rfl⟩
  obtain ⟨t, ⟨hstats, hframes⟩, hexec⟩ := hstate
  obtain ⟨hpackets, hbytes⟩ := packets_errStats e s.stats
  rw [hexec, hstats, hframes.symm]
  rcases e.skb with _ | _
  · exact ⟨fun k => counted_errStats e s.stats k, (List.append_nil _).symm, hpackets, hbytes⟩
  · refine ⟨fun k => ?_, rfl, ?_, ?_⟩
    · rw [← counted_errStats e s.stats k]
      cases k <;> rfl
    · show (errStats e s.stats).rxPackets + 1 = _
      rw [hpackets]
      rfl
    · show (errStats e s.stats).rxBytes + (errFrame e).canDlc.toNat = _
      rw [hbytes, errFrame_canDlc]
      rfl

theorem xcanStateInterrupt_keepsErrors (isr : BitVec 32) (s : Dev) :
    KeepsErrors s (s.xcanStateInterrupt isr) := by
  unfold xcanStateInterrupt
  dsimp only
  split
  · split
    · exact ⟨rfl, rfl⟩
    · exact ⟨rfl, rfl⟩
  · split
    · exact ⟨rfl, rfl⟩
    · exact ⟨rfl, rfl⟩

/-- The interrupt handler does nothing else to them. -/
theorem xcanInterrupt_errors (e : IrqReads) (s : Dev) :
    (e.hasError = false ∧ KeepsErrors s (s.xcanInterrupt e)) ∨
      (e.hasError = true ∧ ∃ t, KeepsErrors s t ∧
        KeepsErrors (t.xcanErrInterrupt e) (s.xcanInterrupt e)) := by
  by_cases hisr : e.isr = 0#32
  · refine Or.inl ⟨by simp [IrqReads.hasError, test, hisr], ?_⟩
    rw [xcanInterrupt, if_pos hisr]
    exact ⟨rfl, rfl⟩
  · -- the state and the TXOK causes come first, the receive causes last
    obtain ⟨w, hw⟩ : ∃ w, w = if test e.isr (xcanIxrSlpMask ||| xcanIxrWkupMask) then
        (s.writeReg .icr (xcanIxrSlpMask ||| xcanIxrWkupMask)).xcanStateInterrupt e.isr
      else s := ⟨_, rfl⟩
    obtain ⟨t, ht⟩ : ∃ t, t = if test e.isr xcanIxrTxokMask then w.writeReg .icr xcanIxrTxokMask
      else w := ⟨_, rfl⟩
    have hexec : ∀ u,
        u = (if test e.isr errCauses then (t.writeReg .icr errCauses).xcanErrInterrupt e else t) →
        s.xcanInterrupt e = if test e.isr (xcanIxrRxnempMask ||| xcanIxrRxokMask) then
          u.writeReg .ier (e.ier &&& ~~~(xcanIxrRxnempMask ||| xcanIxrRxokMask)) else u := by
      intro u hu
      rw [hu, ht, hw, xcanInterrupt, if_neg hisr]
    have hkeeps : KeepsErrors s t := by
      have hstate : KeepsErrors s w := by
        rw [hw]
        split
        · exact xcanStateInterrupt_keepsErrors e.isr
            (s.writeReg .icr (xcanIxrSlpMask ||| xcanIxrWkupMask))
        · exact ⟨rfl, rfl⟩
      refine hstate.trans ?_
      rw [ht]
      split
      · exact ⟨rfl, rfl⟩
      · exact ⟨rfl, rfl⟩
    have hafter : ∀ u, u = (if test e.isr errCauses then
          (t.writeReg .icr errCauses).xcanErrInterrupt e else t) →
        KeepsErrors u (s.xcanInterrupt e) := by
      intro u hu
      rw [hexec u hu]
      split
      · exact ⟨rfl, rfl⟩
      · exact ⟨rfl, rfl⟩
    by_cases herr : test e.isr errCauses = true
    · refine Or.inr ⟨herr, t.writeReg .icr errCauses, hkeeps.trans ⟨rfl, rfl⟩, ?_⟩
      exact hafter _ (if_pos herr).symm
    · refine Or.inl ⟨by simpa [IrqReads.hasError] using herr, hkeeps.trans ?_⟩
      exact hafter _ (if_neg herr).symm

end Dev

/-! ### Along a run -/

/-- An error interrupt for whose frame there is no memory. -/
def errUnreported (e : Dev × DevOp) : Bool :=
  match e.2 with
  | .interrupt reads => reads.hasError && !reads.skb
  | _ => false

/-- One that shows this error. -/
def misses (k : ErrKind) (e : Dev × DevOp) : Bool :=
  match e.2 with
  | .interrupt reads => reads.hasError && !reads.skb && reads.shows k
  | _ => false

/-- The device just probed, with nothing counted yet. -/
def freshSystem : System Dev DevOp :=
  { devSystem with
    init := fun s => devSystem.init s ∧ s.errFrames = [] ∧ s.stats.rxPackets = 0 ∧
      s.stats.rxBytes = 0 ∧ ∀ k, s.stats.counted k = 0 }

/-- The counters, against the frames delivered and those that were not. -/
structure Accounts (h : List (Dev × DevOp)) (s : Dev) : Prop where
  counted : ∀ k, s.stats.counted k
    = s.errFrames.countP (fun cf => cf.reports k) + h.countP (misses k)
  rxPackets : s.stats.rxPackets = s.errFrames.length
  rxBytes : s.stats.rxBytes = 8 * s.errFrames.length

theorem Accounts.of_keepsErrors {h : List (Dev × DevOp)} {s t : Dev} {e : Dev × DevOp}
    (ha : Accounts h s) (hk : s.KeepsErrors t) (hmiss : ∀ k, misses k e = false) :
    Accounts (h ++ [e]) t := by
  obtain ⟨hstats, hframes⟩ := hk
  refine ⟨fun k => ?_, ?_, ?_⟩
  · rw [hstats, hframes, List.countP_append, List.countP_singleton, hmiss k]
    exact ha.counted k
  · rw [hstats, hframes]
    exact ha.rxPackets
  · rw [hstats, hframes]
    exact ha.rxBytes

theorem Accounts.interrupt {h : List (Dev × DevOp)} {s : Dev} (ha : Accounts h s) (reads : IrqReads) :
    Accounts (h ++ [(s, .interrupt reads)]) (s.xcanInterrupt reads) := by
  rcases s.xcanInterrupt_errors reads with ⟨hno, hkeeps⟩ | ⟨herr, t, hkeeps, hafter⟩
  · refine ha.of_keepsErrors hkeeps fun k => ?_
    simp [misses, hno]
  · obtain ⟨hcounted, hframes, hpackets, hbytes⟩ := t.xcanErrInterrupt_errors reads
    obtain ⟨hstats', hframes'⟩ := hafter
    obtain ⟨hstats, herrFrames⟩ := hkeeps
    have hmisses : ∀ k, misses k (s, .interrupt reads) = (!reads.skb && reads.shows k) := by
      intro k
      simp [misses, herr]
    refine ⟨fun k => ?_, ?_, ?_⟩
    · rw [hstats', hframes', hcounted, hframes, hstats, herrFrames, ha.counted k,
        List.countP_append, List.countP_append, List.countP_singleton, hmisses k]
      rcases reads.skb with _ | _
      · cases reads.shows k <;> simp [Nat.add_assoc]
      · simp only [if_true, List.countP_singleton, Dev.reports_errFrame, Bool.not_true,
          Bool.false_and, Bool.false_eq_true, if_false]
        cases reads.shows k <;> simp only [Bool.toNat_true, Bool.toNat_false, if_true] <;> simp
        omega
    · rw [hstats', hframes', hpackets, hframes, hstats, herrFrames, ha.rxPackets]
      cases reads.skb <;> simp
    · rw [hstats', hframes', hbytes, hframes, hstats, herrFrames, ha.rxBytes]
      cases reads.skb <;> simp
      omega

theorem Run.accounts {h : List (Dev × DevOp)} {s : Dev} (r : Run freshSystem h s) : Accounts h s := by
  induction r with
  | @start s hs =>
      obtain ⟨-, hframes, hpackets, hbytes, hcounted⟩ := hs
      refine ⟨fun k => ?_, ?_, ?_⟩
      · rw [hcounted, hframes]
        rfl
      · rw [hpackets, hframes]
        rfl
      · rw [hbytes, hframes]
        rfl
  | @step h s a _ _ ih =>
      show Accounts (h ++ [(s, a)]) (s.op a)
      rcases a with e | ier | _ | ⟨bus, can⟩ | e | reads
      · exact ih.of_keepsErrors (s.xcanOpen_keepsErrors e) fun _ => rfl
      · exact ih.of_keepsErrors ⟨rfl, rfl⟩ fun _ => rfl
      · rw [s.op_suspend]
        exact ih.of_keepsErrors ⟨rfl, rfl⟩ fun _ => rfl
      · rw [s.op_resume bus can]
        exact ih.of_keepsErrors ⟨rfl, rfl⟩ fun _ => rfl
      · exact ih.of_keepsErrors (s.xcanChipStart_keepsErrors e) fun _ => rfl
      · exact ih.interrupt reads

/-- The interface comes up, is passive with an overflow, and goes bus-off. -/
def passiveThenBusOff : List DevOp :=
  [openUp,
    .interrupt ⟨xcanIxrRxoflwMask, 0#32, 0#32, 0x9000#32, xcanSrEstatMask, 0#32, true⟩,
    .interrupt ⟨xcanIxrBsoffMask ||| xcanIxrErrorMask, xcanEsrAckerMask, 0#32, 0#32,
      xcanSrEstatMask, 0#32, true⟩]

end CanBench.XilinxCan
