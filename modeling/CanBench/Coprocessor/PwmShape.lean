/-
The waveform of the PWM generator.

A period begins at a clock that finds the counter at 0 while the generator is enabled: only
there is a direction taken over into `pwm_state`.  Every other clock keeps `pwm_state` or
clears it, so that whatever is written in between, to the period, the value, the direction,
the enable or the counter itself, a period is one pulse in the direction of its beginning.

While nothing of it is written the counter is the number of clocks since, and goes back to 0
after it has been compared with the period at `pwm_per`.
-/
import CanBench.Coprocessor.S00Axi
import CanBench.Lib.Runs
import CanBench.Lib.Waveform

namespace CanBench.Coprocessor

open Lib Axi

namespace S00

/-- The counter is 0 while enabled. -/
def AtZero (s : S00) : Prop := s.pwmOn = true ∧ s.pwmCnt = 0

instance (s : S00) : Decidable s.AtZero := inferInstanceAs (Decidable (_ ∧ _))

/-- `slv_reg1(31 downto 30)`. -/
def direction (s : S00) : BitVec 2 := (s.slvReg 1).extractLsb' 30 2

/-- A byte of `slv_reg2` is written. -/
def writesCnt (s : S00) (i : SlaveIn 5) : Bool :=
  s.axi.slvRegWren i && locAddr s.axi.axiAwaddr == 2 && i.wstrb != 0#4

variable {s : S00} {i : SlaveIn 5}

/-! ### The counter -/

theorem pwmField_lt (v : BitVec 32) : pwmField v < 2 ^ 30 := (v.extractLsb' 0 30).isLt

/-- The assignment to `slv_reg2(PWM_BITS - 1 downto 0)` is read back. -/
theorem pwmField_setSlice (v : BitVec 32) {n : Nat} (hn : n < 2 ^ 30) :
    pwmField (setSlice v (BitVec.ofNat 32 n) 0 30) = n := by
  have hlow : (setSlice v (BitVec.ofNat 32 n) 0 30).extractLsb' 0 30 = BitVec.ofNat 30 n := by
    apply BitVec.eq_of_getLsbD_eq
    intro k hk
    have hk' : k < 32 := by omega
    rw [BitVec.getLsbD_extractLsb', Nat.zero_add, BitVec.getLsbD_eq_getElem hk', setSlice_getElem,
      if_pos (by omega), ← BitVec.getLsbD_eq_getElem hk', BitVec.getLsbD_ofNat,
      BitVec.getLsbD_ofNat]
    simp [hk, hk']
  rw [pwmField, hlow, BitVec.toNat_ofNat, Nat.mod_eq_of_lt hn]

/-- The counter update stays in the range of the counter. -/
theorem nextCnt_lt (s : S00) : s.nextCnt < 2 ^ 30 := by
  have hper : s.pwmPer < 2 ^ 30 := pwmField_lt _
  unfold nextCnt
  split
  · exact Nat.two_pow_pos 30
  · split
    · exact Nat.two_pow_pos 30
    · omega

theorem pwmField_countedReg (s : S00) : pwmField (s.countedReg 2) = s.nextCnt := by
  rw [countedReg, Function.update_self]
  exact pwmField_setSlice _ s.nextCnt_lt

/-- A clock that does not write the counter leaves it to the update. -/
theorem pwmCnt_next (hr : i.aresetn = true) (hw : s.writesCnt i = false) :
    (s.next i).pwmCnt = s.nextCnt := by
  have hreg : s.writtenReg i 2 = s.countedReg 2 := by
    unfold writtenReg
    split
    · by_cases hloc : locAddr s.axi.axiAwaddr = 2
      · have hstrb : i.wstrb = 0#4 := by
          simpa [writesCnt, hloc, *] using hw
        rw [hloc, hstrb, Function.update_self, writeBytes_zero]
      · rw [Function.update_of_ne (Ne.symm hloc)]
    · rfl
  have hnext : (s.next i).slvReg 2 = s.writtenReg i 2 := by simp [next, hr]
  rw [pwmCnt, hnext, hreg, pwmField_countedReg]

/-! ### The state -/

theorem pwmState_reset (hr : i.aresetn = false) : (s.next i).pwmState = 0#2 := by
  simp [next, hr]

theorem slvReg_reset (hr : i.aresetn = false) : (s.next i).slvReg = fun _ => 0#32 := by
  simp [next, hr]

theorem pwmState_next (hr : i.aresetn = true) : (s.next i).pwmState = s.nextPwmState := by
  simp [next, hr]

/-- At the beginning of a period the direction is taken over, or there is no pulse. -/
theorem AtZero.pwmState_next (h0 : s.AtZero) (i : SlaveIn 5) :
    (s.next i).pwmState = s.direction ∨ (s.next i).pwmState = 0#2 := by
  cases hr : i.aresetn with
  | false => exact Or.inr (pwmState_reset hr)
  | true =>
      rw [S00.pwmState_next hr, nextPwmState, h0.1, h0.2]
      by_cases hval : s.pwmVal ≤ 0
      · simp [hval]
      · simp [hval, direction]

/-- In any other clock the state stays or is cleared. -/
theorem pwmState_next_of_not_atZero (h0 : ¬ s.AtZero) (i : SlaveIn 5) :
    (s.next i).pwmState = s.pwmState ∨ (s.next i).pwmState = 0#2 := by
  cases hr : i.aresetn with
  | false => exact Or.inr (pwmState_reset hr)
  | true =>
      rw [pwmState_next hr, nextPwmState]
      by_cases hon : s.pwmOn = true
      · have hcnt : s.pwmCnt ≠ 0 := fun h => h0 ⟨hon, h⟩
        by_cases hval : s.pwmVal ≤ s.pwmCnt
        · simp [hon, hval]
        · simp [hon, hval, hcnt]
      · simp [hon]

/-- The enable is registered, and clears the state. -/
theorem next_of_not_pwmOn (hon : s.pwmOn = false) (i : SlaveIn 5) :
    (s.next i).pwmState = 0#2 ∧ (s.next i).pwmEnabled = false := by
  cases hr : i.aresetn with
  | false => exact ⟨pwmState_reset hr, by simp [next, hr]⟩
  | true => exact ⟨by rw [pwmState_next hr]; simp [nextPwmState, hon], by simp [next, hr, hon]⟩

end S00

/-! ### Stretches of a run -/

/-- `S00_AXI` from a reset on, with anything on the bus. -/
def s00System : System S00 (SlaveIn 5) where
  init := fun s => ∃ (s₀ : S00) (i : SlaveIn 5), i.aresetn = false ∧ s = s₀.next i
  allowed := fun _ _ => True
  next := S00.next

/-- `pwm_state` after a clock. -/
def shown (e : S00 × SlaveIn 5) : BitVec 2 := (e.1.next e.2).pwmState

/-- The clock leaves period and value as they are, and the counter to itself. -/
structure Held (e : S00 × SlaveIn 5) : Prop where
  slvReg0 : (e.1.next e.2).slvReg 0 = e.1.slvReg 0
  slvReg1 : (e.1.next e.2).slvReg 1 = e.1.slvReg 1
  unwritten : e.1.writesCnt e.2 = false

/-- A stretch of a run that begins with a period and goes no further than its end. -/
structure Period (h : List (S00 × SlaveIn 5)) (e : S00 × SlaveIn 5)
    (mid : List (S00 × SlaveIn 5)) : Prop where
  stretch : e :: mid <:+: h
  atZero : e.1.AtZero
  inside : ∀ x ∈ mid, ¬ x.1.AtZero

variable {h : List (S00 × SlaveIn 5)} {s s₀ : S00} {i : SlaveIn 5}

/-- One pulse so far, and the state goes on with its last value. -/
def OnePulse (s₀ : S00) (h : List (S00 × SlaveIn 5)) (s : S00) : Prop :=
  ∃ a b, h.map shown = List.replicate a s₀.direction ++ List.replicate b 0#2 ∧
    (b = 0 → h ≠ [] → s.pwmState = s₀.direction) ∧ (b ≠ 0 → s.pwmState = 0#2)

/-- A further clock keeps the pulse up or ends it. -/
theorem OnePulse.step (p : OnePulse s₀ h s) (h0 : s₀.AtZero) (hstart : h = [] → s = s₀)
    (hmid : h ≠ [] → ¬ s.AtZero) : OnePulse s₀ (h ++ [(s, i)]) (s.next i) := by
  obtain ⟨a, b, hseen, hhigh, hlow⟩ := p
  have hmap : (h ++ [(s, i)]).map shown = h.map shown ++ [(s.next i).pwmState] := by simp [shown]
  have hnext : (b = 0 ∧ (s.next i).pwmState = s₀.direction) ∨ (s.next i).pwmState = 0#2 := by
    by_cases hnil : h = []
    · have hb : b = 0 := by
        have hlen := congrArg List.length hseen
        rw [hnil] at hlen
        simp only [List.map_nil, List.length_nil, List.length_append,
          List.length_replicate] at hlen
        omega
      rw [hstart hnil]
      exact (h0.pwmState_next i).imp_left fun hd => ⟨hb, hd⟩
    · rcases S00.pwmState_next_of_not_atZero (hmid hnil) i with hkeep | hclear
      · by_cases hb : b = 0
        · exact Or.inl ⟨hb, hkeep.trans (hhigh hb hnil)⟩
        · exact Or.inr (hkeep.trans (hlow hb))
      · exact Or.inr hclear
  rcases hnext with ⟨rfl, hd⟩ | hz
  · refine ⟨a + 1, 0, ?_, fun _ _ => hd, fun hne => absurd rfl hne⟩
    rw [hmap, hseen, hd]
    simp [List.replicate_succ']
  · refine ⟨a, b + 1, ?_, fun hb => absurd hb (Nat.succ_ne_zero b), fun _ => hz⟩
    rw [hmap, hseen, hz, List.append_assoc, ← List.replicate_succ']

theorem onePulse_of_run (h0 : s₀.AtZero) (r : Run (s00System.startedIn s₀) h s) :
    (∀ x ∈ h.tail, ¬ x.1.AtZero) → OnePulse s₀ h s := by
  induction r with
  | start _ =>
      intro _
      exact ⟨0, 0, rfl, fun _ hne => absurd rfl hne, fun hne => absurd rfl hne⟩
  | @step h s i r _ ih =>
      intro hmid
      obtain ⟨hprev, hlast⟩ := Run.forall_mem_tail_concat.mp hmid
      refine (ih hprev).step h0 (fun hnil => ?_) hlast
      subst hnil
      exact r.of_nil

/-! ### A period with nothing written -/

/-- Where the counter is after `h.length` clocks of a period. -/
structure Within (s₀ : S00) (h : List (S00 × SlaveIn 5)) (s : S00) : Prop where
  seen : h.map shown = pulse s₀.pwmVal h.length s₀.direction 0#2
  slvReg0 : s.slvReg 0 = s₀.slvReg 0
  slvReg1 : s.slvReg 1 = s₀.slvReg 1
  upTo : h.length ≤ s₀.pwmPer + 1
  pwmCnt : s.pwmCnt = if h.length = s₀.pwmPer + 1 then 0 else h.length
  pwmState : ∀ n, h.length = n + 1 → s.pwmState = if n < s₀.pwmVal then s₀.direction else 0#2

namespace Within

theorem pwmOn (w : Within s₀ h s) : s.pwmOn = s₀.pwmOn := by
  unfold S00.pwmOn
  rw [w.slvReg0]

theorem pwmPer (w : Within s₀ h s) : s.pwmPer = s₀.pwmPer := by
  unfold S00.pwmPer
  rw [w.slvReg0]

theorem pwmVal (w : Within s₀ h s) : s.pwmVal = s₀.pwmVal := by
  unfold S00.pwmVal
  rw [w.slvReg1]

theorem direction (w : Within s₀ h s) : s.direction = s₀.direction := by
  unfold S00.direction
  rw [w.slvReg1]

/-- The counter is back at 0 after `pwm_per + 1` clocks. -/
theorem atZero_iff (w : Within s₀ h s) (h0 : s₀.AtZero) (hne : h ≠ []) :
    s.AtZero ↔ h.length = s₀.pwmPer + 1 := by
  have hpos : 0 < h.length := List.length_pos_of_ne_nil hne
  unfold S00.AtZero
  rw [w.pwmOn, w.pwmCnt, h0.1]
  by_cases hend : h.length = s₀.pwmPer + 1
  · simp [hend]
  · simp [hend, Nat.ne_of_gt hpos]

/-- The state follows the comparison of the counter with the value. -/
theorem nextPwmState (w : Within s₀ h s) (h0 : s₀.AtZero) (hcnt : s.pwmCnt = h.length) :
    s.nextPwmState = if h.length < s₀.pwmVal then s₀.direction else 0#2 := by
  have hon : (!s.pwmOn) = false := by rw [w.pwmOn, h0.1]; rfl
  unfold S00.nextPwmState
  rw [hon, if_neg Bool.false_ne_true, w.pwmVal, hcnt]
  by_cases hval : s₀.pwmVal ≤ h.length
  · rw [if_pos hval, if_neg (Nat.not_lt.mpr hval)]
  · rw [if_neg hval, if_pos (Nat.lt_of_not_le hval)]
    by_cases hzero : h.length = 0
    · rw [if_pos hzero]
      exact w.direction
    · obtain ⟨n, hn⟩ := Nat.exists_eq_succ_of_ne_zero hzero
      rw [if_neg hzero, w.pwmState n hn, if_pos (by omega)]

theorem step (w : Within s₀ h s) (h0 : s₀.AtZero) (hheld : Held (s, i))
    (hmid : h ≠ [] → ¬ s.AtZero) : Within s₀ (h ++ [(s, i)]) (s.next i) := by
  have hlt : h.length ≤ s₀.pwmPer := by
    have hle := w.upTo
    by_cases hnil : h = []
    · simp [hnil]
    · have hnot := hmid hnil
      rw [w.atZero_iff h0 hnil] at hnot
      omega
  have hcnt : s.pwmCnt = h.length := by
    rw [w.pwmCnt, if_neg (by omega)]
  have hlen : (h ++ [(s, i)]).length = h.length + 1 := by simp
  have hreg0 : (s.next i).slvReg 0 = s₀.slvReg 0 := hheld.slvReg0.trans w.slvReg0
  -- a reset would have cleared the enable
  have hr : i.aresetn = true := by
    by_contra hreset
    have hon := h0.1
    unfold S00.pwmOn at hon
    rw [← hreg0, S00.slvReg_reset (by simpa using hreset)] at hon
    simp at hon
  have hshown : (s.next i).pwmState = if h.length < s₀.pwmVal then s₀.direction else 0#2 := by
    rw [S00.pwmState_next hr, w.nextPwmState h0 hcnt]
  refine ⟨?_, hreg0, hheld.slvReg1.trans w.slvReg1, by omega, ?_, ?_⟩
  · rw [hlen, pulse_succ, ← w.seen, ← hshown]
    simp [shown]
  · rw [S00.pwmCnt_next hr hheld.unwritten, S00.nextCnt, w.pwmOn, h0.1, w.pwmPer, hcnt, hlen]
    by_cases hend : s₀.pwmPer ≤ h.length
    · have heq : h.length + 1 = s₀.pwmPer + 1 := by omega
      simp [hend, heq]
    · have hne : h.length ≠ s₀.pwmPer := by omega
      simp [hend, hne]
  · intro n hn
    obtain rfl : h.length = n := by omega
    exact hshown

end Within

theorem within_of_run (h0 : s₀.AtZero) (r : Run (s00System.startedIn s₀) h s) :
    (∀ x ∈ h, Held x) → (∀ x ∈ h.tail, ¬ x.1.AtZero) → Within s₀ h s := by
  induction r with
  | start hs =>
      intro _ _
      obtain rfl : _ = s₀ := hs
      exact ⟨by simp [pulse], rfl, rfl, Nat.zero_le _, h0.2, fun n hn => by simp at hn⟩
  | @step h s i r _ ih =>
      intro hheld hmid
      obtain ⟨hprev, hlast⟩ := Run.forall_mem_tail_concat.mp hmid
      have w := ih (fun x hx => hheld x (List.mem_append.mpr (Or.inl hx))) hprev
      exact w.step h0 (hheld (s, i) (by simp)) hlast

/-! ### The waveform -/

/--
**One pulse a period.**  In every run, with anything written at any time: from a clock that
finds the counter at 0 while enabled to the next such clock, `pwm_state` is the direction of
the first for a while and then 0.  If nothing of it is written meanwhile, the next such clock
comes after exactly `pwm_per + 1` clocks, and the pulse lasts for `pwm_val` of them or for all
if there are fewer.  The counter update stays in the range of the counter, and a clock that
finds the generator disabled clears the state and the enable.
-/
theorem pwm_waveform (r : Run s00System h s) :
    (∀ e mid, Period h e mid →
      ∃ a b, (e :: mid).map shown = List.replicate a e.1.direction ++ List.replicate b 0#2) ∧
    (∀ e mid, Period h e mid → (∀ x ∈ e :: mid, Held x) →
      mid.length ≤ e.1.pwmPer ∧
      (∀ e', e :: mid ++ [e'] <:+: h → (e'.1.AtZero ↔ (e :: mid).length = e.1.pwmPer + 1)) ∧
      ((e :: mid).length = e.1.pwmPer + 1 → (e :: mid).map shown
        = List.replicate (min e.1.pwmVal (e.1.pwmPer + 1)) e.1.direction
          ++ List.replicate (e.1.pwmPer + 1 - e.1.pwmVal) 0#2)) ∧
    (∀ e ∈ h, e.1.nextCnt < 2 ^ 30 ∧ S00.pwmField (e.1.countedReg 2) = e.1.nextCnt) ∧
    (∀ e ∈ h, e.1.pwmOn = false →
      (e.1.next e.2).pwmState = 0#2 ∧ (e.1.next e.2).pwmEnabled = false) := by
  refine ⟨fun e mid p => ?_, fun e mid p hheld => ?_, fun e _ => ?_, fun e _ hon => ?_⟩
  · obtain ⟨s', r'⟩ := r.of_infix p.stretch
    obtain ⟨a, b, hseen, -, -⟩ := onePulse_of_run p.atZero r' p.inside
    exact ⟨a, b, hseen⟩
  · obtain ⟨s', r'⟩ := r.of_infix p.stretch
    have w := within_of_run p.atZero r' hheld p.inside
    refine ⟨Nat.le_of_succ_le_succ w.upTo, fun e' hstretch => ?_, fun hlen => ?_⟩
    · obtain ⟨s'', r''⟩ := r.of_infix hstretch
      exact (within_of_run p.atZero r''.of_concat.1 hheld p.inside).atZero_iff p.atZero
        (List.cons_ne_nil e mid)
    · rw [w.seen, hlen]
      rfl
  · exact ⟨e.1.nextCnt_lt, e.1.pwmField_countedReg⟩
  · exact S00.next_of_not_pwmOn hon e.2

/-- A register write, held until it is accepted. -/
def busWrite (awaddr : BitVec 5) (wdata : BitVec 32) : List (SlaveIn 5) :=
  List.replicate 2
    { aresetn := true, awaddr := awaddr, awvalid := true, wdata := wdata, wstrb := 15#4
      wvalid := true, bready := true, araddr := 0#5, arvalid := false, rready := false }

def busIdle (aresetn : Bool) : SlaveIn 5 :=
  { aresetn := aresetn, awaddr := 0#5, awvalid := false, wdata := 0#32, wstrb := 0#4
    wvalid := false, bready := true, araddr := 0#5, arvalid := false, rready := false }

/-- After a reset. -/
def cleared : S00 :=
  S00.next
    { axi := SlaveRegs.reset, slvReg := fun _ => 0#32, pwmState := 0#2, pwmEnabled := false
      pwmWrAddr := 0#32, pwmWr0 := 0#32, pwmWr1 := 0#32, pwmWr2 := 0#32 }
    (busIdle false)

/-- Value 1 with direction 01, then a period of 3 clocks and the enable. -/
def setUp : List (SlaveIn 5) := busWrite 4#5 0x40000001#32 ++ busWrite 0#5 0x80000002#32

/-- The first clock of a period. -/
def opening : S00 × SlaveIn 5 := (s00System.runFrom cleared setUp, busIdle true)

/-- The two that follow. -/
def following : List (S00 × SlaveIn 5) :=
  s00System.steps (opening.1.next opening.2) (List.replicate 2 (busIdle true))

/-- One clock of the direction in a period of three. -/
theorem pwm_waveform_third :
    (opening :: following).map shown = List.replicate 1 0b01#2 ++ List.replicate 2 0b00#2 := by
  have hstart : s00System.init cleared := ⟨_, busIdle false, rfl, rfl⟩
  have r := s00System.run_of_steps (setUp ++ List.replicate 3 (busIdle true)) (Run.start hstart)
    fun _ _ => trivial
  rw [List.nil_append, System.steps_append] at r
  have p : Period (s00System.steps cleared setUp ++ opening :: following) opening following :=
    ⟨(List.suffix_append _ _).isInfix, by decide +kernel, by decide +kernel⟩
  have hheld : ∀ x ∈ opening :: following, (x.1.next x.2).slvReg 0 = x.1.slvReg 0 ∧
      (x.1.next x.2).slvReg 1 = x.1.slvReg 1 ∧ x.1.writesCnt x.2 = false := by
    decide +kernel
  have hlen : (opening :: following).length = opening.1.pwmPer + 1 := by decide +kernel
  have hshape := ((pwm_waveform r).2.1 opening following p fun x hx =>
    ⟨(hheld x hx).1, (hheld x hx).2.1, (hheld x hx).2.2⟩).2.2 hlen
  have hvalues : min opening.1.pwmVal (opening.1.pwmPer + 1) = 1 ∧
      opening.1.pwmPer + 1 - opening.1.pwmVal = 2 ∧ opening.1.direction = 0b01#2 := by
    decide +kernel
  rw [hvalues.1, hvalues.2.1, hvalues.2.2] at hshape
  exact hshape

end CanBench.Coprocessor
