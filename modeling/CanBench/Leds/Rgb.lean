/-
The brightness of the RGB LEDs.

The pulse generators count frames: `transfer_ready`, high for one clock after a frame, is
their enable.  The word of the next frame but one is taken before the next such clock, so it
carries what the generators showed at the last one.  `Paced` is that alternation, one word
taken for each frame ended, and with it the pulses of `Pwm/Bank.lean` become a pattern of
lit and dark frames.
-/
import CanBench.Leds.Frames

namespace CanBench.Leds

open Lib Axi Spi Pwm Encoder

/-! ### The place of an RGB signal in the word -/

/-- The bit of the word for RGB signal `k`, and the bit of word 6 that forces it on. -/
def rgbBit (k : Fin 6) : Nat := if k.val < 3 then 44 + k.val else k.val - 3

theorem ledWord_rgb (slvReg : BitVec 4 → BitVec 32) (rgb : Fin 6 → Bool) (k : Fin 6) :
    (ledWord slvReg rgb).getLsbD (rgbBit k)
      = (((slvReg 6).extractLsb' 0 8).getLsbD k.val || rgb k) := by
  have hk := k.isLt
  unfold ledWord rgbBit
  by_cases h3 : k.val < 3
  · rw [if_pos h3]
    simp only [BitVec.getLsbD_append]
    rw [if_neg (by omega), if_neg (by omega), if_neg (by omega), if_neg (by omega),
      if_neg (by omega), if_neg (by omega), if_neg (by omega), if_pos (by omega)]
    have hpos : 44 + k.val - 3 - 4 - 1 - 32 - 1 - 1 - 2 = k.val := by omega
    have hcast : Fin.castAdd 3 (⟨k.val, h3⟩ : Fin 3) = k := rfl
    rw [hpos, BitVec.getLsbD_eq_getElem h3, BitVec.getElem_ofFnLE, hcast]
  · rw [if_neg h3]
    simp only [BitVec.getLsbD_append]
    have hlow : k.val - 3 < 3 := by omega
    have hback : k.val - 3 + 3 = k.val := by omega
    rw [if_pos hlow, BitVec.getLsbD_eq_getElem hlow, BitVec.getElem_ofFnLE]
    have hadd : Fin.addNat (⟨k.val - 3, hlow⟩ : Fin 3) 3 = k := Fin.ext hback
    simp only [hback, hadd]

/-- The byte of word 4 or 5 with the brightness of RGB signal `k`. -/
def rgbField (file : BitVec 4 → BitVec 32) (k : Fin 6) : BitVec 8 :=
  if k.val < 3 then (file 4).extractLsb' (k.val * 8) 8
  else (file 5).extractLsb' ((k.val - 3) * 8) 8

theorem rgbDuty_eq (b : Board) (k : Fin 6) : b.rgbDuty k = rgbField b.s00.slvReg k := by
  have hk := k.isLt
  unfold Board.rgbDuty rgbField Board.outputLedRgb1 Board.outputLedRgb2
  by_cases h3 : k.val < 3
  · rw [if_pos h3, if_pos h3, BitVec.extractLsb'_extractLsb'_of_le (by omega)]
  · rw [if_neg h3, if_neg h3, BitVec.extractLsb'_extractLsb'_of_le (by omega)]

/-! ### One word for each frame -/

/-- `transfer_ready` comes with the divider just reloaded and a word just taken. -/
def Ready (x : WatchedBoard) : Prop :=
  x.enc.spi.transferReady = true → x.enc.spi.divCnt ≠ 0 ∧ x.enc.spi.dataCnt ≠ 0

theorem Ready.next {x : WatchedBoard} (i : BoardIn) : Ready (ledSystem.next x i) := by
  intro hready
  rw [next_spi] at hready ⊢
  rcases Bool.eq_false_or_eq_true i.axi.aresetn with hi | hi
  · obtain ⟨hr, hen⟩ := spiIn_running (x := x) hi
    rcases SpiFsm.next_cases spiClkDiv x.enc.spi hr hen with ⟨-, hs⟩ | ⟨-, -, hs⟩ |
      ⟨-, -, -, hs⟩ | ⟨-, -, -, hs⟩
    · rw [hs] at hready
      exact absurd hready (by simp)
    · rw [hs] at hready
      exact absurd hready (by simp [SpiFsm.rise])
    · rw [hs]
      refine ⟨?_, by simp [SpiFsm.fallIdle, EncBoard.spiIn, spiDataWidth]⟩
      show spiClkDiv - 1 ≠ 0
      decide
    · rw [hs] at hready
      exact absurd hready (by simp [SpiFsm.fallSend])
  · have hreset : (EncBoard.spiIn (x.board.encIn i)).resetIn = true := by
      show (!i.axi.aresetn) = true
      rw [hi]
      rfl
    rw [SpiFsm.next, if_pos hreset] at hready
    exact absurd hready (by simp [SpiFsm.reset])

theorem ready {h : List (WatchedBoard × BoardIn)} {s : WatchedBoard} (r : Run ledSystem h s) :
    Ready s := by
  refine r.invariant ?_ ?_
  · intro x hx hready
    rw [hx.spi] at hready
    exact absurd hready (by simp [SpiFsm.reset])
  · intro x i _ _
    exact Ready.next i

/-- What the enabled clocks of a stretch show of signal `k`. -/
def frameEnds (k : Fin 6) (h : List (WatchedBoard × BoardIn)) : List (Bool × Bool) :=
  observed (fun x : WatchedBoard => x.pwm) (fun x i => x.board.pwmIn i) k h

theorem length_frameEnds_concat (k : Fin 6) (h : List (WatchedBoard × BoardIn))
    (e : WatchedBoard × BoardIn) :
    (frameEnds k (h ++ [e])).length
      = (frameEnds k h).length + e.1.enc.spi.transferReady.toNat := by
  unfold frameEnds
  rw [observed_concat, List.length_append, PwmPair.observe]
  have hen : ((e.1.board.pwmIn e.2).channel k).en = e.1.enc.spi.transferReady := rfl
  rw [hen]
  rcases Bool.eq_false_or_eq_true e.1.enc.spi.transferReady with h | h <;> rw [h] <;> rfl

/-- Since the clock `e₀` that started a period of brightness `d`: the words taken keep step
with the frames ended, and the `m`-th of them carries the `m`-th clock of the pulse. -/
structure Paced (d : Nat) (k : Fin 6) (e₀ : WatchedBoard × BoardIn)
    (l : List (WatchedBoard × BoardIn)) (x : WatchedBoard) : Prop where
  pace : (l.filter takes).length + 1
    = (frameEnds k (e₀ :: l)).length + x.enc.spi.transferReady.toNat
  busy : x.enc.spi.dataCnt = 0 → x.enc.spi.inProgress = true
  ready : Ready x
  lit : ∀ m e, (l.filter takes)[m]? = some e → m < 255 →
    e.1.board.pwmRgbSig e.2 k = decide (0 < d ∧ m ≤ d)

variable {d : Nat} {k : Fin 6} {e₀ : WatchedBoard × BoardIn}
  {l : List (WatchedBoard × BoardIn)} {x : WatchedBoard} {i : BoardIn}

/-- In a clock in which a word is taken the generators repeat what they showed last. -/
theorem pwmRgbSig_of_takes (hx : Ready x) (htakes : takes (x, i) = true) :
    x.enc.spi.transferReady = false ∧ x.board.pwmRgbSig i k = x.pwm.held k := by
  have hdiv : i.axi.aresetn = true ∧ x.enc.spi.divCnt = 0 := by
    simp only [takes, Bool.and_eq_true, decide_eq_true_eq] at htakes
    exact htakes.1.1
  have hready : x.enc.spi.transferReady = false := by
    by_contra hne
    exact (hx (by simpa using hne)).1 hdiv.2
  refine ⟨hready, ?_⟩
  have hr : ((x.board.pwmIn i).channel k).reset = false := by
    show (!i.axi.aresetn) = false
    rw [hdiv.1]
    rfl
  exact PwmPair.qOut_disabled (s := x.pwm.channel k) (i := (x.board.pwmIn i).channel k) hr hready

/-- The word just taken, at the end of those seen. -/
theorem lit_concat (hx : Paced d k e₀ l x)
    (hlast : takes (x, i) = true → (l.filter takes).length < 255 →
      x.board.pwmRgbSig i k = decide (0 < d ∧ (l.filter takes).length ≤ d)) :
    ∀ m e, ((l ++ [(x, i)]).filter takes)[m]? = some e → m < 255 →
      e.1.board.pwmRgbSig e.2 k = decide (0 < d ∧ m ≤ d) := by
  intro m e he hm
  rcases Bool.eq_false_or_eq_true (takes (x, i)) with htakes | hno
  · have hfilter : (l ++ [(x, i)]).filter takes = l.filter takes ++ [(x, i)] := by
      simp [List.filter_append, htakes]
    rw [hfilter] at he
    rcases Nat.lt_trichotomy m (l.filter takes).length with hlt | heq | hgt
    · rw [List.getElem?_append_left hlt] at he
      exact hx.lit m e he hm
    · rw [List.getElem?_append_right (by omega), heq, Nat.sub_self] at he
      obtain rfl : (x, i) = e := by simpa using he
      rw [heq] at hm ⊢
      exact hlast htakes hm
    · rw [List.getElem?_eq_none (by simp; omega)] at he
      exact absurd he (by simp)
  · rw [filter_takes_concat hno] at he
    exact hx.lit m e he hm

theorem Paced.next (hx : Paced d k e₀ l x)
    (hlatched : Latched 255 d (x.pwm.channel k) (frameEnds k (e₀ :: l)))
    (hi : i.axi.aresetn = true) : Paced d k e₀ (l ++ [(x, i)]) (ledSystem.next x i) := by
  obtain ⟨hr, hen⟩ := spiIn_running (x := x) hi
  have hends : (frameEnds k (e₀ :: (l ++ [(x, i)]))).length
      = (frameEnds k (e₀ :: l)).length + x.enc.spi.transferReady.toNat := by
    rw [← List.cons_append]
    exact length_frameEnds_concat k (e₀ :: l) (x, i)
  have hpace := hx.pace
  have hlit : takes (x, i) = true → (l.filter takes).length < 255 →
      x.board.pwmRgbSig i k = decide (0 < d ∧ (l.filter takes).length ≤ d) := by
    intro htakes hm
    obtain ⟨hnot, hsig⟩ := pwmRgbSig_of_takes (k := k) hx.ready htakes
    rw [hnot, Bool.toNat_false, Nat.add_zero] at hpace
    -- the last frame end is the one with the number of this word
    have hlt : (l.filter takes).length < (frameEnds k (e₀ :: l)).length := by omega
    have hlast : (frameEnds k (e₀ :: l)).getLast?
        = (frameEnds k (e₀ :: l))[(l.filter takes).length]? := by
      rw [List.getLast?_eq_getElem?]
      congr 1
      omega
    rw [List.getElem?_eq_getElem hlt] at hlast
    have hheld := hlatched.held _ hlast
    rw [hsig]
    show (x.pwm.channel k).held = _
    rw [hheld]
    exact (hlatched.shown _ _ (List.getElem?_eq_getElem hlt) (by omega)).2 (by omega)
  have hno : x.enc.spi.divCnt = 0 → x.enc.spi.transferReady = false := by
    intro hdiv
    by_contra hne
    exact (hx.ready (by simpa using hne)).1 hdiv
  refine ⟨?_, ?_, Ready.next i, lit_concat hx hlit⟩
  · rw [hends, next_spi]
    rcases SpiFsm.next_cases spiClkDiv x.enc.spi hr hen with ⟨hdiv, hs⟩ | ⟨hdiv, hphase, hs⟩ |
      ⟨hdiv, hphase, hcnt, hs⟩ | ⟨hdiv, hphase, hcnt, hs⟩
    · rw [filter_takes_concat (by simp [takes, hdiv]), hs]
      exact hpace
    · rw [filter_takes_concat (by simp [takes, hphase]), hs]
      exact hpace
    · have htakes : takes (x, i) = true := by simp [takes, hi, hdiv, hphase, hcnt]
      have hfilter : (l ++ [(x, i)]).filter takes = l.filter takes ++ [(x, i)] := by
        simp [List.filter_append, htakes]
      have hready : (x.enc.spi.fallIdle spiClkDiv
          (EncBoard.spiIn (x.board.encIn i))).transferReady = true := hx.busy hcnt
      rw [hfilter, hs, hready, List.length_append, List.length_singleton, hpace]
      rfl
    · rw [filter_takes_concat (by simp [takes, hcnt]), hs]
      exact hpace
  · rw [next_spi]
    rcases SpiFsm.next_cases spiClkDiv x.enc.spi hr hen with ⟨-, hs⟩ | ⟨-, -, hs⟩ |
      ⟨-, -, -, hs⟩ | ⟨-, -, -, hs⟩
    · rw [hs]
      exact hx.busy
    · rw [hs]
      exact hx.busy
    · rw [hs]
      intro hzero
      exact absurd hzero (by simp [SpiFsm.fallIdle, EncBoard.spiIn, spiDataWidth])
    · rw [hs]
      intro _
      rfl

/-! ### Along a run -/

theorem paced {x₀ : WatchedBoard} {i₀ : BoardIn} (hx₀ : Ready x₀)
    (ht : x₀.pwm.trigger (x₀.board.pwmIn i₀) = true) (k : Fin 6)
    (l : List (WatchedBoard × BoardIn)) :
    ∀ {x : WatchedBoard}, Run (ledSystem.startedIn x₀) ((x₀, i₀) :: l) x →
      (∀ e ∈ (x₀, i₀) :: l, e.2.axi.aresetn = true) →
      Paced (x₀.board.rgbDuty k).toNat k (x₀, i₀) l x := by
  have hready₀ : x₀.enc.spi.transferReady = true :=
    (PwmPair.en_of_trigger (s := x₀.pwm.channel k) (i := (x₀.board.pwmIn i₀).channel k) ht).2.1
  induction l using List.reverseRecOn with
  | nil =>
      intro x r hreset
      obtain ⟨-, -, hx⟩ := Run.of_concat (h := []) r
      have hx' : x = ledSystem.next x₀ i₀ := hx
      obtain ⟨hdiv, hcnt⟩ := hx₀ hready₀
      obtain ⟨hr, hen⟩ := spiIn_running (x := x₀) (hreset (x₀, i₀) (by simp))
      have hspi : x.enc.spi
          = { x₀.enc.spi with transferReady := false, divCnt := x₀.enc.spi.divCnt - 1 } := by
        rw [hx', next_spi]
        rcases SpiFsm.next_cases spiClkDiv x₀.enc.spi hr hen with ⟨-, hs⟩ | ⟨hzero, -⟩ |
          ⟨hzero, -⟩ | ⟨hzero, -⟩
        · exact hs
        · exact absurd hzero hdiv
        · exact absurd hzero hdiv
        · exact absurd hzero hdiv
      refine ⟨?_, ?_, ?_, ?_⟩
      · have hone := length_frameEnds_concat k [] (x₀, i₀)
        rw [List.nil_append, hready₀] at hone
        rw [hone, hspi]
        rfl
      · rw [hspi]
        intro hzero
        exact absurd hzero hcnt
      · rw [hx']
        exact Ready.next i₀
      · intro m e he
        exact absurd he (by simp)
  | append_singleton l e ih =>
      intro x r hreset
      rw [← List.cons_append] at r hreset
      obtain ⟨r', -, hx⟩ := r.of_concat
      have hreset' : ∀ e' ∈ (x₀, i₀) :: l, e'.2.axi.aresetn = true :=
        fun e' he' => hreset e' (List.mem_append.mpr (Or.inl he'))
      have hlatched := latched_run (M := ledSystem) (fun x => x.pwm)
        (fun x i => x.board.pwmIn i) (fun _ _ => rfl) ht k l r'
        (fun e' he' => by show (!e'.2.axi.aresetn) = false; rw [hreset' e' he']; rfl)
      rw [show x = ledSystem.next e.1 e.2 from hx]
      exact (ih r' hreset').next hlatched (hreset e (by simp))

/--
**Brightness is a number of frames.**  From a clock on that starts a period of an RGB
signal, until a reset: the frame ends after it start the next period after 255 of them, and
of the words taken in between the `m`-th has the signal's bit set for `m` up to the
brightness `d`, if `d` is not 0, and never else unless word 6 forces it.  The brightness is
the byte the register file held in that first clock, whatever is written in the meantime.
-/
theorem rgb_brightness {h : List (WatchedBoard × BoardIn)} {s : WatchedBoard}
    (r : Run ledSystem h s) {e₀ : WatchedBoard × BoardIn} {l : List (WatchedBoard × BoardIn)}
    (hseg : e₀ :: l <:+: h) (hreset : ∀ e ∈ e₀ :: l, e.2.axi.aresetn = true)
    (ht : e₀.1.pwm.trigger (e₀.1.board.pwmIn e₀.2) = true) (k : Fin 6) {d : Nat}
    (hd : (rgbField e₀.1.watch.served.file k).toNat = d) :
    (∀ m e, (l.filter takes)[m]? = some e → m < 255 →
      (e.1.board.spiTxData e.2).getLsbD (rgbBit k)
        = ((e.1.watch.served.file 6).getLsbD k.val || decide (0 < d ∧ m ≤ d))) ∧
    ∀ m e, ((e₀ :: l).filter fun e => e.1.enc.spi.transferReady)[m]? = some e → m ≤ 255 →
      e.1.pwm.trigger (e.1.board.pwmIn e.2) = decide (m = 0 ∨ m = 255) := by
  obtain ⟨s', r'⟩ := r.of_infix hseg
  have hfile : ∀ e ∈ e₀ :: l, e.1.watch.bank.slvReg = e.1.watch.served.file := by
    intro e he
    obtain ⟨h', r'', -, -⟩ := r.of_mem e (hseg.subset he)
    exact (linked r'').file.file
  have hready₀ : Ready e₀.1 := by
    obtain ⟨h', r'', -, -⟩ := r.of_mem e₀ (hseg.subset (by simp))
    exact ready r''
  have hduty : (e₀.1.board.rgbDuty k).toNat = d := by
    rw [← hd, ← hfile e₀ (by simp), rgbDuty_eq]
    rfl
  have hpaced := paced hready₀ ht k l r' hreset
  have hlatched := latched_run (M := ledSystem) (fun x => x.pwm)
    (fun x i => x.board.pwmIn i) (fun _ _ => rfl) ht k l r'
    (fun e he => by show (!e.2.axi.aresetn) = false; rw [hreset e he]; rfl)
  rw [hduty] at hpaced
  refine ⟨?_, ?_⟩
  · intro m e he hm
    have hmem : e ∈ e₀ :: l :=
      List.mem_cons_of_mem _ (List.mem_of_mem_filter (List.mem_of_getElem? he))
    refine (ledWord_rgb e.1.watch.bank.slvReg (e.1.board.pwmRgbSig e.2) k).trans ?_
    rw [hpaced.lit m e he hm, hfile e hmem, BitVec.getLsbD_extractLsb', Nat.zero_add,
      decide_eq_true (by omega), Bool.true_and]
  · intro m e he hm
    rw [observed_eq_map_filter] at hlatched
    exact (hlatched.shown m (e.1.pwm.trigger (e.1.board.pwmIn e.2), e.1.board.pwmRgbSig e.2 k)
      (by rw [List.getElem?_map]; exact congrArg _ he) hm).1

/-- Brightness 1 for the first signal, up to the clock that starts a period. -/
def oneInputs : List BoardIn :=
  List.replicate 2 (writeWord 0x10#6 1#32 true) ++ List.replicate 988 (writeWord 0 0 false)

/-- The brightness is written again, and two more frames go out. -/
def zeroInputs : List BoardIn :=
  List.replicate 2 (writeWord 0x10#6 0#32 true) ++ List.replicate 978 (writeWord 0 0 false)

def oneStep : WatchedBoard × BoardIn :=
  (ledSystem.runFrom afterReset oneInputs, writeWord 0 0 false)

/-- What follows that clock. -/
def zeroSteps : List (WatchedBoard × BoardIn) :=
  ledSystem.steps (ledSystem.next oneStep.1 oneStep.2) zeroInputs

set_option maxRecDepth 10000 in
theorem rgb_brightness_one :
    ∃ e ∈ zeroSteps, takes e = true ∧ (rgbField e.1.watch.served.file 0).toNat = 0 ∧
      (e.1.board.spiTxData e.2).getLsbD (rgbBit 0) = true := by
  have hrun := ledSystem.run_of_steps (oneInputs ++ oneStep.2 :: zeroInputs)
    (Run.start afterReset_init) (by decide +kernel)
  have hseg : oneStep :: zeroSteps
      <:+: [] ++ ledSystem.steps afterReset (oneInputs ++ oneStep.2 :: zeroInputs) := by
    rw [List.nil_append, System.steps_append]
    exact ⟨ledSystem.steps afterReset oneInputs, [], by simp; rfl⟩
  have hbright := (rgb_brightness hrun hseg (by decide +kernel) (by decide +kernel) 0
    (d := 1) (by decide +kernel)).1
  have hone : 0 < (zeroSteps.filter takes).length := by decide +kernel
  have hfile : ∀ e ∈ zeroSteps.filter takes, (rgbField e.1.watch.served.file 0).toNat = 0 ∧
      (e.1.watch.served.file 6).getLsbD 0 = false := by
    decide +kernel
  have he := List.getElem_mem hone
  obtain ⟨hmem, htakes⟩ := List.mem_filter.mp he
  refine ⟨(zeroSteps.filter takes)[0], hmem, htakes, (hfile _ he).1, ?_⟩
  rw [hbright 0 _ (List.getElem?_eq_getElem hone) (by decide)]
  have hforce := (hfile _ he).2
  simp only [show (0 : Fin 6).val = 0 from rfl, hforce]
  decide

end CanBench.Leds
