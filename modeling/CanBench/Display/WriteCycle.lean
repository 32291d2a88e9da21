/-
The waveform of a write on the LCD bus.

A request is taken in `is_iddle` at any value of the divider, and one clock after the divider
has run out its first word is on the bus.  The strobe takes the middle two of the word's four
turns; a second word begins one turn after the first has ended.

The state machine looks at no request until it is idle again; `next_busy` says so, and it is
why what happens on the inputs during a transfer does not matter.
-/
import CanBench.Display.Turns

namespace CanBench.Display

open Lib IoFsm

variable {dataWidth lcdIoWidth : Nat}

/-! ### What the pins show -/

/-- A strobe that falls at clock `t`: it is low for two turns of the divider, and the word
stands from a turn before it to a turn after it. -/
structure Strobe (lcdBusClkdiv : Nat) (x : Nat → IoFsm dataWidth lcdIoWidth) (t : Nat)
    (word : BitVec lcdIoWidth) (dc : Bool) : Prop where
  low : ∀ j, t ≤ j → j < t + 2 * lcdBusClkdiv → (x j).lcdWrN = false
  before : ∀ j, t ≤ j + lcdBusClkdiv → j < t → (x j).lcdWrN = true
  after : ∀ j, t + 2 * lcdBusClkdiv ≤ j → j < t + 3 * lcdBusClkdiv → (x j).lcdWrN = true
  lcdData : ∀ j, t ≤ j + lcdBusClkdiv → j < t + 3 * lcdBusClkdiv → (x j).lcdData = some word
  lcdDc : ∀ j, t ≤ j + lcdBusClkdiv → j < t + 3 * lcdBusClkdiv → (x j).lcdDc = dc
  lcdCsN : ∀ j, t ≤ j + lcdBusClkdiv → j < t + 3 * lcdBusClkdiv → (x j).lcdCsN = false

/-- The clocks from a request taken at `div_cnt = c` to the next idle state. -/
def transferClocks (lcdBusClkdiv c : Nat) (dbl : Bool) : Nat :=
  c + 1 + if dbl then 9 * lcdBusClkdiv else 4 * lcdBusClkdiv

/-- What the pins show of the request `i`, taken at `div_cnt = c`: its strobes and no
others. -/
structure WriteCycle (lcdBusClkdiv c : Nat) (i : IoFsmIn dataWidth)
    (x : Nat → IoFsm dataWidth lcdIoWidth) : Prop where
  first : Strobe lcdBusClkdiv x (c + 1 + lcdBusClkdiv) (i.dataOut.extractLsb' 0 lcdIoWidth) i.dcOut
  second : i.trasferRqDbl = true →
    Strobe lcdBusClkdiv x (c + 1 + 6 * lcdBusClkdiv)
      (i.dataOut.extractLsb' lcdIoWidth lcdIoWidth) i.dcOut
  noOther : ∀ j ≤ transferClocks lcdBusClkdiv c i.trasferRqDbl, (x j).lcdWrN = false →
    (c + 1 + lcdBusClkdiv ≤ j ∧ j < c + 1 + 3 * lcdBusClkdiv) ∨
    (i.trasferRqDbl = true ∧ c + 1 + 6 * lcdBusClkdiv ≤ j ∧ j < c + 1 + 8 * lcdBusClkdiv)
  lcdRdN : ∀ j ≤ transferClocks lcdBusClkdiv c i.trasferRqDbl, (x j).lcdRdN = true
  busy : ∀ j, 0 < j → j < transferClocks lcdBusClkdiv c i.trasferRqDbl →
    (x j).ioStateR ≠ .isIddle
  done : (x (transferClocks lcdBusClkdiv c i.trasferRqDbl)).ioStateR = .isIddle

/-! ### From the turns to the waveform -/

section Cycle

variable {lcdBusClkdiv : Nat} {s : IoFsm dataWidth lcdIoWidth} {ins : Nat → IoFsmIn dataWidth}

theorem strobe_of_drives {x : Nat → IoFsm dataWidth lcdIoWidth} {k : Nat}
    {word : BitVec lcdIoWidth} {dc : Bool}
    (h : ∀ j, k ≤ j → j < k + 4 * lcdBusClkdiv → (x j).Drives word dc
      (decide (j < k + lcdBusClkdiv ∨ k + 3 * lcdBusClkdiv ≤ j))) :
    Strobe lcdBusClkdiv x (k + lcdBusClkdiv) word dc where
  low := by
    intro j h1 h2
    rw [(h j (by omega) (by omega)).lcdWrN, decide_eq_false (by omega)]
  before := by
    intro j h1 h2
    rw [(h j (by omega) (by omega)).lcdWrN, decide_eq_true (by omega)]
  after := by
    intro j h1 h2
    rw [(h j (by omega) (by omega)).lcdWrN, decide_eq_true (by omega)]
  lcdData := fun j h1 h2 => (h j (by omega) (by omega)).lcdData
  lcdDc := fun j h1 h2 => (h j (by omega) (by omega)).lcdDc
  lcdCsN := fun j h1 h2 => (h j (by omega) (by omega)).lcdCsN

/-- The last turn of the last word ends in the idle state, strobe up. -/
theorem driven_done {v : BitVec dataWidth} {dc : Bool} {k m : Nat}
    (hx : stateAt (next lcdBusClkdiv) s ins k
      = (driven lcdIoWidth lcdBusClkdiv v dc false .isWrfin true).tick (ins m)
          (driven lcdIoWidth lcdBusClkdiv v dc false .isWrfin true)) :
    (stateAt (next lcdBusClkdiv) s ins k).ioStateR = .isIddle ∧
    (stateAt (next lcdBusClkdiv) s ins k).lcdWrN = true ∧
    (stateAt (next lcdBusClkdiv) s ins k).lcdRdN = true := by
  rw [hx]
  exact ⟨rfl, rfl, rfl⟩

/-- Between two idle states, strobe up, it is enough to look at the clocks at work. -/
theorem cycle_of_atWork {n : Nat} (h : s.Sound lcdBusClkdiv) (hs : s.ioStateR = .isIddle)
    (hn : transferClocks lcdBusClkdiv s.divCnt (ins 0).trasferRqDbl = n)
    (hfirst : Strobe lcdBusClkdiv (stateAt (next lcdBusClkdiv) s ins)
      (s.divCnt + 1 + lcdBusClkdiv) ((ins 0).dataOut.extractLsb' 0 lcdIoWidth) (ins 0).dcOut)
    (hsecond : (ins 0).trasferRqDbl = true →
      Strobe lcdBusClkdiv (stateAt (next lcdBusClkdiv) s ins)
        (s.divCnt + 1 + 6 * lcdBusClkdiv)
        ((ins 0).dataOut.extractLsb' lcdIoWidth lcdIoWidth) (ins 0).dcOut)
    (hwork : ∀ j, 0 < j → j < n → (stateAt (next lcdBusClkdiv) s ins j).AtWork
      ((s.divCnt + 1 + lcdBusClkdiv ≤ j ∧ j < s.divCnt + 1 + 3 * lcdBusClkdiv) ∨
        ((ins 0).trasferRqDbl = true ∧ s.divCnt + 1 + 6 * lcdBusClkdiv ≤ j ∧
          j < s.divCnt + 1 + 8 * lcdBusClkdiv)))
    (hdone : (stateAt (next lcdBusClkdiv) s ins n).ioStateR = .isIddle ∧
      (stateAt (next lcdBusClkdiv) s ins n).lcdWrN = true ∧
      (stateAt (next lcdBusClkdiv) s ins n).lcdRdN = true) :
    WriteCycle lcdBusClkdiv s.divCnt (ins 0) (stateAt (next lcdBusClkdiv) s ins) := by
  have hends : ∀ j ≤ n, (0 < j ∧ j < n) ∨
      ((stateAt (next lcdBusClkdiv) s ins j).lcdWrN = true ∧
        (stateAt (next lcdBusClkdiv) s ins j).lcdRdN = true) := by
    intro j hj
    by_cases h0 : j = 0
    · rw [h0]
      exact Or.inr ⟨h.idle_lcdWrN hs, h.lcdRdN⟩
    · by_cases hlt : j < n
      · exact Or.inl ⟨by omega, hlt⟩
      · obtain rfl : j = n := by omega
        exact Or.inr hdone.2
  refine ⟨hfirst, hsecond, ?_, ?_, ?_, ?_⟩
  · rw [hn]
    intro j hj hlow
    rcases hends j hj with ⟨h0, hlt⟩ | ⟨hwr, -⟩
    · exact (hwork j h0 hlt).lcdWrN hlow
    · exact absurd (hlow.symm.trans hwr) Bool.false_ne_true
  · rw [hn]
    intro j hj
    rcases hends j hj with ⟨h0, hlt⟩ | ⟨-, hrd⟩
    · exact (hwork j h0 hlt).lcdRdN
    · exact hrd
  · rw [hn]
    exact fun j h0 hlt => (hwork j h0 hlt).busy
  · rw [hn]
    exact hdone.1

/-- A request for one word. -/
theorem single_cycle (hdiv : 1 ≤ lcdBusClkdiv) (h : s.Sound lcdBusClkdiv)
    (hs : s.ioStateR = .isIddle) (hrq : (ins 0).trasferRq = true)
    (hdbl : (ins 0).trasferRqDbl = false)
    (hins : ∀ j < s.divCnt + 1 + 4 * lcdBusClkdiv, Clocked (ins j)) :
    WriteCycle lcdBusClkdiv s.divCnt (ins 0) (stateAt (next lcdBusClkdiv) s ins) := by
  have hfirst : ∀ j < s.divCnt + 1, Clocked (ins j) := fun j hj => hins j (by omega)
  have hdriven := request_driven lcdBusClkdiv hs hrq hfirst
  rw [hdbl] at hdriven
  obtain ⟨hword, hend⟩ := driven_word hdiv hdriven fun j _ h2 => hins j h2
  refine cycle_of_atWork h hs (by rw [hdbl]; rfl) (strobe_of_drives hword) (fun hdbl' => ?_)
    (fun j h0 hj => ?_) (driven_done hend)
  · exact absurd (hdbl.symm.trans hdbl') Bool.false_ne_true
  · by_cases h1 : j ≤ s.divCnt
    · exact (request_waits h hs hrq hfirst h0 h1).mono False.elim
    · refine (hword j (by omega) hj).atWork.mono fun hlow => Or.inl ?_
      have := of_decide_eq_false hlow
      omega

/-- A request for two words. -/
theorem double_cycle (hdiv : 1 ≤ lcdBusClkdiv) (h : s.Sound lcdBusClkdiv)
    (hs : s.ioStateR = .isIddle) (hrq : (ins 0).trasferRq = true)
    (hdbl : (ins 0).trasferRqDbl = true)
    (hins : ∀ j < s.divCnt + 1 + 9 * lcdBusClkdiv, Clocked (ins j)) :
    WriteCycle lcdBusClkdiv s.divCnt (ins 0) (stateAt (next lcdBusClkdiv) s ins) := by
  have hfirst : ∀ j < s.divCnt + 1, Clocked (ins j) := fun j hj => hins j (by omega)
  have hdriven := request_driven lcdBusClkdiv hs hrq hfirst
  rw [hdbl] at hdriven
  obtain ⟨hword, hfin⟩ := driven_word hdiv hdriven fun j _ h2 => hins j (by omega)
  obtain ⟨hbetween, hnext⟩ := driven_second hdiv hfin fun j _ h2 => hins j (by omega)
  have h5 : s.divCnt + 1 + 4 * lcdBusClkdiv + lcdBusClkdiv
      = s.divCnt + 1 + 5 * lcdBusClkdiv := by omega
  rw [h5] at hbetween hnext
  obtain ⟨hword', hend⟩ := driven_word hdiv hnext fun j _ h2 => hins j (by omega)
  rw [lowWord_shiftSecondWord] at hword'
  have h6 : s.divCnt + 1 + 5 * lcdBusClkdiv + lcdBusClkdiv
      = s.divCnt + 1 + 6 * lcdBusClkdiv := by omega
  have h9 : s.divCnt + 1 + 5 * lcdBusClkdiv + 4 * lcdBusClkdiv
      = s.divCnt + 1 + 9 * lcdBusClkdiv := by omega
  have hsecond := strobe_of_drives hword'
  have hdone := driven_done hend
  rw [h6] at hsecond
  rw [h9] at hdone
  refine cycle_of_atWork h hs (by rw [hdbl]; rfl) (strobe_of_drives hword) (fun _ => hsecond)
    (fun j h0 hj => ?_) hdone
  by_cases h1 : j ≤ s.divCnt
  · exact (request_waits h hs hrq hfirst h0 h1).mono False.elim
  · by_cases h2 : j < s.divCnt + 1 + 4 * lcdBusClkdiv
    · refine (hword j (by omega) h2).atWork.mono fun hlow => Or.inl ?_
      have := of_decide_eq_false hlow
      omega
    · by_cases h3 : j < s.divCnt + 1 + 5 * lcdBusClkdiv
      · exact (hbetween j (by omega) h3).atWork.mono fun hlow =>
          absurd hlow.symm Bool.false_ne_true
      · refine (hword' j (by omega) (by omega)).atWork.mono fun hlow => Or.inr ⟨hdbl, ?_⟩
        have := of_decide_eq_false hlow
        omega

theorem request_cycle (hdiv : 1 ≤ lcdBusClkdiv) (h : s.Sound lcdBusClkdiv)
    (hs : s.ioStateR = .isIddle) (hrq : (ins 0).trasferRq = true)
    (hins : ∀ j < transferClocks lcdBusClkdiv s.divCnt (ins 0).trasferRqDbl, Clocked (ins j)) :
    WriteCycle lcdBusClkdiv s.divCnt (ins 0) (stateAt (next lcdBusClkdiv) s ins) := by
  cases hdbl : (ins 0).trasferRqDbl with
  | false =>
      rw [hdbl] at hins
      exact single_cycle hdiv h hs hrq hdbl hins
  | true =>
      rw [hdbl] at hins
      exact double_cycle hdiv h hs hrq hdbl hins

/-- Two runs whose inputs agree on the request agree until the transfer is over. -/
theorem transfer_deaf {ins' : Nat → IoFsmIn dataWidth} {n : Nat} (h0 : ins' 0 = ins 0)
    (hbusy : ∀ j, 0 < j → j < n → (stateAt (next lcdBusClkdiv) s ins j).ioStateR ≠ .isIddle)
    (hins : ∀ j < n, Clocked (ins j)) (hins' : ∀ j < n, Clocked (ins' j)) :
    ∀ j ≤ n, stateAt (next lcdBusClkdiv) s ins' j = stateAt (next lcdBusClkdiv) s ins j := by
  intro j
  induction j with
  | zero => intro _; rfl
  | succ j ih =>
      intro hj
      show next lcdBusClkdiv (stateAt (next lcdBusClkdiv) s ins' j) (ins' j)
        = next lcdBusClkdiv (stateAt (next lcdBusClkdiv) s ins j) (ins j)
      rw [ih (by omega)]
      by_cases hzero : j = 0
      · rw [hzero, h0]
      · exact next_busy (hbusy j (by omega) hj) (hins' j hj) (hins j hj)

/--
**The write waveform.**  For every divider, from any state a run reaches: a request taken in
`is_iddle`, on a tick or off it, shows its one or two strobes and no others, each for two
turns of the divider with its word and `dc` standing a turn before and a turn after; and
nothing on the inputs during the transfer changes any of it.
-/
theorem write_waveform {h : List (IoFsm dataWidth lcdIoWidth × IoFsmIn dataWidth)}
    (hdiv : 1 ≤ lcdBusClkdiv) (r : Run (lcdSystem dataWidth lcdIoWidth lcdBusClkdiv) h s)
    (hs : s.ioStateR = .isIddle) (hrq : (ins 0).trasferRq = true)
    (hins : ∀ j < transferClocks lcdBusClkdiv s.divCnt (ins 0).trasferRqDbl, Clocked (ins j)) :
    WriteCycle lcdBusClkdiv s.divCnt (ins 0) (stateAt (next lcdBusClkdiv) s ins) ∧
    ∀ ins' : Nat → IoFsmIn dataWidth, ins' 0 = ins 0 →
      (∀ j < transferClocks lcdBusClkdiv s.divCnt (ins 0).trasferRqDbl, Clocked (ins' j)) →
      ∀ j ≤ transferClocks lcdBusClkdiv s.divCnt (ins 0).trasferRqDbl,
        stateAt (next lcdBusClkdiv) s ins' j = stateAt (next lcdBusClkdiv) s ins j := by
  have hcycle := request_cycle hdiv (Run.sound hdiv r) hs hrq hins
  exact ⟨hcycle, fun ins' h0 hins' => transfer_deaf h0 hcycle.busy hins hins'⟩

/-- A word of eight bits for a bus of four, asked for between two ticks. -/
def twoNibbles (k : Nat) : IoFsmIn 8 where
  resetIn := false
  clkEn := true
  dataOut := 0xA5
  dcOut := true
  trasferRq := k == 0
  trasferRqDbl := true

/-- The state machine for such a bus, out of reset. -/
def nibbleBus : IoFsm 8 4 := reset 2 (driven 4 2 0#8 false false .isIddle true)

theorem twoNibbles_waveform :
    Strobe 2 (stateAt (next 2) nibbleBus twoNibbles) 4 0x5 true ∧
    Strobe 2 (stateAt (next 2) nibbleBus twoNibbles) 14 0xA true := by
  have r : Run (lcdSystem 8 4 2) [] nibbleBus :=
    Run.start ⟨_, { twoNibbles 0 with resetIn := true }, rfl, rfl⟩
  have hcycle := (write_waveform (Nat.le_succ 1) r rfl rfl
    fun j _ => (⟨rfl, rfl⟩ : Clocked (twoNibbles j))).1
  exact ⟨hcycle.first, hcycle.second rfl⟩

end Cycle

end CanBench.Display
