/-
The LCD state machine turn by turn.

A busy state machine stands still until the divider has run out, and then goes on: that is
`stateAt_wholeTurn`, and it needs no more of the inputs than that there is no reset.  A word
on the bus takes four such turns, `driven_word`, and a second word follows a turn later,
`driven_second`.  Before the first word there may be part of a turn, if the request was taken
between two ticks: `request_driven` is where the two ways of taking it meet.
-/
import CanBench.Lib.Runs
import CanBench.Lib.Waveform
import CanBench.Display.IoFsm

namespace CanBench.Display

open Lib

variable {dataWidth lcdIoWidth : Nat}

/-- Runs of the state machine from a reset on, with `clk_en => '1'`; further resets may
follow. -/
def lcdSystem (dataWidth lcdIoWidth lcdBusClkdiv : Nat) :
    System (IoFsm dataWidth lcdIoWidth) (IoFsmIn dataWidth) where
  init := fun s => ∃ s₀ i, i.resetIn = true ∧ s = IoFsm.next lcdBusClkdiv s₀ i
  allowed := fun _ i => i.clkEn = true
  next := IoFsm.next lcdBusClkdiv

namespace IoFsm

variable {lcdBusClkdiv : Nat} {s : IoFsm dataWidth lcdIoWidth} {i : IoFsmIn dataWidth}

/-! ### What holds at every clock -/

/-- The divider is in range, nothing is ever read, and the strobe is down in its two states
only. -/
structure Sound (lcdBusClkdiv : Nat) (s : IoFsm dataWidth lcdIoWidth) : Prop where
  divCnt : s.divCnt < lcdBusClkdiv
  lcdRdN : s.lcdRdN = true
  lcdWrN : s.ioStateR ≠ .isWr1 → s.ioStateR ≠ .isWr2 → s.lcdWrN = true

theorem Sound.idle_lcdWrN (h : s.Sound lcdBusClkdiv) (hs : s.ioStateR = .isIddle) :
    s.lcdWrN = true :=
  h.lcdWrN (by simp [hs]) (by simp [hs])

theorem Sound.latch (h : s.Sound lcdBusClkdiv) (i : IoFsmIn dataWidth) :
    (s.latch i).Sound lcdBusClkdiv := by
  by_cases hs : s.ioStateR = .isIddle
  · have hwr := h.idle_lcdWrN hs
    unfold IoFsm.latch
    split
    · exact ⟨h.divCnt, h.lcdRdN, fun _ _ => hwr⟩
    · exact ⟨h.divCnt, h.lcdRdN, fun _ _ => hwr⟩
  · rw [latch_busy hs]
    exact ⟨h.divCnt, h.lcdRdN, h.lcdWrN⟩

theorem Sound.tick {t : IoFsm dataWidth lcdIoWidth} (h : t.Sound lcdBusClkdiv)
    (i : IoFsmIn dataWidth) : (s.tick i t).Sound lcdBusClkdiv := by
  unfold IoFsm.tick
  split
  · split
    · exact ⟨h.divCnt, rfl, fun _ _ => rfl⟩
    · exact ⟨h.divCnt, rfl, fun _ _ => rfl⟩
  · exact ⟨h.divCnt, rfl, fun _ _ => rfl⟩
  · exact ⟨h.divCnt, h.lcdRdN, fun hwr1 _ => absurd rfl hwr1⟩
  · exact ⟨h.divCnt, h.lcdRdN, fun _ hwr2 => absurd rfl hwr2⟩
  · exact ⟨h.divCnt, h.lcdRdN, fun _ _ => rfl⟩
  · split
    · exact ⟨h.divCnt, h.lcdRdN, fun _ _ => rfl⟩
    · exact ⟨h.divCnt, h.lcdRdN, fun _ _ => rfl⟩

theorem next_reset_sound (hdiv : 1 ≤ lcdBusClkdiv) (hr : i.resetIn = true) :
    (s.next lcdBusClkdiv i).Sound lcdBusClkdiv := by
  rw [IoFsm.next, if_pos hr]
  exact ⟨Nat.sub_lt hdiv Nat.one_pos, rfl, fun _ _ => rfl⟩

theorem Sound.next (hdiv : 1 ≤ lcdBusClkdiv) (h : s.Sound lcdBusClkdiv)
    (hen : i.clkEn = true) : (s.next lcdBusClkdiv i).Sound lcdBusClkdiv := by
  by_cases hr : i.resetIn = true
  · exact next_reset_sound hdiv hr
  · have hi : Clocked i := ⟨by simpa using hr, hen⟩
    have hl := h.latch i
    by_cases hzero : s.divCnt = 0
    · rw [next_tick hi hzero]
      exact Sound.tick (t := { s.latch i with divCnt := lcdBusClkdiv - 1 })
        ⟨Nat.sub_lt hdiv Nat.one_pos, hl.lcdRdN, hl.lcdWrN⟩ i
    · rw [next_wait hi hzero]
      exact ⟨lt_of_le_of_lt (Nat.sub_le ..) h.divCnt, hl.lcdRdN, hl.lcdWrN⟩

theorem Run.sound {h : List (IoFsm dataWidth lcdIoWidth × IoFsmIn dataWidth)}
    (hdiv : 1 ≤ lcdBusClkdiv) (r : Run (lcdSystem dataWidth lcdIoWidth lcdBusClkdiv) h s) :
    s.Sound lcdBusClkdiv := by
  refine r.invariant ?_ fun t i ht hen => ht.next hdiv hen
  intro t hstart
  obtain ⟨s₀, i, hr, rfl⟩ := hstart
  exact next_reset_sound hdiv hr

/-! ### One turn of the divider -/

/-- The same state at another point of the divider's turn. -/
def withDiv (s : IoFsm dataWidth lcdIoWidth) (n : Nat) : IoFsm dataWidth lcdIoWidth :=
  { s with divCnt := n }

/-- A busy state machine waits for the divider, -/
theorem next_withDiv_succ (hbusy : s.ioStateR ≠ .isIddle) (hres : s.lcdResN = true)
    (hi : Clocked i) (n : Nat) : (s.withDiv (n + 1)).next lcdBusClkdiv i = s.withDiv n := by
  have hlatch : (s.withDiv (n + 1)).latch i = s.withDiv (n + 1) :=
    latch_eq_self (s := s.withDiv (n + 1)) hbusy hres i
  rw [next_wait hi (Nat.succ_ne_zero n), hlatch]
  rfl

/-- and goes on when it has run out. -/
theorem next_withDiv_zero (hbusy : s.ioStateR ≠ .isIddle) (hres : s.lcdResN = true)
    (hi : Clocked i) :
    (s.withDiv 0).next lcdBusClkdiv i = s.tick i (s.withDiv (lcdBusClkdiv - 1)) := by
  have hlatch : (s.withDiv 0).latch i = s.withDiv 0 :=
    latch_eq_self (s := s.withDiv 0) hbusy hres i
  rw [next_tick hi rfl, hlatch]
  rfl

section Turn

variable {ins : Nat → IoFsmIn dataWidth} {x : IoFsm dataWidth lcdIoWidth} {k n : Nat}

theorem stateAt_wait (hbusy : x.ioStateR ≠ .isIddle) (hres : x.lcdResN = true)
    (hx : stateAt (next lcdBusClkdiv) s ins k = x.withDiv n) {m : Nat} (hm : m ≤ n)
    (hins : ∀ j, k ≤ j → j < k + m → Clocked (ins j)) :
    stateAt (next lcdBusClkdiv) s ins (k + m) = x.withDiv (n - m) := by
  induction m with
  | zero => exact hx
  | succ m ih =>
      have hprev := ih (by omega) fun j h1 h2 => hins j h1 (by omega)
      have hleft : n - m = n - (m + 1) + 1 := by omega
      show next lcdBusClkdiv (stateAt (next lcdBusClkdiv) s ins (k + m)) (ins (k + m)) = _
      rw [hprev, hleft]
      exact next_withDiv_succ hbusy hres (hins _ (by omega) (by omega)) _

theorem stateAt_turn (hbusy : x.ioStateR ≠ .isIddle) (hres : x.lcdResN = true)
    (hx : stateAt (next lcdBusClkdiv) s ins k = x.withDiv n)
    (hins : ∀ j, k ≤ j → j < k + (n + 1) → Clocked (ins j)) :
    stateAt (next lcdBusClkdiv) s ins (k + (n + 1))
      = x.tick (ins (k + n)) (x.withDiv (lcdBusClkdiv - 1)) := by
  have hend := stateAt_wait hbusy hres hx (Nat.le_refl n) fun j h1 h2 => hins j h1 (by omega)
  rw [Nat.sub_self] at hend
  show next lcdBusClkdiv (stateAt (next lcdBusClkdiv) s ins (k + n)) (ins (k + n)) = _
  rw [hend]
  exact next_withDiv_zero hbusy hres (hins _ (by omega) (by omega))

/-- A whole turn. -/
theorem stateAt_wholeTurn (hdiv : 1 ≤ lcdBusClkdiv) (hbusy : x.ioStateR ≠ .isIddle)
    (hres : x.lcdResN = true)
    (hx : stateAt (next lcdBusClkdiv) s ins k = x.withDiv (lcdBusClkdiv - 1))
    (hins : ∀ j, k ≤ j → j < k + lcdBusClkdiv → Clocked (ins j)) :
    (∀ j, k ≤ j → j < k + lcdBusClkdiv →
      ∃ m, stateAt (next lcdBusClkdiv) s ins j = x.withDiv m) ∧
    stateAt (next lcdBusClkdiv) s ins (k + lcdBusClkdiv)
      = x.tick (ins (k + (lcdBusClkdiv - 1))) (x.withDiv (lcdBusClkdiv - 1)) := by
  constructor
  · intro j h1 h2
    obtain ⟨m, rfl⟩ := Nat.exists_eq_add_of_le h1
    exact ⟨_, stateAt_wait hbusy hres hx (by omega) fun j' h3 h4 => hins j' h3 (by omega)⟩
  · have hturn := stateAt_turn hbusy hres hx fun j h1 h2 => hins j h1 (by omega)
    rw [Nat.sub_add_cancel hdiv] at hturn
    exact hturn

end Turn

/-! ### A word on the bus -/

/-- The state in which a turn begins, with the word `v` on the bus. -/
def driven (lcdIoWidth lcdBusClkdiv : Nat) (v : BitVec dataWidth) (dc dbl : Bool)
    (ioStateR : IoStates) (wrN : Bool) : IoFsm dataWidth lcdIoWidth where
  ioStateR := ioStateR
  trasferRqDblR := dbl
  divCnt := lcdBusClkdiv - 1
  dataOutR := v
  dcOutR := dc
  readyForRq := false
  lcdResN := true
  lcdCsN := false
  lcdWrN := wrN
  lcdRdN := true
  lcdDc := dc
  lcdData := some (lowWord lcdIoWidth v)

/-- What is seen of a busy state machine with a word on the bus. -/
structure Drives (x : IoFsm dataWidth lcdIoWidth) (word : BitVec lcdIoWidth) (dc wrN : Bool) :
    Prop where
  lcdData : x.lcdData = some word
  lcdDc : x.lcdDc = dc
  lcdCsN : x.lcdCsN = false
  lcdWrN : x.lcdWrN = wrN
  lcdRdN : x.lcdRdN = true
  busy : x.ioStateR ≠ .isIddle

/-- What is seen of it in any clock of a transfer: the strobe is low only where `low` allows. -/
structure AtWork (x : IoFsm dataWidth lcdIoWidth) (low : Prop) : Prop where
  lcdWrN : x.lcdWrN = false → low
  lcdRdN : x.lcdRdN = true
  busy : x.ioStateR ≠ .isIddle

theorem AtWork.mono {x : IoFsm dataWidth lcdIoWidth} {low low' : Prop} (h : x.AtWork low)
    (himp : low → low') : x.AtWork low' :=
  ⟨fun hwr => himp (h.lcdWrN hwr), h.lcdRdN, h.busy⟩

theorem Drives.atWork {x : IoFsm dataWidth lcdIoWidth} {word : BitVec lcdIoWidth} {dc wrN : Bool}
    (h : x.Drives word dc wrN) : x.AtWork (wrN = false) :=
  ⟨fun hwr => h.lcdWrN.symm.trans hwr, h.lcdRdN, h.busy⟩

section Word

variable {ins : Nat → IoFsmIn dataWidth} {v : BitVec dataWidth} {dc dbl : Bool} {k : Nat}

/-- A turn of the divider: the pins stand still, and then the state machine goes on. -/
theorem driven_turn {ioStateR : IoStates} {wrN : Bool} (hdiv : 1 ≤ lcdBusClkdiv)
    (hbusy : ioStateR ≠ .isIddle)
    (hx : stateAt (next lcdBusClkdiv) s ins k
      = driven lcdIoWidth lcdBusClkdiv v dc dbl ioStateR wrN)
    (hins : ∀ j, k ≤ j → j < k + lcdBusClkdiv → Clocked (ins j)) :
    (∀ j, k ≤ j → j < k + lcdBusClkdiv →
      (stateAt (next lcdBusClkdiv) s ins j).Drives (lowWord lcdIoWidth v) dc wrN) ∧
    stateAt (next lcdBusClkdiv) s ins (k + lcdBusClkdiv)
      = (driven lcdIoWidth lcdBusClkdiv v dc dbl ioStateR wrN).tick
          (ins (k + (lcdBusClkdiv - 1)))
          (driven lcdIoWidth lcdBusClkdiv v dc dbl ioStateR wrN) := by
  have hstart : stateAt (next lcdBusClkdiv) s ins k
      = (driven lcdIoWidth lcdBusClkdiv v dc dbl ioStateR wrN).withDiv (lcdBusClkdiv - 1) := hx
  obtain ⟨hstill, hend⟩ := stateAt_wholeTurn hdiv hbusy rfl hstart hins
  refine ⟨fun j h1 h2 => ?_, hend⟩
  obtain ⟨m, hm⟩ := hstill j h1 h2
  rw [hm]
  exact ⟨rfl, rfl, rfl, rfl, rfl, hbusy⟩

/-- Four turns: the word before the strobe, the strobe for two, and the word after it. -/
theorem driven_word (hdiv : 1 ≤ lcdBusClkdiv)
    (hx : stateAt (next lcdBusClkdiv) s ins k
      = driven lcdIoWidth lcdBusClkdiv v dc dbl .isWr0 true)
    (hins : ∀ j, k ≤ j → j < k + 4 * lcdBusClkdiv → Clocked (ins j)) :
    (∀ j, k ≤ j → j < k + 4 * lcdBusClkdiv →
      (stateAt (next lcdBusClkdiv) s ins j).Drives (lowWord lcdIoWidth v) dc
        (decide (j < k + lcdBusClkdiv ∨ k + 3 * lcdBusClkdiv ≤ j))) ∧
    stateAt (next lcdBusClkdiv) s ins (k + 4 * lcdBusClkdiv)
      = (driven lcdIoWidth lcdBusClkdiv v dc dbl .isWrfin true).tick
          (ins (k + 3 * lcdBusClkdiv + (lcdBusClkdiv - 1)))
          (driven lcdIoWidth lcdBusClkdiv v dc dbl .isWrfin true) := by
  have h2k : k + lcdBusClkdiv + lcdBusClkdiv = k + 2 * lcdBusClkdiv := by omega
  have h3k : k + 2 * lcdBusClkdiv + lcdBusClkdiv = k + 3 * lcdBusClkdiv := by omega
  have h4k : k + 3 * lcdBusClkdiv + lcdBusClkdiv = k + 4 * lcdBusClkdiv := by omega
  obtain ⟨hbefore, h1⟩ := driven_turn hdiv (by simp) hx fun j h1 h2 => hins j h1 (by omega)
  have hwr1 : stateAt (next lcdBusClkdiv) s ins (k + lcdBusClkdiv)
      = driven lcdIoWidth lcdBusClkdiv v dc dbl .isWr1 false := h1
  obtain ⟨hlow, h2⟩ := driven_turn hdiv (by simp) hwr1
    fun j h1 h2 => hins j (by omega) (by omega)
  rw [h2k] at hlow h2
  have hwr2 : stateAt (next lcdBusClkdiv) s ins (k + 2 * lcdBusClkdiv)
      = driven lcdIoWidth lcdBusClkdiv v dc dbl .isWr2 false := h2
  obtain ⟨hlow', h3⟩ := driven_turn hdiv (by simp) hwr2
    fun j h1 h2 => hins j (by omega) (by omega)
  rw [h3k] at hlow' h3
  have hwrfin : stateAt (next lcdBusClkdiv) s ins (k + 3 * lcdBusClkdiv)
      = driven lcdIoWidth lcdBusClkdiv v dc dbl .isWrfin true := h3
  obtain ⟨hafter, hend⟩ := driven_turn hdiv (by simp) hwrfin
    fun j h1 h2 => hins j (by omega) (by omega)
  rw [h4k] at hafter hend
  refine ⟨fun j h1 h2 => ?_, hend⟩
  by_cases hj1 : j < k + lcdBusClkdiv
  · rw [decide_eq_true (Or.inl hj1)]
    exact hbefore j h1 hj1
  · by_cases hj3 : k + 3 * lcdBusClkdiv ≤ j
    · rw [decide_eq_true (Or.inr hj3)]
      exact hafter j hj3 h2
    · rw [decide_eq_false (by omega)]
      by_cases hj2 : j < k + 2 * lcdBusClkdiv
      · exact hlow j (by omega) hj2
      · exact hlow' j (by omega) (by omega)

end Word

/-! ### From the request to the bus -/

section Request

variable {ins : Nat → IoFsmIn dataWidth}

/-- A request taken between two ticks, waiting for the next. -/
def waiting (s : IoFsm dataWidth lcdIoWidth) (i : IoFsmIn dataWidth) :
    IoFsm dataWidth lcdIoWidth :=
  { s with lcdResN := true, dataOutR := i.dataOut, dcOutR := i.dcOut,
           trasferRqDblR := i.trasferRqDbl, ioStateR := .isWrini }

theorem latch_request (hs : s.ioStateR = .isIddle) (hrq : i.trasferRq = true) :
    s.latch i = s.waiting i := by
  simp [latch, waiting, hs, hrq]

theorem request_held (lcdBusClkdiv : Nat) (hs : s.ioStateR = .isIddle)
    (hrq : (ins 0).trasferRq = true) (hi : Clocked (ins 0)) (hcnt : s.divCnt ≠ 0) :
    stateAt (next lcdBusClkdiv) s ins 1 = (s.waiting (ins 0)).withDiv (s.divCnt - 1) := by
  show s.next lcdBusClkdiv (ins 0) = _
  rw [next_wait hi hcnt, latch_request hs hrq]
  rfl

theorem waiting_busy (s : IoFsm dataWidth lcdIoWidth) (i : IoFsmIn dataWidth) :
    (s.waiting i).ioStateR ≠ .isIddle := by
  show IoStates.isWrini ≠ .isIddle
  simp

/-- A clock after the divider has run out the first word is on the bus. -/
theorem request_driven (lcdBusClkdiv : Nat) (hs : s.ioStateR = .isIddle)
    (hrq : (ins 0).trasferRq = true) (hins : ∀ j < s.divCnt + 1, Clocked (ins j)) :
    stateAt (next lcdBusClkdiv) s ins (s.divCnt + 1)
      = driven lcdIoWidth lcdBusClkdiv (ins 0).dataOut (ins 0).dcOut (ins 0).trasferRqDbl
          .isWr0 true := by
  have h0 : Clocked (ins 0) := hins 0 (Nat.succ_pos _)
  by_cases hcnt : s.divCnt = 0
  · rw [hcnt]
    show s.next lcdBusClkdiv (ins 0) = _
    rw [next_tick h0 hcnt, latch_request hs hrq]
    simp [tick, hs, hrq, waiting, driven]
  · have hheld := request_held lcdBusClkdiv hs hrq h0 hcnt
    have hturn := stateAt_turn (waiting_busy s (ins 0)) rfl hheld fun j _ h2 => hins j (by omega)
    rw [show 1 + (s.divCnt - 1 + 1) = s.divCnt + 1 by omega] at hturn
    exact hturn

/-- Until then the strobe stays up. -/
theorem request_waits (h : s.Sound lcdBusClkdiv) (hs : s.ioStateR = .isIddle)
    (hrq : (ins 0).trasferRq = true) (hins : ∀ j < s.divCnt + 1, Clocked (ins j)) {j : Nat}
    (h0 : 0 < j) (hj : j ≤ s.divCnt) :
    (stateAt (next lcdBusClkdiv) s ins j).AtWork False := by
  have hheld := request_held lcdBusClkdiv hs hrq (hins 0 (by omega)) (by omega)
  obtain ⟨m, rfl⟩ := Nat.exists_eq_add_of_le h0
  rw [stateAt_wait (waiting_busy s (ins 0)) rfl hheld (by omega) fun j _ h2 => hins j (by omega)]
  refine ⟨fun hwr => ?_, h.lcdRdN, waiting_busy s (ins 0)⟩
  exact Bool.false_ne_true (hwr.symm.trans (h.idle_lcdWrN hs))

end Request

/-! ### The second word -/

theorem lowWord_shiftSecondWord (v : BitVec dataWidth) :
    lowWord lcdIoWidth (shiftSecondWord lcdIoWidth v) = v.extractLsb' lcdIoWidth lcdIoWidth := by
  apply BitVec.eq_of_getLsbD_eq
  intro k hk
  rw [lowWord, BitVec.getLsbD_extractLsb', BitVec.getLsbD_extractLsb', Nat.zero_add]
  congr 1
  by_cases hlt : k < dataWidth
  · rw [BitVec.getLsbD_eq_getElem hlt, shiftSecondWord, BitVec.getElem_ofFnLE]
    exact if_pos hk
  · rw [BitVec.getLsbD_of_ge _ _ (by omega), BitVec.getLsbD_of_ge _ _ (by omega)]

/-- The first word stays on the bus for a turn more, and then the second takes its place. -/
theorem driven_second {ins : Nat → IoFsmIn dataWidth} {v : BitVec dataWidth} {dc : Bool}
    {k m : Nat} (hdiv : 1 ≤ lcdBusClkdiv)
    (hx : stateAt (next lcdBusClkdiv) s ins k
      = (driven lcdIoWidth lcdBusClkdiv v dc true .isWrfin true).tick (ins m)
          (driven lcdIoWidth lcdBusClkdiv v dc true .isWrfin true))
    (hins : ∀ j, k ≤ j → j < k + lcdBusClkdiv → Clocked (ins j)) :
    (∀ j, k ≤ j → j < k + lcdBusClkdiv →
      (stateAt (next lcdBusClkdiv) s ins j).Drives (lowWord lcdIoWidth v) dc true) ∧
    stateAt (next lcdBusClkdiv) s ins (k + lcdBusClkdiv)
      = driven lcdIoWidth lcdBusClkdiv (shiftSecondWord lcdIoWidth v) dc false .isWr0 true := by
  have hbusy : IoStates.isWrini ≠ .isIddle := by simp
  have hstart : stateAt (next lcdBusClkdiv) s ins k
      = withDiv { (driven lcdIoWidth lcdBusClkdiv (shiftSecondWord lcdIoWidth v) dc false
          .isWrini true : IoFsm dataWidth lcdIoWidth) with
          lcdData := some (lowWord lcdIoWidth v) } (lcdBusClkdiv - 1) := hx
  obtain ⟨hstill, hend⟩ := stateAt_wholeTurn hdiv hbusy rfl hstart hins
  refine ⟨fun j h1 h2 => ?_, hend⟩
  obtain ⟨m, hm⟩ := hstill j h1 h2
  rw [hm]
  exact ⟨rfl, rfl, rfl, rfl, rfl, hbusy⟩

end IoFsm

end CanBench.Display
