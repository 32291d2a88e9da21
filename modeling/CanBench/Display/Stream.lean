/-
What the display reads is what software has written.

The panel reads the bus at each rising edge of `lcd_wr_n`.  A write to register 2 or 3 is a
request for one word or two; between the clock the slave takes it and the edge the panel reads
it at, a word is in one of three places: in the raised request, latched and still to be
strobed, or in the strobe.  `underWay` lists them in order, and each clock keeps

    under way before ++ written now = read now ++ under way after

whatever the divider.  At the board this needs that a raised request finds the state machine
idle.  `Settled` says so as long as every write is answered; and a write that lost its address
to an unready state machine leaves the board `Wedged`, where nothing is written any more.
-/
import CanBench.Lib.Stream
import CanBench.Display.Delivery
import CanBench.Display.Turns

namespace CanBench.Display

open Lib Axi

/-- Words on the bus as the panel reads them: the data pins and the `dc` pin. -/
abbrev BusWord (lcdIoWidth : Nat) := Option (BitVec lcdIoWidth) × Bool

/-- The words of a request. -/
def busWords (lcdIoWidth : Nat) {dataWidth : Nat} (dataOut : BitVec dataWidth) (dc dbl : Bool) :
    List (BusWord lcdIoWidth) :=
  (some (dataOut.extractLsb' 0 lcdIoWidth), dc) ::
    if dbl then [(some (dataOut.extractLsb' lcdIoWidth lcdIoWidth), dc)] else []

/-! ### The state machine -/

namespace IoFsm

variable {dataWidth lcdIoWidth lcdBusClkdiv : Nat} {s : IoFsm dataWidth lcdIoWidth}
  {i : IoFsmIn dataWidth}

/-- Words latched and not yet read. -/
def unread (s : IoFsm dataWidth lcdIoWidth) : List (BusWord lcdIoWidth) :=
  match s.ioStateR with
  | .isIddle => []
  | .isWrfin => (busWords lcdIoWidth s.dataOutR s.dcOutR s.trasferRqDblR).tail
  | _ => busWords lcdIoWidth s.dataOutR s.dcOutR s.trasferRqDblR

/-- Words of the request that this clock takes. -/
def accepts (s : IoFsm dataWidth lcdIoWidth) (i : IoFsmIn dataWidth) : List (BusWord lcdIoWidth) :=
  if i.trasferRq && decide (s.ioStateR = .isIddle) then
    busWords lcdIoWidth i.dataOut i.dcOut i.trasferRqDbl
  else []

/-- What the panel reads between two clocks: the word that stands when the strobe rises. -/
def readAt (s s' : IoFsm dataWidth lcdIoWidth) : List (BusWord lcdIoWidth) :=
  if !s.lcdWrN && s'.lcdWrN then [(s.lcdData, s.lcdDc)] else []

/-- The strobe is down in its two states, with the latched word on the bus. -/
structure Strobing (s : IoFsm dataWidth lcdIoWidth) : Prop where
  lcdWrN : s.lcdWrN = false ↔ s.ioStateR = .isWr1 ∨ s.ioStateR = .isWr2
  word : s.lcdWrN = false → s.lcdData = some (lowWord lcdIoWidth s.dataOutR) ∧
    s.lcdDc = s.dcOutR

theorem Strobing.lcdWrN_up (h : s.Strobing) (h1 : s.ioStateR ≠ .isWr1) (h2 : s.ioStateR ≠ .isWr2) :
    s.lcdWrN = true := by
  by_contra hlow
  rcases h.lcdWrN.mp (by simpa using hlow) with hs | hs
  · exact h1 hs
  · exact h2 hs

theorem strobing_of_up (hup : s.lcdWrN = true) (h1 : s.ioStateR ≠ .isWr1)
    (h2 : s.ioStateR ≠ .isWr2) : s.Strobing := by
  refine ⟨⟨fun hlow => ?_, fun hs => ?_⟩, fun hlow => ?_⟩
  · exact absurd (hlow.symm.trans hup) Bool.false_ne_true
  · rcases hs with hs | hs
    · exact absurd hs h1
    · exact absurd hs h2
  · exact absurd (hlow.symm.trans hup) Bool.false_ne_true

theorem strobing_reset (hr : i.resetIn = true) : (s.next lcdBusClkdiv i).Strobing := by
  rw [next, if_pos hr]
  exact strobing_of_up rfl (by simp [reset]) (by simp [reset])

theorem unread_reset (hr : i.resetIn = true) : (s.next lcdBusClkdiv i).unread = [] := by
  rw [next, if_pos hr]
  rfl

/-- While the strobe stays up, or stays down, nothing is read. -/
theorem readAt_up {s' : IoFsm dataWidth lcdIoWidth} (h : s.lcdWrN = true) : readAt s s' = [] := by
  simp [readAt, h]

theorem readAt_down {s' : IoFsm dataWidth lcdIoWidth} (h : s'.lcdWrN = false) :
    readAt s s' = [] := by
  simp [readAt, h]

theorem accepts_busy (hs : s.ioStateR ≠ .isIddle) : s.accepts i = [] := by
  simp [accepts, hs]

/-! Between two ticks only the latch moves. -/

theorem flow_wait (h : s.Strobing) (hi : Clocked i) (hdiv : s.divCnt ≠ 0) :
    (s.next lcdBusClkdiv i).Strobing ∧
      s.unread ++ s.accepts i
        = readAt s (s.next lcdBusClkdiv i) ++ (s.next lcdBusClkdiv i).unread := by
  rw [next_wait hi hdiv]
  by_cases hs : s.ioStateR = .isIddle
  · have hup : s.lcdWrN = true := h.lcdWrN_up (by simp [hs]) (by simp [hs])
    rw [readAt_up hup]
    by_cases hrq : i.trasferRq = true
    · rw [show s.latch i = waiting s i from latch_request hs hrq]
      refine ⟨strobing_of_up hup (by simp [waiting]) (by simp [waiting]), ?_⟩
      simp [unread, hs, accepts, hrq, waiting]
    · have hlatch : s.latch i = { s with lcdResN := true } := by simp [latch, hrq]
      rw [hlatch]
      refine ⟨strobing_of_up hup (by simp [hs]) (by simp [hs]), ?_⟩
      simp [unread, hs, accepts, hrq]
  · rw [latch_busy hs, accepts_busy hs, List.append_nil]
    refine ⟨⟨h.lcdWrN, h.word⟩, ?_⟩
    simp [readAt, unread]

/-- A tick of the idle state machine takes a request or none. -/
theorem flow_tick_idle (h : s.Strobing) (hi : Clocked i) (hdiv : s.divCnt = 0)
    (hs : s.ioStateR = .isIddle) :
    (s.next lcdBusClkdiv i).Strobing ∧
      s.unread ++ s.accepts i
        = readAt s (s.next lcdBusClkdiv i) ++ (s.next lcdBusClkdiv i).unread := by
  have hup : s.lcdWrN = true := h.lcdWrN_up (by simp [hs]) (by simp [hs])
  rw [next_tick hi hdiv, readAt_up hup]
  by_cases hrq : i.trasferRq = true
  · refine ⟨strobing_of_up ?_ ?_ ?_, ?_⟩
    all_goals simp [tick, latch, hs, hrq, unread, accepts]
  · refine ⟨strobing_of_up ?_ ?_ ?_, ?_⟩
    all_goals simp [tick, latch, hs, hrq, unread, accepts]

/-- The strobe falls and stays: the words wait. -/
theorem flow_tick_strobe (h : s.Strobing) (hi : Clocked i) (hdiv : s.divCnt = 0)
    (hs : s.ioStateR = .isWrini ∨ s.ioStateR = .isWr0 ∨ s.ioStateR = .isWr1) :
    (s.next lcdBusClkdiv i).Strobing ∧
      s.unread ++ s.accepts i
        = readAt s (s.next lcdBusClkdiv i) ++ (s.next lcdBusClkdiv i).unread := by
  have hbusy : s.ioStateR ≠ .isIddle := by rcases hs with hs | hs | hs <;> simp [hs]
  rw [next_tick hi hdiv, latch_busy hbusy, accepts_busy hbusy, List.append_nil]
  rcases hs with hs | hs | hs
  · have hup : s.lcdWrN = true := h.lcdWrN_up (by simp [hs]) (by simp [hs])
    rw [readAt_up hup]
    refine ⟨strobing_of_up ?_ ?_ ?_, ?_⟩
    all_goals simp [tick, hs, unread]
  · have hdown : (s.tick i { s with lcdResN := true, divCnt := lcdBusClkdiv - 1 }).lcdWrN
        = false := by simp [tick, hs]
    rw [readAt_down hdown]
    refine ⟨⟨?_, ?_⟩, ?_⟩
    all_goals simp [tick, hs, unread]
  · have hdown : (s.tick i { s with lcdResN := true, divCnt := lcdBusClkdiv - 1 }).lcdWrN
        = false := by simp [tick, hs]
    rw [readAt_down hdown]
    refine ⟨⟨?_, ?_⟩, ?_⟩
    all_goals simp [tick, hs, unread]

/-- The strobe rises: the panel reads the first word. -/
theorem flow_tick_read (h : s.Strobing) (hi : Clocked i) (hdiv : s.divCnt = 0)
    (hs : s.ioStateR = .isWr2) :
    (s.next lcdBusClkdiv i).Strobing ∧
      s.unread ++ s.accepts i
        = readAt s (s.next lcdBusClkdiv i) ++ (s.next lcdBusClkdiv i).unread := by
  have hbusy : s.ioStateR ≠ .isIddle := by simp [hs]
  have hlow : s.lcdWrN = false := h.lcdWrN.mpr (Or.inr hs)
  obtain ⟨hdata, hdc⟩ := h.word hlow
  rw [next_tick hi hdiv, latch_busy hbusy, accepts_busy hbusy, List.append_nil]
  refine ⟨strobing_of_up ?_ ?_ ?_, ?_⟩
  · simp [tick, hs]
  · simp [tick, hs]
  · simp [tick, hs]
  · simp [tick, hs, unread, readAt, hlow, hdata, hdc, busWords, lowWord]

/-- After it the second word takes the place of the first, or the transfer ends. -/
theorem flow_tick_fin (h : s.Strobing) (hi : Clocked i) (hdiv : s.divCnt = 0)
    (hs : s.ioStateR = .isWrfin) :
    (s.next lcdBusClkdiv i).Strobing ∧
      s.unread ++ s.accepts i
        = readAt s (s.next lcdBusClkdiv i) ++ (s.next lcdBusClkdiv i).unread := by
  have hbusy : s.ioStateR ≠ .isIddle := by simp [hs]
  have hup : s.lcdWrN = true := h.lcdWrN_up (by simp [hs]) (by simp [hs])
  rw [next_tick hi hdiv, latch_busy hbusy, accepts_busy hbusy, List.append_nil, readAt_up hup]
  by_cases hdbl : s.trasferRqDblR = true
  · refine ⟨strobing_of_up ?_ ?_ ?_, ?_⟩
    · simp [tick, hs, hdbl]
    · simp [tick, hs, hdbl]
    · simp [tick, hs, hdbl]
    · have hsecond : (shiftSecondWord lcdIoWidth s.dataOutR).extractLsb' 0 lcdIoWidth
          = s.dataOutR.extractLsb' lcdIoWidth lcdIoWidth := lowWord_shiftSecondWord s.dataOutR
      simp [tick, hs, hdbl, unread, busWords, hsecond]
  · refine ⟨strobing_of_up ?_ ?_ ?_, ?_⟩
    · simp [tick, hs, hdbl]
    · simp [tick, hs, hdbl]
    · simp [tick, hs, hdbl]
    · simp [tick, hs, hdbl, unread, busWords]

/-- **One clock of the state machine loses no word and repeats none**, for every divider. -/
theorem flow_next (h : s.Strobing) (hi : Clocked i) :
    (s.next lcdBusClkdiv i).Strobing ∧
      s.unread ++ s.accepts i
        = readAt s (s.next lcdBusClkdiv i) ++ (s.next lcdBusClkdiv i).unread := by
  by_cases hdiv : s.divCnt = 0
  · cases hs : s.ioStateR with
    | isIddle => exact flow_tick_idle h hi hdiv hs
    | isWrini => exact flow_tick_strobe h hi hdiv (Or.inl hs)
    | isWr0 => exact flow_tick_strobe h hi hdiv (Or.inr (Or.inl hs))
    | isWr1 => exact flow_tick_strobe h hi hdiv (Or.inr (Or.inr hs))
    | isWr2 => exact flow_tick_read h hi hdiv hs
    | isWrfin => exact flow_tick_fin h hi hdiv hs
  · exact flow_wait h hi hdiv

/-! ### How long a transfer takes -/

/-- Clocks until the last latched word is read, without a divider. -/
def clocksLeft (s : IoFsm dataWidth lcdIoWidth) : Nat :=
  let second := if s.trasferRqDblR then 5 else 0
  match s.ioStateR with
  | .isIddle => 0
  | .isWrini => 4 + second
  | .isWr0 => 3 + second
  | .isWr1 => 2 + second
  | .isWr2 => 1 + second
  | .isWrfin => second

theorem clocksLeft_le (s : IoFsm dataWidth lcdIoWidth) : s.clocksLeft ≤ 9 := by
  unfold clocksLeft
  cases s.ioStateR <;> cases s.trasferRqDblR <;> simp

theorem unread_of_clocksLeft (h : s.clocksLeft = 0) : s.unread = [] := by
  unfold clocksLeft at h
  unfold unread
  cases hs : s.ioStateR <;> simp only [hs] at h ⊢
  case isWrfin =>
    by_cases hdbl : s.trasferRqDblR = true
    · simp [hdbl] at h
    · simp [busWords, hdbl]
  all_goals omega

theorem unread_length (s : IoFsm dataWidth lcdIoWidth) : s.unread.length ≤ 2 := by
  have hwords : (busWords lcdIoWidth s.dataOutR s.dcOutR s.trasferRqDblR).length ≤ 2 := by
    cases s.trasferRqDblR <;> simp [busWords]
  unfold unread
  cases s.ioStateR <;> simp only [List.length_nil, List.length_tail] <;> omega

/-- A transfer goes on at every clock. -/
theorem clocksLeft_next (hi : Clocked i) (hdiv : s.divCnt = 0) (hrq : i.trasferRq = false) :
    (s.next 1 i).clocksLeft ≤ s.clocksLeft - 1 := by
  rw [next_tick hi hdiv]
  cases hs : s.ioStateR with
  | isIddle => simp [tick, latch, clocksLeft, hs, hrq]
  | isWrfin =>
      rw [latch_busy (by simp [hs])]
      by_cases hdbl : s.trasferRqDblR = true
      · simp [tick, clocksLeft, hs, hdbl]
      · simp [tick, clocksLeft, hs, hdbl]
  | _ =>
      rw [latch_busy (by simp [hs])]
      simp only [tick, clocksLeft, hs]
      omega

theorem clocksLeft_request (hi : Clocked i) (hdiv : s.divCnt = 0) (hs : s.ioStateR = .isIddle)
    (hrq : i.trasferRq = true) :
    (s.next 1 i).clocksLeft = 3 + if i.trasferRqDbl then 5 else 0 := by
  obtain ⟨hstate, -, -, hdbl⟩ := next_request hi.1 hi.2 hdiv hs hrq
  simp [clocksLeft, hstate, hdbl]

end IoFsm

/-! ### The board -/

namespace Board

variable {b : Board} {i : SlaveIn 6}

/-- A write that the slave takes at this edge. -/
def takesWrite (b : Board) (i : SlaveIn 6) : Bool := b.awHandshake i && b.wHandshake i

/-- The words that software writes at a step: those of a write to register 2 or 3. -/
def wordsWritten (e : Board × SlaveIn 6) : List (BusWord 16) :=
  if e.1.takesWrite e.2 && asksTransfer (S00.locAddr e.2.awaddr) then
    busWords 16 e.2.wdata (S00.locAddr e.2.awaddr == 3#4) (e.2.wstrb.getLsbD 2)
  else []

/-- The words that the panel reads at a step. -/
def wordsRead (e : Board × SlaveIn 6) : List (BusWord 16) :=
  IoFsm.readAt e.1.fsm (e.1.next e.2).fsm

/-- The reset starts the panel anew; what was written before it is not shown any more. -/
def inReset (e : Board × SlaveIn 6) : Bool := !e.2.aresetn

/-- The words of a raised request. -/
def raised (b : Board) : List (BusWord 16) :=
  if b.slave.trasferRq then
    busWords 16 b.slave.dataOut b.slave.dcOut b.slave.trasferRqDbl
  else []

/-- The words written and not yet read. -/
def underWay (b : Board) : List (BusWord 16) := b.fsm.unread ++ b.raised

theorem fsmIn_clocked (hi : i.aresetn = true) : Clocked (b.fsmIn i) := by
  simp [Clocked, fsmIn, hi]

/-- A write whose address was taken alone: nothing is written any more, nothing answered. -/
structure Wedged (b : Board) : Prop where
  undivided : b.fsm.divCnt = 0
  unanswered : b.slave.axi.axiBvalid = false
  unraised : b.slave.trasferRq = false
  stuck : (b.master.aw = .taken ∧ b.slave.axi.axiAwready = false) ∨
    ((∃ a, b.master.aw = .offered a) ∧ b.slave.axi.axiAwready = true ∧
      b.slave.axi.axiWready = false)

namespace Wedged

theorem slvRegWren_eq (h : Wedged b) (i : SlaveIn 6) : b.slave.axi.slvRegWren i = false := by
  rcases h.stuck with ⟨-, hready⟩ | ⟨-, -, hready⟩
  · simp [SlaveRegs.slvRegWren, hready]
  · simp [SlaveRegs.slvRegWren, hready]

theorem takesWrite_eq (h : Wedged b) (i : SlaveIn 6) : b.takesWrite i = false := by
  rcases h.stuck with ⟨-, hready⟩ | ⟨-, -, hready⟩
  · simp [takesWrite, awHandshake, hready]
  · simp [takesWrite, wHandshake, hready]

/-- Only a reset helps. -/
theorem step (h : Wedged b) (hok : b.allows i = true) (hi : i.aresetn = true) :
    Wedged (b.next i) := by
  have hwren := h.slvRegWren_eq i
  refine ⟨?_, ?_, ?_, Or.inl ?_⟩
  · rw [next_fsm, IoFsm.next_undivided (by simp [fsmIn, hi]) rfl h.undivided]
    simp
  · rw [next_axi, SlaveRegs.next_axiBvalid _ _ _ hi, hwren]
    simp [h.unanswered]
  · rw [next_trasferRq hi, hwren, Bool.false_and]
  · rcases h.stuck with ⟨htaken, hready⟩ | ⟨⟨a, hoffer⟩, hready, -⟩
    · have hav : i.awvalid = false := Settled.taken_silent hok hi htaken
      constructor
      · simp [next, masterNext, hi, h.unanswered, hav, htaken]
      · rw [next_axi, SlaveRegs.next_axiAwready _ _ _ hi]
        simp [hav]
    · have hav : i.awvalid = true := by
        have hfollows := (follows_of_allows hok hi).1
        rw [hoffer, Chan.offered_follows] at hfollows
        exact hfollows.1
      constructor
      · simp [next, masterNext, hi, h.unanswered, hav, hready]
      · rw [next_axi, SlaveRegs.next_axiAwready _ _ _ hi]
        simp [hready]

end Wedged

/-- A write offered to an unready state machine is where the board goes wrong. -/
theorem Settled.wedged_of_gated (h : Settled b) (hok : b.allows i = true)
    (hbad : ¬ b.answersTogether i) : Wedged (b.next i) := by
  simp only [answersTogether, Classical.not_imp] at hbad
  obtain ⟨hi, hready, hav, hwv, hrdy⟩ := hbad
  obtain ⟨-, -, -, haw', hw', -, hb', hmaw, -⟩ := h.next_of_offer hok hi hready hav hwv
  have hwren : b.slave.axi.slvRegWren i = false := by simp [SlaveRegs.slvRegWren, hready]
  refine ⟨h.undivided_next hi, hb', ?_, Or.inr ⟨⟨_, hmaw⟩, haw', ?_⟩⟩
  · rw [next_trasferRq hi, hwren, Bool.false_and]
  · rw [hw']
    simpa using hrdy

/-- What holds along every run: settled or wedged, and the pins driven. -/
structure Flowing (b : Board) : Prop where
  pins : b.fsm.Strobing
  slave : Settled b ∨ Wedged b

namespace Flowing

theorem of_reset (b : Board) (hi : i.aresetn = false) : Flowing (b.next i) := by
  refine ⟨?_, Or.inl (settled_of_reset b hi)⟩
  rw [next_fsm]
  exact IoFsm.strobing_reset (by simp [fsmIn, hi])

theorem step (h : Flowing b) (hok : b.allows i = true) : Flowing (b.next i) := by
  by_cases hi : i.aresetn = true
  · refine ⟨(IoFsm.flow_next h.pins (fsmIn_clocked hi)).1, ?_⟩
    rcases h.slave with hs | hw
    · by_cases hgood : b.answersTogether i
      · exact Or.inl (hs.step hok hgood)
      · exact Or.inr (hs.wedged_of_gated hok hgood)
    · exact Or.inr (hw.step hok hi)
  · exact of_reset b (by simpa using hi)

theorem undivided (h : Flowing b) : b.fsm.divCnt = 0 := by
  rcases h.slave with hs | hw
  · exact hs.undivided
  · exact hw.undivided

/-- A raised request finds the state machine idle. -/
theorem raised_idle (h : Flowing b) (hrq : b.slave.trasferRq = true) :
    b.fsm.ioStateR = .isIddle := by
  rcases h.slave with hs | hw
  · exact (hs.pending hrq).2
  · exact absurd (hw.unraised.symm.trans hrq) Bool.false_ne_true

/-- So the whole of it is taken. -/
theorem accepts_eq (h : Flowing b) (i : SlaveIn 6) :
    b.fsm.accepts (b.fsmIn i) = b.raised := by
  by_cases hrq : b.slave.trasferRq = true
  · simp [IoFsm.accepts, raised, fsmIn, hrq, h.raised_idle hrq]
  · simp [IoFsm.accepts, raised, fsmIn, hrq]

/-- A write taken raises the request for its words, and nothing else raises one. -/
theorem raised_next (h : Flowing b) (hok : b.allows i = true) (hi : i.aresetn = true) :
    (b.next i).raised = wordsWritten (b, i) := by
  rcases h.slave with hs | hw
  · have hdel := hs.delivers i hok hi
    have htakes : b.takesWrite i = b.awHandshake i := by
      rw [takesWrite, ← hdel.sameEdge, Bool.and_self]
    by_cases hrq : (b.next i).slave.trasferRq = true
    · obtain ⟨hdata, hdc, hdbl⟩ := hdel.requested hrq
      rw [raised, if_pos hrq, hdata, hdc, hdbl]
      rw [hdel.request] at hrq
      rw [wordsWritten, htakes, if_pos hrq]
    · rw [raised, if_neg hrq]
      rw [hdel.request] at hrq
      rw [wordsWritten, htakes, if_neg hrq]
  · rw [raised, (hw.step hok hi).unraised, wordsWritten, hw.takesWrite_eq i]
    rfl

/-- **One clock of the board loses no word and repeats none.** -/
theorem flow (h : Flowing b) (hok : b.allows i = true) (hi : i.aresetn = true) :
    b.underWay ++ wordsWritten (b, i) = wordsRead (b, i) ++ (b.next i).underWay := by
  have hfsm : b.fsm.unread ++ b.fsm.accepts (b.fsmIn i)
      = b.fsm.readAt (b.fsm.next 1 (b.fsmIn i)) ++ (b.fsm.next 1 (b.fsmIn i)).unread :=
    (IoFsm.flow_next h.pins (fsmIn_clocked hi)).2
  rw [h.accepts_eq i] at hfsm
  rw [underWay, underWay, h.raised_next hok hi, ← List.append_assoc]
  exact congrArg (· ++ wordsWritten (b, i)) hfsm

theorem underWay_length (h : Flowing b) : b.underWay.length ≤ 2 := by
  have hunread := b.fsm.unread_length
  by_cases hrq : b.slave.trasferRq = true
  · have hidle := h.raised_idle hrq
    simp only [underWay, raised, if_pos hrq, IoFsm.unread, hidle, List.nil_append]
    cases b.slave.trasferRqDbl <;> simp [busWords]
  · simp [underWay, raised, hrq, hunread]

end Flowing

/-- Clocks until the last word written is read, if no other follows. -/
def clocksLeft (b : Board) : Nat :=
  if b.slave.trasferRq then 4 + (if b.slave.trasferRqDbl then 5 else 0) else b.fsm.clocksLeft

/-- A step at which nothing is written. -/
def isQuiet (e : Board × SlaveIn 6) : Bool :=
  e.2.aresetn && !(e.1.takesWrite e.2 && asksTransfer (S00.locAddr e.2.awaddr))

theorem clocksLeft_le (b : Board) : b.clocksLeft ≤ 9 := by
  have hfsm := b.fsm.clocksLeft_le
  unfold clocksLeft
  split
  · split <;> omega
  · exact hfsm

theorem underWay_of_clocksLeft (h : b.clocksLeft = 0) : b.underWay = [] := by
  by_cases hrq : b.slave.trasferRq = true
  · rw [clocksLeft, if_pos hrq] at h
    omega
  · rw [clocksLeft, if_neg hrq] at h
    simp [underWay, raised, hrq, IoFsm.unread_of_clocksLeft h]

theorem Flowing.unraised_of_quiet (h : Flowing b) (hok : b.allows i = true)
    (hq : isQuiet (b, i) = true) : (b.next i).slave.trasferRq = false := by
  simp only [isQuiet, Bool.and_eq_true, Bool.not_eq_true'] at hq
  obtain ⟨hi, hno⟩ := hq
  have hraised := h.raised_next hok hi
  rw [wordsWritten, hno, if_neg Bool.false_ne_true, raised] at hraised
  by_contra hrq
  rw [if_pos (by simpa using hrq)] at hraised
  exact absurd hraised (by simp [busWords])

theorem Flowing.clocksLeft_next (h : Flowing b) (hok : b.allows i = true)
    (hq : isQuiet (b, i) = true) : (b.next i).clocksLeft ≤ b.clocksLeft - 1 := by
  have hi : i.aresetn = true := by
    simp only [isQuiet, Bool.and_eq_true] at hq
    exact hq.1
  rw [clocksLeft, h.unraised_of_quiet hok hq, if_neg Bool.false_ne_true, next_fsm]
  by_cases hrq : b.slave.trasferRq = true
  · have hreq : ((b.fsm.next 1 (b.fsmIn i)).clocksLeft
        = 3 + if (b.fsmIn i).trasferRqDbl then 5 else 0) :=
      IoFsm.clocksLeft_request (fsmIn_clocked hi) h.undivided (h.raised_idle hrq) hrq
    rw [hreq, clocksLeft, if_pos hrq]
    show 3 + (if b.slave.trasferRqDbl then 5 else 0) ≤ _
    omega
  · rw [clocksLeft, if_neg hrq]
    exact IoFsm.clocksLeft_next (fsmIn_clocked hi) h.undivided (by simpa [fsmIn] using hrq)

end Board

open Board in
/--
**Everything written is shown, once and in order.**  Along every run of the display, what the
panel has read since the last reset, followed by at most two words under way, is what the
writes taken since then asked for; nine clocks without a further one, and nothing is under way.
-/
theorem display_streams {h : List (Board × SlaveIn 6)} {b : Board} (r : Run displaySystem h b) :
    logged inReset wordsWritten h = logged inReset wordsRead h ++ b.underWay ∧
      b.underWay.length ≤ 2 ∧
      ∀ p q, h = p ++ q → 9 ≤ q.length → (∀ e ∈ q, isQuiet e = true) →
        logged inReset wordsRead h = logged inReset wordsWritten h := by
  have hinit : ∀ s, displaySystem.init s → Flowing s := by
    rintro s ⟨b₀, i, hi, rfl⟩
    exact Flowing.of_reset b₀ hi
  have hstep : ∀ s i, Flowing s → displaySystem.allowed s i → Flowing (displaySystem.next s i) :=
    fun s i hs hok => hs.step hok
  have hempty : ∀ s i, i.aresetn = false → (Board.next s i).underWay = [] := by
    intro s i hi
    have hraised : (s.next i).slave.trasferRq = false := by
      show (s.slave.writeRegs i).trasferRq = false
      simp [S00.writeRegs, hi]
    have hunread : (s.next i).fsm.unread = [] := by
      rw [next_fsm]
      exact IoFsm.unread_reset (by simp [fsmIn, hi])
    simp [underWay, raised, hraised, hunread]
  have hconserved : logged inReset wordsWritten h
      = logged inReset wordsRead h ++ b.underWay := by
    refine r.conserved (J := Flowing) underWay ?_ hstep ?_ ?_
    · rintro s ⟨b₀, i, hi, rfl⟩
      exact ⟨Flowing.of_reset b₀ hi, hempty b₀ i hi⟩
    · intro s i _ _ hreset
      exact hempty s i (by simpa [inReset] using hreset)
    · intro s i hs hok hrun
      exact hs.flow hok (by simpa [inReset] using hrun)
  refine ⟨hconserved, (r.invariant hinit hstep).underWay_length, ?_⟩
  intro p q hpq hlen hquiet
  obtain ⟨s₀, rp, rq⟩ := Run.of_append (hpq ▸ r)
  have hdrained : b.clocksLeft ≤ s₀.clocksLeft - q.length :=
    Run.drained (fun e => isQuiet e = true) Board.clocksLeft rq (rp.invariant hinit hstep) hstep
      (fun s i hs hok hq => hs.clocksLeft_next hok hq) hquiet
  have hbound := s₀.clocksLeft_le
  rw [hconserved, underWay_of_clocksLeft (by omega), List.append_nil]

/-- An edge at which both halves of the data register are being written. -/
def pixels (word : BitVec 32) : SlaveIn 6 :=
  { command word with awaddr := 12#6, wstrb := 15#4 }

/-- A command and, when the state machine is ready again, two words of data. -/
def picture : List (SlaveIn 6) :=
  [quiet, command 0x2c, command 0x2c, quiet, quiet, quiet, quiet, quiet,
    pixels 0x12345678, pixels 0x12345678] ++ List.replicate 9 quiet

theorem display_streams_picture :
    logged Board.inReset Board.wordsRead (displaySystem.steps resetBoard picture)
      = [(some 0x2c#16, false), (some 0x5678#16, true), (some 0x1234#16, true)] := by
  have r := resetBoard_run picture (by decide +kernel)
  have hquiet : ∀ e ∈ (displaySystem.steps resetBoard picture).drop 10,
      Board.isQuiet e = true := by decide +kernel
  have hlen : 9 ≤ ((displaySystem.steps resetBoard picture).drop 10).length := by decide +kernel
  rw [(display_streams r).2.2 _ _ (List.take_append_drop 10 _).symm hlen hquiet]
  decide +kernel

end CanBench.Display
