/-
When the display delivers a write exactly once.

`axi_awready` answers a write as soon as address and data are offered together;
`axi_wready` does so only while `ready_for_rq` is set.  While the two agree, a write is
taken on one edge, changes its register, raises one response and, for registers 2 and 3,
one request that finds the state machine idle.  Once they disagree the address has been
taken and the data has not, and the write is never answered.

`Settled` is the invariant over slave, state machine and master that the agreeing steps
keep.  It rests on one fact about the state machine, that it is idle whenever it says it
is ready, and on one about the master, that it offers nothing between a handshake and
the response: so a request never meets a transfer in progress.
-/
import CanBench.Display.System

namespace CanBench.Display

open Lib Axi

/-! ### The state machine with a divider of one -/

namespace IoFsm

variable {dataWidth lcdIoWidth : Nat} {s : IoFsm dataWidth lcdIoWidth} {i : IoFsmIn dataWidth}

theorem next_undivided (hr : i.resetIn = false) (hen : i.clkEn = true) (hdiv : s.divCnt = 0) :
    s.next 1 i = s.tick i { s.latch i with divCnt := 0 } :=
  next_tick ⟨hr, hen⟩ hdiv

@[simp] theorem tick_divCnt (t : IoFsm dataWidth lcdIoWidth) :
    (s.tick i t).divCnt = t.divCnt := by
  unfold tick
  split <;> (try split) <;> rfl

/-- An idle state machine without a request stays idle. -/
theorem next_idle (hr : i.resetIn = false) (hen : i.clkEn = true) (hdiv : s.divCnt = 0)
    (hs : s.ioStateR = .isIddle) (hrq : i.trasferRq = false) :
    (s.next 1 i).ioStateR = .isIddle := by
  rw [next_undivided hr hen hdiv]
  simp [tick, latch, hs, hrq]

/-- An idle state machine takes a request with everything that came with it. -/
theorem next_request (hr : i.resetIn = false) (hen : i.clkEn = true) (hdiv : s.divCnt = 0)
    (hs : s.ioStateR = .isIddle) (hrq : i.trasferRq = true) :
    (s.next 1 i).ioStateR = .isWr0 ∧ (s.next 1 i).dataOutR = i.dataOut ∧
      (s.next 1 i).dcOutR = i.dcOut ∧ (s.next 1 i).trasferRqDblR = i.trasferRqDbl := by
  rw [next_undivided hr hen hdiv]
  simp [tick, latch, hs, hrq]

end IoFsm

namespace Board

variable {b : Board} {i : SlaveIn 6}

/-! ### One edge outside reset -/

theorem follows_of_allows (hok : b.allows i = true) (hi : i.aresetn = true) :
    b.master.aw.follows i.awvalid i.awaddr = true ∧
      b.master.w.follows i.wvalid (i.wdata, i.wstrb) = true := by
  simpa [allows, hi] using hok

theorem next_fsm (b : Board) (i : SlaveIn 6) :
    (b.next i).fsm = b.fsm.next 1 (b.fsmIn i) := rfl

theorem next_axi (b : Board) (i : SlaveIn 6) :
    (b.next i).slave.axi
      = b.slave.axi.next b.fsm.readyForRq (b.slave.slvReg (S00.locAddr b.slave.axi.axiAraddr)) i :=
  rfl

/-- The registers that are not only stored. -/
def asksTransfer (loc : BitVec 4) : Bool := loc == 2#4 || loc == 3#4

/-- A write stores its word, and at registers 2 and 3 it asks for a transfer with it. -/
theorem writeRegs_eq {s : S00} (hi : i.aresetn = true) :
    s.writeRegs i =
      if s.axi.slvRegWren i then
        let loc := S00.locAddr s.axi.axiAwaddr
        let slvReg := Function.update s.slvReg loc (mergeBytes (s.slvReg loc) i.wdata i.wstrb)
        if asksTransfer loc then
          { s with slvReg := slvReg, dataOut := i.wdata, dcOut := loc == 3#4,
                   trasferRq := true, trasferRqDbl := i.wstrb.getLsbD 2 }
        else { s with slvReg := slvReg, trasferRq := false }
      else { s with trasferRq := false } := by
  unfold S00.writeRegs asksTransfer
  dsimp only
  rw [hi, writeBytes_eq_mergeBytes]
  by_cases hwren : s.axi.slvRegWren i = true
  · by_cases h2 : S00.locAddr s.axi.axiAwaddr = 2#4
    · simp [hwren, h2]
    · by_cases h3 : S00.locAddr s.axi.axiAwaddr = 3#4
      · simp [hwren, h3]
      · simp [hwren, h2, h3]
  · simp [hwren]

theorem next_slvReg (hi : i.aresetn = true) :
    (b.next i).slave.slvReg =
      if b.slave.axi.slvRegWren i then
        Function.update b.slave.slvReg (S00.locAddr b.slave.axi.axiAwaddr)
          (mergeBytes (b.slave.slvReg (S00.locAddr b.slave.axi.axiAwaddr)) i.wdata i.wstrb)
      else b.slave.slvReg := by
  show (b.slave.writeRegs i).slvReg = _
  rw [writeRegs_eq hi]
  dsimp only
  split
  · split
    · rfl
    · rfl
  · rfl

theorem next_trasferRq (hi : i.aresetn = true) :
    (b.next i).slave.trasferRq
      = (b.slave.axi.slvRegWren i && asksTransfer (S00.locAddr b.slave.axi.axiAwaddr)) := by
  show (b.slave.writeRegs i).trasferRq = _
  rw [writeRegs_eq hi]
  dsimp only
  by_cases hwren : b.slave.axi.slvRegWren i = true
  · rw [if_pos hwren, hwren, Bool.true_and]
    by_cases hasks : asksTransfer (S00.locAddr b.slave.axi.axiAwaddr) = true
    · rw [if_pos hasks, hasks]
    · rw [if_neg hasks]
      exact (Bool.eq_false_of_not_eq_true hasks).symm
  · rw [if_neg hwren]
    simp [hwren]

/-- What comes with a request: the word, whether it is data, whether there is a second half. -/
theorem next_request (hi : i.aresetn = true) (h : (b.next i).slave.trasferRq = true) :
    (b.next i).slave.dataOut = i.wdata ∧
      (b.next i).slave.dcOut = (S00.locAddr b.slave.axi.axiAwaddr == 3#4) ∧
      (b.next i).slave.trasferRqDbl = i.wstrb.getLsbD 2 := by
  rw [next_trasferRq hi, Bool.and_eq_true] at h
  obtain ⟨hwren, hasks⟩ := h
  show (b.slave.writeRegs i).dataOut = _ ∧ (b.slave.writeRegs i).dcOut = _ ∧
    (b.slave.writeRegs i).trasferRqDbl = _
  rw [writeRegs_eq hi, if_pos hwren]
  dsimp only
  rw [if_pos hasks]
  exact ⟨rfl, rfl, rfl⟩

/-! ### Delivery -/

/-- At this edge the two handshakes of a write coincide, and a write taken changes its
register and nothing else, brings up its response, which was down, and raises the
request its register asks for; a request raised before is taken by the state machine. -/
structure DeliversAt (b : Board) (i : SlaveIn 6) : Prop where
  sameEdge : b.awHandshake i = b.wHandshake i
  register : (b.next i).slave.slvReg =
    if b.awHandshake i then
      Function.update b.slave.slvReg (S00.locAddr i.awaddr)
        (mergeBytes (b.slave.slvReg (S00.locAddr i.awaddr)) i.wdata i.wstrb)
    else b.slave.slvReg
  unanswered : b.awHandshake i = true → b.slave.axi.axiBvalid = false
  response : (b.next i).slave.axi.axiBvalid
    = (b.awHandshake i || b.slave.axi.axiBvalid && !i.bready)
  request : (b.next i).slave.trasferRq = (b.awHandshake i && asksTransfer (S00.locAddr i.awaddr))
  requested : (b.next i).slave.trasferRq = true →
    (b.next i).slave.dataOut = i.wdata ∧
      (b.next i).slave.dcOut = (S00.locAddr i.awaddr == 3#4) ∧
      (b.next i).slave.trasferRqDbl = i.wstrb.getLsbD 2
  accepted : b.slave.trasferRq = true →
    b.fsm.ioStateR = .isIddle ∧ (b.next i).fsm.ioStateR = .isWr0 ∧
      (b.next i).fsm.dataOutR = b.slave.dataOut ∧ (b.next i).fsm.dcOutR = b.slave.dcOut ∧
      (b.next i).fsm.trasferRqDblR = b.slave.trasferRqDbl

/-- Whatever the master does next, short of a reset, is delivered. -/
def DeliversOnce (b : Board) : Prop :=
  ∀ i, b.allows i = true → i.aresetn = true → b.DeliversAt i

/-- A write that is being offered finds `ready_for_rq` set. -/
def answersTogether (b : Board) (i : SlaveIn 6) : Prop :=
  i.aresetn = true → b.slave.axi.axiAwready = false → i.awvalid = true → i.wvalid = true →
    b.fsm.readyForRq = true

instance (b : Board) (i : SlaveIn 6) : Decidable (b.answersTogether i) :=
  inferInstanceAs (Decidable (_ → _ → _ → _ → _))

/-! ### The invariant -/

/-- Between two edges: the readies agree, and where a write stands is the same on both
channels of the master and at the slave. -/
structure Settled (b : Board) : Prop where
  together : b.slave.axi.axiAwready = b.slave.axi.axiWready
  /-- A write about to be taken is still offered, its address latched, its response down. -/
  taking : b.slave.axi.axiAwready = true →
    ∃ d, b.master.aw = .offered b.slave.axi.axiAwaddr ∧ b.master.w = .offered d ∧
      b.slave.axi.axiBvalid = false ∧ b.slave.trasferRq = false ∧ b.fsm.ioStateR = .isIddle
  waiting : b.slave.axi.axiAwready = false →
    (b.master.aw = .taken ∧ b.master.w = .taken ∧ b.slave.axi.axiBvalid = true) ∨
    (b.master.aw ≠ .taken ∧ b.master.w ≠ .taken ∧ b.slave.axi.axiBvalid = false)
  /-- A request stands for a write that has not been answered, and meets an idle machine. -/
  pending : b.slave.trasferRq = true → b.master.aw = .taken ∧ b.fsm.ioStateR = .isIddle
  readyIdle : b.fsm.readyForRq = true → b.fsm.ioStateR = .isIddle
  undivided : b.fsm.divCnt = 0

theorem settled_of_reset (b : Board) (hi : i.aresetn = false) : Settled (b.next i) := by
  have haxi : (b.next i).slave.axi = SlaveRegs.reset := by rw [next_axi]; simp [hi]
  have hfsm : (b.next i).fsm = b.fsm.reset 1 := by simp [next_fsm, IoFsm.next, fsmIn, hi]
  have hmaster : (b.next i).master = .idle := by simp [next, masterNext, hi]
  have hrq : (b.next i).slave.trasferRq = false := by
    show (b.slave.writeRegs i).trasferRq = false
    simp [S00.writeRegs, hi]
  refine ⟨?_, ?_, ?_, ?_, ?_, ?_⟩ <;>
    simp [haxi, hfsm, hmaster, hrq, SlaveRegs.reset, IoFsm.reset, WriteMaster.idle]

namespace Settled

theorem undivided_next (h : Settled b) (hi : i.aresetn = true) : (b.next i).fsm.divCnt = 0 := by
  rw [next_fsm, IoFsm.next_undivided (by simp [fsmIn, hi]) rfl h.undivided]
  simp

theorem readyIdle_next (h : Settled b) (hi : i.aresetn = true)
    (hready : (b.next i).fsm.readyForRq = true) : (b.next i).fsm.ioStateR = .isIddle := by
  rw [next_fsm] at hready ⊢
  exact IoFsm.idle_of_tick_ready ⟨by simp [fsmIn, hi], rfl⟩ h.undivided hready

/-- The slave writes on the edge of the handshake, and to the address on the bus. -/
theorem slvRegWren_eq (h : Settled b) (i : SlaveIn 6) :
    b.slave.axi.slvRegWren i = (b.awHandshake i && b.wHandshake i) := by
  unfold SlaveRegs.slvRegWren awHandshake wHandshake
  rw [h.together]
  cases b.slave.axi.axiWready <;> cases i.awvalid <;> cases i.wvalid <;> rfl

/-- While a write is being taken, both of its beats are on the bus. -/
theorem taking_offers (h : Settled b) (hok : b.allows i = true) (hi : i.aresetn = true)
    (hready : b.slave.axi.axiAwready = true) :
    i.awvalid = true ∧ i.awaddr = b.slave.axi.axiAwaddr ∧ i.wvalid = true := by
  obtain ⟨d, haw, hw, -⟩ := h.taking hready
  obtain ⟨hfaw, hfw⟩ := follows_of_allows hok hi
  rw [haw, Chan.offered_follows] at hfaw
  rw [hw, Chan.offered_follows] at hfw
  exact ⟨hfaw.1, hfaw.2, hfw.1⟩

/-- A master waiting for its response offers nothing. -/
theorem taken_silent (hok : b.allows i = true) (hi : i.aresetn = true)
    (haw : b.master.aw = .taken) : i.awvalid = false := by
  have hfollows := (follows_of_allows hok hi).1
  rwa [haw, Chan.taken_follows] at hfollows

theorem handshake_eq (h : Settled b) (hok : b.allows i = true) (hi : i.aresetn = true) :
    b.awHandshake i = b.slave.axi.axiAwready ∧ b.wHandshake i = b.slave.axi.axiAwready := by
  unfold awHandshake wHandshake
  rw [← h.together]
  cases hready : b.slave.axi.axiAwready with
  | false => exact ⟨rfl, rfl⟩
  | true =>
      obtain ⟨hav, -, hwv⟩ := h.taking_offers hok hi hready
      exact ⟨by simp [hav], by simp [hwv]⟩

/-- **A settled board delivers whatever is written next.** -/
theorem delivers (h : Settled b) : DeliversOnce b := by
  intro i hok hi
  obtain ⟨haw, hw⟩ := h.handshake_eq hok hi
  have hwren : b.slave.axi.slvRegWren i = b.awHandshake i := by
    rw [h.slvRegWren_eq, haw, hw, Bool.and_self]
  have haddr : b.awHandshake i = true → i.awaddr = b.slave.axi.axiAwaddr := by
    intro hs
    exact (h.taking_offers hok hi (haw ▸ hs)).2.1
  have hbvalid : b.awHandshake i = true → b.slave.axi.axiBvalid = false := by
    intro hs
    obtain ⟨d, -, -, hb, -⟩ := h.taking (haw ▸ hs)
    exact hb
  have hrequest : (b.next i).slave.trasferRq
      = (b.awHandshake i && asksTransfer (S00.locAddr i.awaddr)) := by
    rw [next_trasferRq hi, hwren]
    cases hs : b.awHandshake i with
    | false => rfl
    | true => rw [haddr hs]
  refine ⟨by rw [haw, hw], ?_, hbvalid, ?_, hrequest, ?_, ?_⟩
  · rw [next_slvReg hi, hwren]
    by_cases hs : b.awHandshake i = true
    · rw [if_pos hs, if_pos hs, haddr hs]
    · rw [if_neg hs, if_neg hs]
  · rw [next_axi, SlaveRegs.next_axiBvalid _ _ _ hi, hwren]
    cases hs : b.awHandshake i with
    | true => simp [hbvalid hs]
    | false => cases b.slave.axi.axiBvalid <;> cases i.bready <;> rfl
  · intro hrq
    have hs : b.awHandshake i = true := by
      rw [hrequest, Bool.and_eq_true] at hrq
      exact hrq.1
    rw [haddr hs]
    exact next_request hi hrq
  · intro hrq
    have hidle := (h.pending hrq).2
    rw [next_fsm]
    exact ⟨hidle, IoFsm.next_request (i := b.fsmIn i) (by simp [fsmIn, hi]) rfl h.undivided
      hidle hrq⟩

/-- The step on which a write offered with `ready_for_rq` set gets its readies. -/
theorem next_of_offer (h : Settled b) (hok : b.allows i = true) (hi : i.aresetn = true)
    (hready : b.slave.axi.axiAwready = false) (hav : i.awvalid = true) (hwv : i.wvalid = true) :
    b.master.aw ≠ .taken ∧ b.slave.axi.axiBvalid = false ∧ b.slave.trasferRq = false ∧
      (b.next i).slave.axi.axiAwready = true ∧
      (b.next i).slave.axi.axiWready = b.fsm.readyForRq ∧
      (b.next i).slave.axi.axiAwaddr = i.awaddr ∧
      (b.next i).slave.axi.axiBvalid = false ∧
      (b.next i).master.aw = .offered i.awaddr ∧
      (b.next i).master.w = .offered (i.wdata, i.wstrb) := by
  have hfree : b.master.aw ≠ .taken := by
    intro htaken
    rw [taken_silent hok hi htaken] at hav
    exact absurd hav (by simp)
  have hb : b.slave.axi.axiBvalid = false := by
    rcases h.waiting hready with ⟨htaken, -, -⟩ | ⟨-, -, hb⟩
    · exact absurd htaken hfree
    · exact hb
  have hrq : b.slave.trasferRq = false := by
    by_contra hrq
    exact hfree (h.pending (by simpa using hrq)).1
  have hwready : b.slave.axi.axiWready = false := by rw [← h.together, hready]
  have hwren : b.slave.axi.slvRegWren i = false := by simp [SlaveRegs.slvRegWren, hwready]
  refine ⟨hfree, hb, hrq, ?_, ?_, ?_, ?_, ?_, ?_⟩
  · rw [next_axi, SlaveRegs.next_axiAwready _ _ _ hi]; simp [hready, hav, hwv]
  · rw [next_axi, SlaveRegs.next_axiWready _ _ _ hi]; simp [hwready, hav, hwv]
  · rw [next_axi, SlaveRegs.next_axiAwaddr _ _ _ hi]
    simp [SlaveRegs.awAccept, hready, hav, hwv]
  · rw [next_axi, SlaveRegs.next_axiBvalid _ _ _ hi]; simp [hwren, hb]
  · simp [next, masterNext, hi, hb, hready, hav]
  · simp [next, masterNext, hi, hb, hwready, hwv]

/-- The step on which a write is taken. -/
theorem next_of_taking (h : Settled b) (hok : b.allows i = true) (hi : i.aresetn = true)
    (hready : b.slave.axi.axiAwready = true) : Settled (b.next i) := by
  obtain ⟨hav, haddr, hwv⟩ := h.taking_offers hok hi hready
  obtain ⟨d, -, -, hb, hrq, hidle⟩ := h.taking hready
  have hwready : b.slave.axi.axiWready = true := by rw [← h.together, hready]
  have hawready' : (b.next i).slave.axi.axiAwready = false := by
    rw [next_axi, SlaveRegs.next_axiAwready _ _ _ hi]; simp [hready]
  have hmaster : (b.next i).master = ⟨.taken, .taken⟩ := by
    simp [next, masterNext, hi, hb, hready, hwready, hav, hwv]
  refine ⟨?_, ?_, fun _ => Or.inl ⟨by rw [hmaster], by rw [hmaster], ?_⟩, ?_,
    h.readyIdle_next hi, h.undivided_next hi⟩
  · rw [hawready', next_axi, SlaveRegs.next_axiWready _ _ _ hi]; simp [hwready]
  · intro hready'
    rw [hawready'] at hready'
    exact absurd hready' (by simp)
  · rw [next_axi, SlaveRegs.next_axiBvalid _ _ _ hi]
    simp [SlaveRegs.slvRegWren, hready, hwready, hav, hwv, hb]
  · intro _
    refine ⟨by rw [hmaster], ?_⟩
    rw [next_fsm]
    exact IoFsm.next_idle (by simp [fsmIn, hi]) rfl h.undivided hidle hrq

/-- A step without a write at the slave: the response may be taken, and the master may
begin to offer one of the two beats. -/
theorem next_of_quiet (h : Settled b) (hok : b.allows i = true) (hi : i.aresetn = true)
    (hready : b.slave.axi.axiAwready = false) (hquiet : (i.awvalid && i.wvalid) = false) :
    Settled (b.next i) := by
  have hwready : b.slave.axi.axiWready = false := by rw [← h.together, hready]
  have hwren : b.slave.axi.slvRegWren i = false := by simp [SlaveRegs.slvRegWren, hwready]
  have hawready' : (b.next i).slave.axi.axiAwready = false := by
    rw [next_axi, SlaveRegs.next_axiAwready _ _ _ hi, Bool.and_assoc, hquiet, Bool.and_false]
  have hrq' : (b.next i).slave.trasferRq = false := by
    rw [next_trasferRq hi, hwren, Bool.false_and]
  have hbvalid : (b.next i).slave.axi.axiBvalid = (b.slave.axi.axiBvalid && !i.bready) := by
    rw [next_axi, SlaveRegs.next_axiBvalid _ _ _ hi, hwren]
    cases b.slave.axi.axiBvalid <;> cases i.bready <;> rfl
  refine ⟨?_, ?_, fun _ => ?_, ?_, h.readyIdle_next hi, h.undivided_next hi⟩
  · rw [hawready', next_axi, SlaveRegs.next_axiWready _ _ _ hi]
    cases hav : i.awvalid <;> simp_all
  · intro hready'
    rw [hawready'] at hready'
    exact absurd hready' (by simp)
  · rcases h.waiting hready with ⟨haw, hw, hb⟩ | ⟨haw, hw, hb⟩
    · have hav : i.awvalid = false := taken_silent hok hi haw
      have hwv : i.wvalid = false := by
        have hfollows := (follows_of_allows hok hi).2
        rwa [hw, Chan.taken_follows] at hfollows
      by_cases hbr : i.bready = true
      · right
        have hmaster : (b.next i).master = .idle := by simp [next, masterNext, hi, hb, hbr]
        rw [hmaster, hbvalid, hb, hbr]
        exact ⟨by simp [WriteMaster.idle], by simp [WriteMaster.idle], rfl⟩
      · left
        have hmaster : (b.next i).master = ⟨.taken, .taken⟩ := by
          simp [next, masterNext, hi, hb, hbr, hav, hwv, haw, hw]
        rw [hmaster, hbvalid, hb]
        exact ⟨rfl, rfl, by simpa using hbr⟩
    · right
      refine ⟨?_, ?_, by rw [hbvalid, hb, Bool.false_and]⟩
      · cases hav : i.awvalid <;> simp [next, masterNext, hi, hb, hready, hav, haw]
      · cases hwv : i.wvalid <;> simp [next, masterNext, hi, hb, hwready, hwv, hw]
  · intro hrq
    rw [hrq'] at hrq
    exact absurd hrq (by simp)

/-- With `ready_for_rq` set, a write offered gets both readies. -/
theorem next_of_ready (h : Settled b) (hok : b.allows i = true) (hi : i.aresetn = true)
    (hready : b.slave.axi.axiAwready = false) (hav : i.awvalid = true) (hwv : i.wvalid = true)
    (hrdy : b.fsm.readyForRq = true) : Settled (b.next i) := by
  obtain ⟨-, -, hrq, haw', hw', haddr', hb', hmaw, hmw⟩ :=
    h.next_of_offer hok hi hready hav hwv
  have hrq' : (b.next i).slave.trasferRq = false := by
    rw [next_trasferRq hi]
    simp [SlaveRegs.slvRegWren, hready]
  refine ⟨by rw [haw', hw', hrdy], fun _ => ?_, ?_, ?_, h.readyIdle_next hi,
    h.undivided_next hi⟩
  · refine ⟨_, by rw [hmaw, haddr'], hmw, hb', hrq', ?_⟩
    rw [next_fsm]
    exact IoFsm.next_idle (by simp [fsmIn, hi]) rfl h.undivided (h.readyIdle hrdy) hrq
  · intro hready'
    rw [haw'] at hready'
    exact absurd hready' (by simp)
  · intro hrq''
    rw [hrq'] at hrq''
    exact absurd hrq'' (by simp)

theorem step (h : Settled b) (hok : b.allows i = true) (hgood : b.answersTogether i) :
    Settled (b.next i) := by
  cases hi : i.aresetn with
  | false => exact settled_of_reset b hi
  | true =>
      cases hready : b.slave.axi.axiAwready with
      | true => exact h.next_of_taking hok hi hready
      | false =>
          by_cases hoffer : i.awvalid = true ∧ i.wvalid = true
          · obtain ⟨hav, hwv⟩ := hoffer
            exact h.next_of_ready hok hi hready hav hwv (hgood hi hready hav hwv)
          · refine h.next_of_quiet hok hi hready ?_
            simpa [Bool.and_eq_false_iff, not_and_or] using hoffer

/-- Offered while `ready_for_rq` is down, a write loses its address: the next edge takes
the address alone. -/
theorem not_delivers_of_gated (h : Settled b) (hok : b.allows i = true)
    (hbad : ¬ b.answersTogether i) : ¬ DeliversOnce (b.next i) := by
  simp only [answersTogether, Classical.not_imp] at hbad
  obtain ⟨hi, hready, hav, hwv, hrdy⟩ := hbad
  obtain ⟨-, -, -, haw', hw', -, -, hmaw, hmw⟩ := h.next_of_offer hok hi hready hav hwv
  intro hdel
  have hok' : (b.next i).allows i = true := by simp [allows, hi, hmaw, hmw, hav, hwv]
  have hsame := (hdel i hok' hi).sameEdge
  simp [awHandshake, wHandshake, haw', hw', hav, hwv, hrdy] at hsame

end Settled

end Board

open Board in
/-- **The display delivers every write of a run exactly once if and only if no write of
the run is offered while `ready_for_rq` is down.** -/
theorem display_delivers_iff {h : List (Board × SlaveIn 6)} {b : Board}
    (r : Run displaySystem h b) :
    (∀ x, Visits h b x → DeliversOnce x) ↔ ∀ e ∈ h, answersTogether e.1 e.2 := by
  refine r.exact (J := Settled) ?_ (fun _ _ hJ hok hg => hJ.step hok hg)
    (fun _ hJ => hJ.delivers) (fun _ _ hJ hok hg => hJ.not_delivers_of_gated hok hg)
  rintro _ ⟨b₀, i, hi, rfl⟩
  exact settled_of_reset b₀ hi

/-! ### Two writes to the command register -/

/-- An edge at which the master offers nothing and takes a response. -/
def quiet : SlaveIn 6 where
  aresetn := true
  awaddr := 0#6
  awvalid := false
  wdata := 0#32
  wstrb := 0#4
  wvalid := false
  bready := true
  araddr := 0#6
  arvalid := false
  rready := false

/-- An edge at which the low half of the command register is being written. -/
def command (word : BitVec 32) : SlaveIn 6 :=
  { quiet with awaddr := 8#6, awvalid := true, wdata := word, wstrb := 3#4, wvalid := true }

/-- The board after an edge with the reset asserted. -/
def resetBoard : Board :=
  Board.next
    { slave := { axi := SlaveRegs.reset, slvReg := fun _ => 0#32, dataOut := 0#32,
                 dcOut := false, trasferRq := false, trasferRqDbl := false }
      fsm := { ioStateR := .isIddle, trasferRqDblR := false, divCnt := 0, dataOutR := 0#32,
               dcOutR := false, readyForRq := false, lcdResN := false, lcdCsN := true,
               lcdWrN := true, lcdRdN := true, lcdDc := true, lcdData := none }
      master := .idle }
    { quiet with aresetn := false }

theorem resetBoard_run (l : List (SlaveIn 6))
    (hok : ∀ e ∈ displaySystem.steps resetBoard l, e.1.allows e.2 = true) :
    Run displaySystem (displaySystem.steps resetBoard l) (displaySystem.runFrom resetBoard l) :=
  System.run_of_steps displaySystem l (Run.start ⟨_, _, rfl, rfl⟩) hok

/-- The second of two writes waits until the transfer of the first has ended. -/
def patient : List (SlaveIn 6) :=
  [quiet, command 0x2a, command 0x2a, quiet, quiet, quiet, quiet, quiet,
    command 0x2c, command 0x2c, quiet]

/-- The second write follows the response of the first. -/
def eager : List (SlaveIn 6) :=
  [quiet, command 0x2a, command 0x2a, quiet, command 0x2c]

theorem patient_delivered :
    (∀ e ∈ displaySystem.steps resetBoard patient, Board.answersTogether e.1 e.2) ∧
      ∀ x, Visits (displaySystem.steps resetBoard patient)
        (displaySystem.runFrom resetBoard patient) x → Board.DeliversOnce x := by
  have hgood : ∀ e ∈ displaySystem.steps resetBoard patient,
      Board.answersTogether e.1 e.2 := by decide +kernel
  have r := resetBoard_run patient (by decide +kernel)
  exact ⟨hgood, (display_delivers_iff r).mpr hgood⟩

/-- The address of the second write is about to be taken without its data. -/
theorem eager_not_delivered :
    ¬ ∀ h b, Run displaySystem h b → ∀ x, Visits h b x → Board.DeliversOnce x := by
  intro hall
  have r := resetBoard_run eager (by decide +kernel)
  have hdel := hall _ _ r _ (Or.inl rfl) (command 0x2c) (by decide +kernel) rfl
  exact absurd hdel.sameEdge (by decide +kernel)

end CanBench.Display
