/-
How a burst goes.

`Link` is the master together with the write traffic its slave has seen.  A burst of `N`
writes passes through four phases, each told by the registers alone: at rest, ready to
issue write `k`, write `k` issued, and write `k` under way.  A fifth phase has no way out:
when `init_txn_pulse` falls on the clock at which a write has been issued, the valids
that should follow are cleared while `write_issued` stays set.

Each phase has one lemma saying where the next clock edge leads.  They are all later
modules know about the state machine.  The flip-flops of the edge detector appear in them
because the detector keeps running: `INIT_AXI_TXN` may still be set on the first clock of
a burst, and whatever it was then passes through `init_txn_ff` two clocks later.
-/
import CanBench.Lib.AxiLite
import CanBench.Coprocessor.M00Axi

namespace CanBench.Coprocessor

open Lib

namespace M00

variable {N : Nat} (s : M00 N) (i : M00In) (d : BitVec 32)

@[simp] theorem next_initAxiTxn : (s.next i d).initAxiTxn = (s.nextInitAxiTxn i).1 := rfl

@[simp] theorem next_pwmStateInpr : (s.next i d).pwmStateInpr = (s.nextInitAxiTxn i).2 := rfl

@[simp] theorem next_initTxnFf : (s.next i d).initTxnFf = (i.aresetn && s.initAxiTxn) := rfl

@[simp] theorem next_initTxnFf2 : (s.next i d).initTxnFf2 = (i.aresetn && s.initTxnFf) := rfl

@[simp] theorem next_axiAwvalid : (s.next i d).axiAwvalid = s.nextAwvalid i := rfl

@[simp] theorem next_axiWvalid : (s.next i d).axiWvalid = s.nextWvalid i := rfl

@[simp] theorem next_axiBready : (s.next i d).axiBready = s.nextBready i := rfl

@[simp] theorem next_writeIndex : (s.next i d).writeIndex = s.nextWriteIndex i := rfl

@[simp] theorem next_lastWrite : (s.next i d).lastWrite = s.nextLastWrite i := rfl

@[simp] theorem next_writesDone : (s.next i d).writesDone = s.nextWritesDone i := rfl

@[simp] theorem next_mstExecState : (s.next i d).mstExecState = (s.exec i).mstExecState := rfl

@[simp] theorem next_pwmStatePrev : (s.next i d).pwmStatePrev = (s.exec i).pwmStatePrev := rfl

@[simp] theorem next_startSingleWrite :
    (s.next i d).startSingleWrite = (s.exec i).startSingleWrite := rfl

@[simp] theorem next_writeIssued : (s.next i d).writeIssued = (s.exec i).writeIssued := rfl

/-- Outside `IDLE` the state to write is frozen and no new request is made. -/
theorem nextInitAxiTxn_busy {s : M00 N} (h : s.mstExecState ≠ .idle) :
    s.nextInitAxiTxn i = (false, s.pwmStateInpr) := by
  unfold nextInitAxiTxn
  by_cases hen : (!i.aresetn || !i.pwmEnabledI) = true
  · rw [if_pos hen]
  · rw [if_neg hen, if_pos (Or.inr h)]

/-- The written state is remembered at the end of a burst only. -/
theorem exec_pwmStatePrev {s : M00 N} {i : M00In} (hi : i.aresetn = true)
    (h : s.mstExecState = .initWrite → s.writesDone = false) :
    (s.exec i).pwmStatePrev = s.pwmStatePrev := by
  unfold exec
  rw [if_neg (by simp [hi])]
  cases hs : s.mstExecState with
  | idle => by_cases hp : s.initTxnPulse = true <;> simp [hp]
  | initWrite =>
      simp only [h hs]
      by_cases hissues : s.issuesWrite i = true
      · simp [hissues]
      · by_cases hb : s.axiBready = true <;> simp [hissues, hb]
  | initRead => simp only; split <;> (try split) <;> (try split) <;> rfl
  | initCompare => rfl

theorem clears_false {s : M00 N} {i : M00In} (hi : i.aresetn = true)
    (hp : s.initTxnPulse = false) : s.clears i = false := by
  simp [clears, hi, hp]

end M00

/-! ### The master and its slave -/

structure Link (N : Nat) where
  m : M00 N
  out : Outstanding

namespace Link

variable {N : Nat} (l : Link N) (i : M00In) (d : BitVec 32)

/-- A beat of the address channel at this edge. -/
def awBeat : Bool := l.m.axiAwvalid && i.awready

/-- A beat of the data channel at this edge. -/
def wBeat : Bool := l.m.axiWvalid && i.wready

/-- One clock edge. -/
def next : Link N where
  m := l.m.next i d
  out := if !i.aresetn then .empty
    else l.out.next (l.awBeat i) (l.wBeat i) i.bvalid l.m.axiBready

/-- Outside reset the slave answers what it has accepted and keeps its answer up. -/
def allows : Prop :=
  i.aresetn = true → l.out.follows (l.awBeat i) (l.wBeat i) i.bvalid

instance : Decidable (l.allows i) := inferInstanceAs (Decidable (_ → _))

@[simp] theorem next_m : (l.next i d).m = l.m.next i d := rfl

theorem next_out (hi : i.aresetn = true) :
    (l.next i d).out = l.out.next (l.awBeat i) (l.wBeat i) i.bvalid l.m.axiBready := by
  simp [next, hi]

/-! ### The phases -/

/-- Nothing on the bus and nothing to answer. -/
structure Silent (l : Link N) : Prop where
  awvalid : l.m.axiAwvalid = false
  wvalid : l.m.axiWvalid = false
  bready : l.m.axiBready = false
  out : l.out = .empty

/-- `IDLE`. -/
structure AtRest (l : Link N) : Prop extends Silent l where
  state : l.m.mstExecState = .idle
  start : l.m.startSingleWrite = false
  issued : l.m.writeIssued = false
  ff2 : l.m.initTxnFf2 = false

/-- `k` writes of the burst are answered, and the next, if any, can be issued. -/
structure Ready (k : Nat) (l : Link N) : Prop extends Silent l where
  state : l.m.mstExecState = .initWrite
  start : l.m.startSingleWrite = false
  issued : l.m.writeIssued = false
  count : k ≤ N
  index : l.m.writeIndex = toIndex N k
  last : l.m.lastWrite = decide (k = N)
  done : l.m.writesDone = decide (k = N)
  /-- The first clock of a burst comes right after the pulse that started it. -/
  first : k = 0 → l.m.initTxnFf2 = true
  later : 0 < k → l.m.initAxiTxn = false ∧ l.m.initTxnFf = false

/-- `start_single_write` is set for the write after the first `k`. -/
structure Issued (k : Nat) (l : Link N) : Prop extends Silent l where
  state : l.m.mstExecState = .initWrite
  start : l.m.startSingleWrite = true
  issued : l.m.writeIssued = true
  count : k < N
  index : l.m.writeIndex = toIndex N k
  last : l.m.lastWrite = false
  done : l.m.writesDone = false
  txn : l.m.initAxiTxn = false
  later : 0 < k → l.m.initTxnFf = false

/-- Write `k`, counted from 1, is on the bus. -/
structure UnderWay (k : Nat) (l : Link N) : Prop where
  state : l.m.mstExecState = .initWrite
  start : l.m.startSingleWrite = false
  issued : l.m.writeIssued = true
  pos : 0 < k
  count : k ≤ N
  index : l.m.writeIndex = toIndex N k
  address : l.out.aw + l.m.axiAwvalid.toNat = 1
  data : l.out.w + l.m.axiWvalid.toNat = 1
  answer : l.out.bvalid = true → l.out.aw = 1 ∧ l.out.w = 1
  bready : l.m.axiBready = l.out.bvalid
  last : l.m.lastWrite = true → k = N
  /-- The last write is known to be the last once its address is accepted. -/
  accepted : k = N → l.m.axiAwvalid = false → l.m.lastWrite = true
  done : l.m.writesDone = false
  txn : l.m.initAxiTxn = false
  ff : l.m.initTxnFf = false

/-- `INIT_WRITE` with a write issued and never put on the bus. -/
structure Stuck (l : Link N) : Prop extends Silent l where
  state : l.m.mstExecState = .initWrite
  start : l.m.startSingleWrite = false
  issued : l.m.writeIssued = true
  index : l.m.writeIndex = toIndex N 0
  last : l.m.lastWrite = false
  done : l.m.writesDone = false
  txn : l.m.initAxiTxn = false
  ff : l.m.initTxnFf = false

/-! ### Where each phase leads -/

variable {l i}

/-- Without beats and without anything accepted there is no answer. -/
theorem Silent.no_answer (h : Silent l) (hok : l.allows i) (hi : i.aresetn = true) :
    i.bvalid = false := by
  have hfollows := (hok hi).1
  by_contra hb
  have := (hfollows (by simpa using hb)).1
  simp [awBeat, h.awvalid, h.out, Outstanding.accept, Outstanding.empty] at this

/-- A silent link without a write to start stays silent. -/
theorem Silent.next (h : Silent l) (hok : l.allows i) (hi : i.aresetn = true)
    (hstart : l.m.startSingleWrite = false) : Silent (l.next i d) := by
  have hb := h.no_answer hok hi
  refine ⟨?_, ?_, ?_, ?_⟩
  · simp [M00.nextAwvalid, hstart, h.awvalid]
  · simp [M00.nextWvalid, hstart, h.wvalid]
  · simp [M00.nextBready, hb, h.bready]
  · rw [next_out _ _ _ hi]
    simp [awBeat, wBeat, h.awvalid, h.wvalid, h.bready, h.out, hb, Outstanding.next,
      Outstanding.accept, Outstanding.empty]

theorem atRest_of_reset (l : Link N) (hi : i.aresetn = false) : AtRest (l.next i d) := by
  refine ⟨⟨?_, ?_, ?_, ?_⟩, ?_, ?_, ?_, ?_⟩ <;>
    simp [next, hi, M00.nextAwvalid, M00.nextWvalid, M00.nextBready, M00.clears, M00.exec]

theorem AtRest.next (h : AtRest l) (hok : l.allows i) (hi : i.aresetn = true)
    (hp : l.m.initTxnPulse = false) : AtRest (l.next i d) := by
  have hff : l.m.initTxnFf = false := by simpa [M00.initTxnPulse, h.ff2] using hp
  have hexec : l.m.exec i = l.m := by simp [M00.exec, hi, h.state, hp]
  refine ⟨h.toSilent.next d hok hi h.start, ?_, ?_, ?_, ?_⟩
  · simpa [hexec] using h.state
  · simpa [hexec] using h.start
  · simpa [hexec] using h.issued
  · simp [hff]

theorem AtRest.next_pulse (hN : 0 < N) (h : AtRest l) (hok : l.allows i)
    (hi : i.aresetn = true) (hp : l.m.initTxnPulse = true) : Ready 0 (l.next i d) := by
  have hff : l.m.initTxnFf = true := by simpa [M00.initTxnPulse, h.ff2] using hp
  have hclears : l.m.clears i = true := by simp [M00.clears, hp]
  have hne : ¬ (0 = N) := by omega
  refine ⟨h.toSilent.next d hok hi h.start, ?_, ?_, ?_, hN.le, ?_, ?_, ?_, ?_, by simp⟩
  · simp [M00.exec, hi, h.state, hp]
  · simp [M00.exec, hi, h.state, hp, h.start]
  · simp [M00.exec, hi, h.state, hp, h.issued]
  · simp [M00.nextWriteIndex, hclears, toIndex]
  · simp [M00.nextLastWrite, hclears, hne]
  · simp [M00.nextWritesDone, hclears, hne]
  · intro _; simp [hi, hff]

section Ready

variable {k : Nat}

theorem Ready.no_pulse (h : Ready k l) : l.m.initTxnPulse = false := by
  unfold M00.initTxnPulse
  rcases Nat.eq_zero_or_pos k with hk | hk
  · rw [h.first hk]; rfl
  · rw [(h.later hk).2, Bool.and_false]

/-- After the last write, back to rest with the written state remembered. -/
theorem Ready.next_last (hN : 0 < N) (h : Ready N l) (hok : l.allows i)
    (hi : i.aresetn = true) :
    AtRest (l.next i d) ∧ (l.next i d).m.pwmStatePrev = l.m.pwmStateInpr := by
  have hdone : l.m.writesDone = true := by simpa using h.done
  refine ⟨⟨h.toSilent.next d hok hi h.start, ?_, ?_, ?_, ?_⟩, ?_⟩
  · simp [M00.exec, hi, h.state, hdone]
  · simp [M00.exec, hi, h.state, hdone, h.start]
  · simp [M00.exec, hi, h.state, hdone, h.issued]
  · simp [(h.later hN).2]
  · simp [M00.exec, hi, h.state, hdone]

theorem Ready.next (h : Ready k l) (hk : k < N) (hok : l.allows i) (hi : i.aresetn = true) :
    Issued k (l.next i d) := by
  have hne : ¬ (k = N) := by omega
  have hlast : l.m.lastWrite = false := by simpa [hne] using h.last
  have hdone : l.m.writesDone = false := by simpa [hne] using h.done
  have hb := h.toSilent.no_answer hok hi
  have hclears := M00.clears_false hi h.no_pulse
  have hissues : l.m.issuesWrite i = true := by
    simp [M00.issuesWrite, h.awvalid, h.wvalid, hb, hlast, h.start, h.issued]
  have hindex : ¬ (l.m.writeIndex = toIndex N N) := by
    rw [h.index, toIndex_eq_iff h.count]
    exact hne
  refine ⟨h.toSilent.next d hok hi h.start, ?_, ?_, ?_, hk, ?_, ?_, ?_, ?_, ?_⟩
  · simp [M00.exec, hi, h.state, hdone, hissues]
  · simp [M00.exec, hi, h.state, hdone, hissues]
  · simp [M00.exec, hi, h.state, hdone, hissues]
  · simp [M00.nextWriteIndex, hclears, h.start, h.index]
  · simp [M00.nextLastWrite, hclears, hindex, hlast]
  · simp [M00.nextWritesDone, hclears, hlast, hdone]
  · rw [next_m, M00.next_initAxiTxn, M00.nextInitAxiTxn_busy _ (by simp [h.state])]
  · intro hpos; simp [(h.later hpos).1]

end Ready

section Issued

variable {k : Nat}

theorem Issued.next_out (h : Issued k l) (hok : l.allows i) (hi : i.aresetn = true) :
    (l.next i d).out = .empty := by
  rw [Link.next_out _ _ _ hi]
  simp [awBeat, wBeat, h.awvalid, h.wvalid, h.bready, h.out, h.toSilent.no_answer hok hi,
    Outstanding.next, Outstanding.accept, Outstanding.empty]

theorem Issued.next (h : Issued k l) (hok : l.allows i) (hi : i.aresetn = true)
    (hp : l.m.initTxnPulse = false) : UnderWay (k + 1) (l.next i d) := by
  have hb := h.toSilent.no_answer hok hi
  have hclears := M00.clears_false hi hp
  have hissues : l.m.issuesWrite i = false := by simp [M00.issuesWrite, h.start]
  have hindex : ¬ (l.m.writeIndex = toIndex N N) := by
    rw [h.index, toIndex_eq_iff h.count.le]
    exact h.count.ne
  have hout := h.next_out d hok hi
  have hlast : (l.next i d).m.lastWrite = false := by
    simp [M00.nextLastWrite, hclears, hindex, h.last]
  have haw : (l.next i d).m.axiAwvalid = true := by simp [M00.nextAwvalid, hclears, h.start]
  refine ⟨?_, ?_, ?_, by omega, h.count, ?_, ?_, ?_, ?_, ?_, ?_, ?_, ?_, ?_, ?_⟩
  · simp [M00.exec, hi, h.state, h.done, hissues, h.bready]
  · simp [M00.exec, hi, h.state, h.done, hissues, h.bready]
  · simp [M00.exec, hi, h.state, h.done, hissues, h.bready, h.issued]
  · rw [← toIndex_succ]
    simp [M00.nextWriteIndex, hclears, h.start, h.index]
  · rw [hout, haw]; rfl
  · rw [hout]
    simp [M00.nextWvalid, hclears, h.start, Outstanding.empty]
  · rw [hout]
    intro hbv
    exact absurd hbv (by simp [Outstanding.empty])
  · rw [hout]
    simp [M00.nextBready, hclears, hb, h.bready, Outstanding.empty]
  · rw [hlast]
    intro habs
    exact absurd habs (by simp)
  · rw [haw]
    intro _ habs
    exact absurd habs (by simp)
  · simp [M00.nextWritesDone, hclears, h.last, h.done]
  · rw [next_m, M00.next_initAxiTxn, M00.nextInitAxiTxn_busy _ (by simp [h.state])]
  · simp [h.txn]

/-- The valids that were to rise are cleared instead. -/
theorem Issued.next_pulse (h : Issued k l) (hok : l.allows i) (hi : i.aresetn = true)
    (hp : l.m.initTxnPulse = true) : Stuck (l.next i d) := by
  have hclears : l.m.clears i = true := by simp [M00.clears, hp]
  have hissues : l.m.issuesWrite i = false := by simp [M00.issuesWrite, h.start]
  refine ⟨⟨?_, ?_, ?_, h.next_out d hok hi⟩, ?_, ?_, ?_, ?_, ?_, ?_, ?_, ?_⟩
  · simp [M00.nextAwvalid, hclears]
  · simp [M00.nextWvalid, hclears]
  · simp [M00.nextBready, hclears]
  · simp [M00.exec, hi, h.state, h.done, hissues, h.bready]
  · simp [M00.exec, hi, h.state, h.done, hissues, h.bready]
  · simp [M00.exec, hi, h.state, h.done, hissues, h.bready, h.issued]
  · simp [M00.nextWriteIndex, hclears, toIndex]
  · simp [M00.nextLastWrite, hclears]
  · simp [M00.nextWritesDone, hclears]
  · rw [next_m, M00.next_initAxiTxn, M00.nextInitAxiTxn_busy _ (by simp [h.state])]
  · simp [h.txn]

end Issued

section UnderWay

variable {k : Nat}

theorem UnderWay.no_pulse (h : UnderWay k l) : l.m.initTxnPulse = false := by
  simp [M00.initTxnPulse, h.ff]

theorem UnderWay.not_issues (h : UnderWay k l) : l.m.issuesWrite i = false := by
  simp [M00.issuesWrite, h.issued]

/-- There is an answer only when both beats have been taken. -/
theorem UnderWay.valids_of_answer (h : UnderWay k l) (hbready : l.m.axiBready = true) :
    l.m.axiAwvalid = false ∧ l.m.axiWvalid = false := by
  obtain ⟨hoaw, how⟩ := h.answer (h.bready ▸ hbready)
  have haddress := h.address
  have hdata := h.data
  rw [hoaw] at haddress
  rw [how] at hdata
  exact ⟨Bool.toNat_eq_zero.mp (by omega), Bool.toNat_eq_zero.mp (by omega)⟩

/-- The address stays on offer until it is taken. -/
theorem UnderWay.next_axiAwvalid (h : UnderWay k l) (hi : i.aresetn = true) :
    (l.next i d).m.axiAwvalid = (l.m.axiAwvalid && !i.awready) := by
  simp only [next_m, M00.next_axiAwvalid, M00.nextAwvalid, M00.clears_false hi h.no_pulse,
    h.start]
  cases l.m.axiAwvalid <;> cases i.awready <;> rfl

/-- The data stays on offer until it is taken. -/
theorem UnderWay.next_axiWvalid (h : UnderWay k l) (hi : i.aresetn = true) :
    (l.next i d).m.axiWvalid = (l.m.axiWvalid && !i.wready) := by
  simp only [next_m, M00.next_axiWvalid, M00.nextWvalid, M00.clears_false hi h.no_pulse,
    h.start]
  cases l.m.axiWvalid <;> cases i.wready <;> rfl

/-- While the write is not answered it stays under way. -/
theorem UnderWay.next_wait (h : UnderWay k l) (hok : l.allows i) (hi : i.aresetn = true)
    (hbready : l.m.axiBready = false) : UnderWay k (l.next i d) := by
  have hclears := M00.clears_false hi h.no_pulse
  have hissues := h.not_issues (i := i)
  obtain ⟨hanswer, -⟩ := hok hi
  have hobv : l.out.bvalid = false := by rw [← h.bready, hbready]
  have haw := h.next_axiAwvalid d hi
  have hw := h.next_axiWvalid d hi
  have hlast : (l.next i d).m.lastWrite
      = (decide (k = N ∧ i.awready = true) || l.m.lastWrite) := by
    simp only [next_m, M00.next_lastWrite, M00.nextLastWrite, hclears, h.index,
      toIndex_eq_iff h.count]
    by_cases hc : k = N ∧ i.awready = true <;> simp [hc]
  have haddress := h.address
  have hdata := h.data
  have hawbeat := taken_add_offered l.m.axiAwvalid i.awready
  have hwbeat := taken_add_offered l.m.axiWvalid i.wready
  refine ⟨?_, ?_, ?_, h.pos, h.count, ?_, ?_, ?_, ?_, ?_, ?_, ?_, ?_, ?_, ?_⟩
  · simp [M00.exec, hi, h.state, h.done, hissues, hbready]
  · simp [M00.exec, hi, h.state, h.done, hissues, hbready]
  · simp [M00.exec, hi, h.state, h.done, hissues, hbready, h.issued]
  · simp [M00.nextWriteIndex, hclears, h.start, h.index]
  · rw [haw, next_out _ _ _ hi, Outstanding.next_aw, hbready, Bool.and_false, Bool.toNat_false]
    unfold awBeat
    omega
  · rw [hw, next_out _ _ _ hi, Outstanding.next_w, hbready, Bool.and_false, Bool.toNat_false]
    unfold wBeat
    omega
  · rw [next_out _ _ _ hi, Outstanding.next_bvalid, Outstanding.next_aw, Outstanding.next_w,
      hbready]
    intro hb
    have hb' : i.bvalid = true := by simpa using hb
    obtain ⟨hpaw, hpw⟩ := hanswer hb'
    simp only [Outstanding.accept, awBeat, wBeat] at hpaw hpw
    simp only [awBeat, wBeat, Bool.and_false, Bool.toNat_false]
    omega
  · rw [next_out _ _ _ hi, Outstanding.next_bvalid]
    simp [M00.nextBready, hclears, hbready]
  · rw [hlast]
    intro hl
    rcases Bool.or_eq_true _ _ ▸ hl with hl | hl
    · exact (of_decide_eq_true hl).1
    · exact h.last hl
  · rw [haw, hlast]
    intro hk hv
    by_cases hawv : l.m.axiAwvalid = true
    · have hready : i.awready = true := by simpa [hawv] using hv
      simp [hk, hready]
    · simp [h.accepted hk (by simpa using hawv)]
  · simp [M00.nextWritesDone, hclears, hbready, h.done]
  · rw [next_m, M00.next_initAxiTxn, M00.nextInitAxiTxn_busy _ (by simp [h.state])]
  · simp [h.txn]

/-- The answer is taken, and with it both beats are accounted for. -/
theorem UnderWay.next_answer (h : UnderWay k l) (hok : l.allows i) (hi : i.aresetn = true)
    (hbready : l.m.axiBready = true) : Ready k (l.next i d) := by
  have hclears := M00.clears_false hi h.no_pulse
  have hissues := h.not_issues (i := i)
  have hb : i.bvalid = true := (hok hi).2 (h.bready ▸ hbready)
  obtain ⟨hoaw, how⟩ := h.answer (h.bready ▸ hbready)
  obtain ⟨haw, hw⟩ := h.valids_of_answer hbready
  have hlast : l.m.lastWrite = decide (k = N) := by
    by_cases hk : k = N
    · simp [h.accepted hk haw, hk]
    · have hnot : ¬ l.m.lastWrite = true := fun hl => hk (h.last hl)
      simpa [hk] using hnot
  refine ⟨⟨?_, ?_, ?_, ?_⟩, ?_, ?_, ?_, h.count, ?_, ?_, ?_, ?_, ?_⟩
  · simp [M00.nextAwvalid, hclears, h.start, haw]
  · simp [M00.nextWvalid, hclears, h.start, hw]
  · simp [M00.nextBready, hclears, hbready]
  · rw [next_out _ _ _ hi]
    simp [awBeat, wBeat, haw, hw, hb, hbready, Outstanding.next, Outstanding.accept, hoaw, how,
      Outstanding.empty]
  · simp [M00.exec, hi, h.state, h.done, hissues, hbready]
  · simp [M00.exec, hi, h.state, h.done, hissues, hbready, h.start]
  · simp [M00.exec, hi, h.state, h.done, hissues, hbready]
  · simp [M00.nextWriteIndex, hclears, h.start, h.index]
  · simp only [next_m, M00.next_lastWrite, M00.nextLastWrite, hclears, h.index,
      toIndex_eq_iff h.count, hlast]
    by_cases hk : k = N <;> simp [hk]
  · simp only [next_m, M00.next_writesDone, M00.nextWritesDone, hclears, hlast, hb, hbready,
      h.done]
    by_cases hk : k = N <;> simp [hk]
  · intro hk
    exact absurd h.pos (by omega)
  · intro _
    rw [next_m, M00.next_initAxiTxn, M00.nextInitAxiTxn_busy _ (by simp [h.state])]
    simp [h.txn]

end UnderWay

/-- Nothing but a reset ends it. -/
theorem Stuck.next (hN : 0 < N) (h : Stuck l) (hok : l.allows i) (hi : i.aresetn = true) :
    Stuck (l.next i d) := by
  have hp : l.m.initTxnPulse = false := by simp [M00.initTxnPulse, h.ff]
  have hclears := M00.clears_false hi hp
  have hissues : l.m.issuesWrite i = false := by simp [M00.issuesWrite, h.issued]
  have hindex : ¬ (l.m.writeIndex = toIndex N N) := by
    rw [h.index, toIndex_eq_iff hN.le]
    exact hN.ne
  refine ⟨h.toSilent.next d hok hi h.start, ?_, ?_, ?_, ?_, ?_, ?_, ?_, ?_⟩
  · simp [M00.exec, hi, h.state, h.done, hissues, h.bready]
  · simp [M00.exec, hi, h.state, h.done, hissues, h.bready]
  · simp [M00.exec, hi, h.state, h.done, hissues, h.bready, h.issued]
  · simp [M00.nextWriteIndex, hclears, h.start, h.index]
  · simp [M00.nextLastWrite, hclears, hindex, h.last]
  · simp [M00.nextWritesDone, hclears, h.last, h.done]
  · rw [next_m, M00.next_initAxiTxn, M00.nextInitAxiTxn_busy _ (by simp [h.state])]
  · simp [h.txn]

/-! ### All phases together -/

/-- Any phase but the one without a way out. -/
def Flowing (l : Link N) : Prop :=
  AtRest l ∨ ∃ k, Ready k l ∨ Issued k l ∨ UnderWay k l

/-- The pulse clears the handshake registers in the middle of a burst. -/
def pulseInBurst (l : Link N) (i : M00In) : Prop :=
  i.aresetn = true ∧ l.m.mstExecState = .initWrite ∧ l.m.initTxnPulse = true

instance : Decidable (l.pulseInBurst i) := inferInstanceAs (Decidable (_ ∧ _ ∧ _))

theorem Flowing.next (hN : 0 < N) (h : Flowing l) (hok : l.allows i)
    (hp : ¬ l.pulseInBurst i) : Flowing (l.next i d) := by
  cases hi : i.aresetn with
  | false => exact Or.inl (atRest_of_reset d l hi)
  | true =>
      rcases h with h | ⟨k, h | h | h⟩
      · by_cases hpulse : l.m.initTxnPulse = true
        · exact Or.inr ⟨0, Or.inl (h.next_pulse d hN hok hi hpulse)⟩
        · exact Or.inl (h.next d hok hi (by simpa using hpulse))
      · rcases Nat.lt_or_eq_of_le h.count with hk | rfl
        · exact Or.inr ⟨k, Or.inr (Or.inl (h.next d hk hok hi))⟩
        · exact Or.inl (h.next_last d hN hok hi).1
      · have hpulse : l.m.initTxnPulse = false := by
          by_contra hc
          exact hp ⟨hi, h.state, by simpa using hc⟩
        exact Or.inr ⟨k + 1, Or.inr (Or.inr (h.next d hok hi hpulse))⟩
      · by_cases hb : l.m.axiBready = true
        · exact Or.inr ⟨k, Or.inl (h.next_answer d hok hi hb)⟩
        · exact Or.inr ⟨k, Or.inr (Or.inr (h.next_wait d hok hi (by simpa using hb)))⟩

/-- A pulse in a burst finds a write just issued. -/
theorem Flowing.next_pulse (h : Flowing l) (hok : l.allows i) (hp : l.pulseInBurst i) :
    Stuck (l.next i d) := by
  obtain ⟨hi, hstate, hpulse⟩ := hp
  rcases h with h | ⟨k, h | h | h⟩
  · exact absurd (h.state.symm.trans hstate) (by simp)
  · exact absurd (h.no_pulse.symm.trans hpulse) (by simp)
  · exact h.next_pulse d hok hi hpulse
  · exact absurd (h.no_pulse.symm.trans hpulse) (by simp)

/-- Every phase leads to a phase, whatever the edge detector does. -/
theorem reached_next (hN : 0 < N) (h : Flowing l ∨ Stuck l) (hok : l.allows i) :
    Flowing (l.next i d) ∨ Stuck (l.next i d) := by
  rcases h with h | h
  · by_cases hp : l.pulseInBurst i
    · exact Or.inr (h.next_pulse d hok hp)
    · exact Or.inl (h.next d hN hok hp)
  · cases hi : i.aresetn with
    | false => exact Or.inl (Or.inl (atRest_of_reset d l hi))
    | true => exact Or.inr (h.next d hN hok hi)

end Link

end CanBench.Coprocessor
