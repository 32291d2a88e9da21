/-
What a burst writes.

`Watched` is the master with an observer beside it, who notes the beats the slave accepts
and the values of `pwm_state_i` seen so far, and files them as a `Burst` each time
`INIT_WRITE` ends.  While the words to write stay the same, every burst filed has its
full number of beats, all with the word of one PWM state that was seen before the first
of them and is not the state of the burst before.  So at rest the word last written is
that of the state last remembered.

The invariant puts the observer's notes beside the phase of the burst: `k` writes
answered means `k` beats noted on each channel, and under way means one more on the
channels that have been accepted.  The state being written cannot change after the first
beat, as `pwm_state_inpr` is frozen outside `IDLE`; in `IDLE` it may be sampled again, and
then each time differs from the state written before.
-/
import CanBench.Coprocessor.System

namespace CanBench.Coprocessor

open Lib

/-! ### The observer -/

/-- The address and the words of `pwm_wr_addr` and `pwm_wr0..2`. -/
structure PwmWords where
  addr : BitVec 32
  wr0 : BitVec 32
  wr1 : BitVec 32
  wr2 : BitVec 32

def PwmWords.select (c : PwmWords) (pwmState : BitVec 2) : BitVec 32 :=
  pwmSelect pwmState c.wr0 c.wr1 c.wr2

/-- A completed burst: `pwm_state_i` at the clock edges before its first beat, the beats
accepted, and what `pwm_state_prev` became. -/
structure Burst where
  seen : List (BitVec 2)
  addresses : List (BitVec 32)
  words : List (BitVec 32)
  state : BitVec 2
deriving DecidableEq

/-- The master, the notes on the current burst, and all that was noted since reset. -/
structure Watched (N : Nat) where
  link : Link N
  seen : List (BitVec 2)
  addresses : List (BitVec 32)
  words : List (BitVec 32)
  bursts : List Burst
  written : List (BitVec 32)

namespace Watched

variable {N : Nat} (w : Watched N) (i : M00In) (d : BitVec 32)

def newAddress : List (BitVec 32) := if w.link.awBeat i then [M00.awaddr i] else []

def newWord : List (BitVec 32) := if w.link.wBeat i then [w.link.m.wdata i] else []

/-- Up to and including this edge, unless it has, or follows, a beat. -/
def nextSeen : List (BitVec 2) :=
  if w.addresses ++ w.newAddress i = [] ∧ w.words ++ w.newWord i = [] then
    w.seen ++ [i.pwmStateI]
  else w.seen

/-- `INIT_WRITE` ends at this edge. -/
def completes : Bool :=
  w.link.m.mstExecState == .initWrite && (w.link.next i d).m.mstExecState == .idle

def next : Watched N :=
  if !i.aresetn then
    { link := w.link.next i d, seen := [], addresses := [], words := [], bursts := [],
      written := [] }
  else if w.completes i d then
    { link := w.link.next i d, seen := [], addresses := [], words := []
      bursts := w.bursts ++ [{ seen := w.nextSeen i
                               addresses := w.addresses ++ w.newAddress i
                               words := w.words ++ w.newWord i
                               state := (w.link.next i d).m.pwmStatePrev }]
      written := w.written ++ w.newWord i }
  else
    { link := w.link.next i d, seen := w.nextSeen i
      addresses := w.addresses ++ w.newAddress i, words := w.words ++ w.newWord i
      bursts := w.bursts, written := w.written ++ w.newWord i }

end Watched

/-- `i` carries the words of `c`. -/
def PwmWords.carriedBy (c : PwmWords) (i : M00In) : Prop :=
  i.pwmWrAddr = c.addr ∧ i.pwmWr0 = c.wr0 ∧ i.pwmWr1 = c.wr1 ∧ i.pwmWr2 = c.wr2

instance (c : PwmWords) (i : M00In) : Decidable (c.carriedBy i) :=
  inferInstanceAs (Decidable (_ ∧ _ ∧ _ ∧ _))

/-- Runs of the master from a reset, with constant words and any waveform of
`pwm_state_i` and `pwm_enabled_i`. -/
def burstSystem (N : Nat) (startDataValue : BitVec 32) (c : PwmWords) :
    System (Watched N) M00In where
  init := fun w => ∃ w₀ i, i.aresetn = false ∧ w = Watched.next w₀ i startDataValue
  allowed := fun w i => w.link.allows i ∧ c.carriedBy i
  next := fun w i => w.next i startDataValue

namespace Watched

variable {N : Nat} {w : Watched N} {i : M00In} {c : PwmWords} (d : BitVec 32)

/-! ### One edge of the observer -/

theorem next_link (w : Watched N) (i : M00In) : (w.next i d).link = w.link.next i d := by
  unfold next
  by_cases hi : (!i.aresetn) = true
  · rw [if_pos hi]
  · rw [if_neg hi]
    by_cases hc : w.completes i d = true
    · rw [if_pos hc]
    · rw [if_neg hc]

theorem next_of_incomplete (hi : i.aresetn = true) (hc : w.completes i d = false) :
    w.next i d =
      { link := w.link.next i d, seen := w.nextSeen i
        addresses := w.addresses ++ w.newAddress i, words := w.words ++ w.newWord i
        bursts := w.bursts, written := w.written ++ w.newWord i } := by
  simp [next, hi, hc]

theorem newAddress_eq (hc : c.carriedBy i) :
    w.newAddress i = List.replicate (w.link.awBeat i).toNat c.addr := by
  unfold newAddress M00.awaddr
  rw [hc.1]
  cases w.link.awBeat i <;> rfl

theorem newWord_eq (hc : c.carriedBy i) :
    w.newWord i
      = List.replicate (w.link.wBeat i).toNat (c.select w.link.m.pwmStateInpr) := by
  obtain ⟨-, h0, h1, h2⟩ := hc
  unfold newWord M00.wdata PwmWords.select
  rw [h0, h1, h2]
  cases w.link.wBeat i <;> rfl

theorem mem_nextSeen {st : BitVec 2} (h : st ∈ w.seen) : st ∈ w.nextSeen i := by
  unfold nextSeen
  by_cases hnone : w.addresses ++ w.newAddress i = [] ∧ w.words ++ w.newWord i = []
  · rw [if_pos hnone]
    exact List.mem_append_left _ h
  · rw [if_neg hnone]
    exact h

theorem completes_true (h : w.link.m.mstExecState = .initWrite)
    (h' : (w.link.next i d).m.mstExecState = .idle) : w.completes i d = true := by
  unfold completes
  rw [h, h']
  rfl

theorem completes_false (h : (w.link.next i d).m.mstExecState = .initWrite) :
    w.completes i d = false := by
  unfold completes
  rw [h]
  exact Bool.and_false _

/-- Nothing is accepted from a silent master. -/
theorem no_beats (h : w.link.Silent) : w.newAddress i = [] ∧ w.newWord i = [] := by
  simp [newAddress, newWord, Link.awBeat, Link.wBeat, h.awvalid, h.wvalid]

/-! ### The invariant -/

/-- The record so far: every burst wrote one state, no two in a row the same, and
`pwm_state_prev` is the state of the last. -/
structure Record (c : PwmWords) (w : Watched N) : Prop where
  beats : ∀ b ∈ w.bursts, b.addresses = List.replicate N c.addr ∧
    b.words = List.replicate N (c.select b.state) ∧ b.state ∈ b.seen
  changes : List.IsChain (· ≠ ·) (0#2 :: w.bursts.map Burst.state)
  prev : (0#2 :: w.bursts.map Burst.state).getLast? = some w.link.m.pwmStatePrev
  written : w.written = (w.bursts.map Burst.words).flatten ++ w.words

/-- The state about to be written is a new one, and one that was seen. -/
def Chosen (w : Watched N) : Prop :=
  w.link.m.pwmStateInpr ≠ w.link.m.pwmStatePrev ∧ w.link.m.pwmStateInpr ∈ w.seen

/-- As many beats have been noted as the two counts say. -/
def Noted (c : PwmWords) (w : Watched N) (aw wd : Nat) : Prop :=
  w.addresses = List.replicate aw c.addr ∧
    w.words = List.replicate wd (c.select w.link.m.pwmStateInpr)

/-- The phase of the burst with the notes on it. -/
inductive Current (c : PwmWords) (w : Watched N) : Prop
  | rest (h : w.link.AtRest) (n : w.Noted c 0 0)
      (requested : w.link.m.initAxiTxn = true ∨ w.link.m.initTxnFf = true → w.Chosen)
  | ready (k : Nat) (h : w.link.Ready k) (n : w.Noted c k k) (chosen : w.Chosen)
  | issued (k : Nat) (h : w.link.Issued k) (n : w.Noted c k k) (chosen : w.Chosen)
  | underWay (k : Nat) (h : w.link.UnderWay (k + 1))
      (n : w.Noted c (k + w.link.out.aw) (k + w.link.out.w)) (chosen : w.Chosen)
  | stuck (h : w.link.Stuck)

/-- In `IDLE` no beat is noted for a burst. -/
theorem Current.words_of_idle (h : Current c w) (hidle : w.link.m.mstExecState = .idle) :
    w.words = [] := by
  have hbusy (hs : w.link.m.mstExecState = .initWrite) : w.words = [] :=
    absurd (hs.symm.trans hidle) (by simp)
  cases h with
  | rest _ n _ => exact n.2
  | ready _ h _ _ => exact hbusy h.state
  | issued _ h _ _ => exact hbusy h.state
  | underWay _ h _ _ => exact hbusy h.state
  | stuck h => exact hbusy h.state

/-! ### One edge of the record -/

theorem record_of_reset (w : Watched N) (hi : i.aresetn = false) :
    Record c (w.next i d) := by
  refine ⟨?_, ?_, ?_, ?_⟩ <;> simp [next, hi, M00.exec]

theorem current_of_reset (w : Watched N) (hi : i.aresetn = false) :
    Current c (w.next i d) := by
  have hrest : (w.next i d).link.AtRest := by
    rw [next_link]
    exact Link.atRest_of_reset d w.link hi
  refine .rest hrest ?_ ?_
  · simp [Noted, next, hi]
  · rw [next_link]
    simp [hi, M00.nextInitAxiTxn]

/-- While no burst ends the record grows by the words written only. -/
theorem Record.next (h : Record c w) (hi : i.aresetn = true) (hc : w.completes i d = false)
    (hprev : (w.link.next i d).m.pwmStatePrev = w.link.m.pwmStatePrev) :
    Record c (w.next i d) := by
  rw [next_of_incomplete d hi hc]
  refine ⟨h.beats, h.changes, ?_, ?_⟩
  · rw [hprev]
    exact h.prev
  · simp [h.written]

/-- A burst that ends adds itself to the record. -/
theorem Record.next_complete (h : Record c w) (hok : w.link.allows i) (hi : i.aresetn = true)
    (hN : 0 < N) (hready : w.link.Ready N) (n : w.Noted c N N)
    (chosen : w.Chosen) : Record c (w.next i d) := by
  obtain ⟨hrest, hprev⟩ := hready.next_last d hN hok hi
  have hc := completes_true d hready.state hrest.state
  obtain ⟨ha, hw⟩ := no_beats (i := i) hready.toSilent
  obtain ⟨hna, hnw⟩ := n
  have hnext : w.next i d =
      { link := w.link.next i d, seen := [], addresses := [], words := []
        bursts := w.bursts ++ [⟨w.nextSeen i, w.addresses, w.words, w.link.m.pwmStateInpr⟩]
        written := w.written } := by
    rw [← hprev]
    simp [Watched.next, hi, hc, ha, hw]
  rw [hnext]
  refine ⟨?_, ?_, ?_, ?_⟩
  · intro b hb
    rcases List.mem_append.mp hb with hb | hb
    · exact h.beats b hb
    · obtain rfl := List.mem_singleton.mp hb
      exact ⟨hna, hnw, mem_nextSeen chosen.2⟩
  · rw [List.map_append, ← List.cons_append, List.isChain_append]
    refine ⟨h.changes, by simp, ?_⟩
    intro st hst st' hst'
    obtain rfl : w.link.m.pwmStatePrev = st := by simpa [h.prev] using hst
    obtain rfl : w.link.m.pwmStateInpr = st' := by simpa using hst'
    exact chosen.1.symm
  · rw [List.map_append, ← List.cons_append, List.getLast?_append]
    simpa using hprev.symm
  · simp [h.written]

/-! ### One edge of the notes -/

/-- Notes on an edge at which no burst ends, with the beats of that edge. -/
theorem Noted.next {aw wd : Nat} (n : w.Noted c aw wd) (hcar : c.carriedBy i)
    (hi : i.aresetn = true) (hc : w.completes i d = false)
    (hst : (w.link.next i d).m.pwmStateInpr = w.link.m.pwmStateInpr) :
    (w.next i d).Noted c (aw + (w.link.awBeat i).toNat) (wd + (w.link.wBeat i).toNat) := by
  obtain ⟨ha, hw⟩ := n
  rw [next_of_incomplete d hi hc]
  unfold Noted
  refine ⟨?_, ?_⟩
  · show w.addresses ++ w.newAddress i = _
    rw [ha, newAddress_eq hcar, List.replicate_append_replicate]
  · show w.words ++ w.newWord i = List.replicate _ (c.select (w.link.next i d).m.pwmStateInpr)
    rw [hw, newWord_eq hcar, hst, List.replicate_append_replicate]

theorem Chosen.next (h : w.Chosen) (hi : i.aresetn = true) (hc : w.completes i d = false)
    (hst : (w.link.next i d).m.pwmStateInpr = w.link.m.pwmStateInpr)
    (hprev : (w.link.next i d).m.pwmStatePrev = w.link.m.pwmStatePrev) :
    (w.next i d).Chosen := by
  rw [next_of_incomplete d hi hc]
  unfold Chosen
  simp only [hst, hprev]
  exact ⟨h.1, mem_nextSeen h.2⟩

/-- In `IDLE` the state about to be written is the old choice or the value just seen. -/
theorem chosen_of_rest (h : w.link.AtRest) (n : w.Noted c 0 0) (hi : i.aresetn = true)
    (hc : w.completes i d = false)
    (requested : w.link.m.initAxiTxn = true ∨ w.link.m.initTxnFf = true → w.Chosen)
    (hprev : (w.link.next i d).m.pwmStatePrev = w.link.m.pwmStatePrev)
    (hnow : (w.link.m.nextInitAxiTxn i).1 = true ∨
      w.link.m.initAxiTxn = true ∨ w.link.m.initTxnFf = true) : (w.next i d).Chosen := by
  obtain ⟨ha, hw⟩ := no_beats (i := i) h.toSilent
  obtain ⟨hna, hnw⟩ := n
  have hseen : w.nextSeen i = w.seen ++ [i.pwmStateI] := by
    simp [nextSeen, ha, hw, hna, hnw]
  have hgoal : (w.next i d).Chosen ↔
      (w.link.m.nextInitAxiTxn i).2 ≠ w.link.m.pwmStatePrev ∧
        (w.link.m.nextInitAxiTxn i).2 ∈ w.seen ++ [i.pwmStateI] := by
    rw [next_of_incomplete d hi hc]
    unfold Chosen
    simp only [hprev, hseen]
    rfl
  rw [hgoal]
  unfold M00.nextInitAxiTxn at hnow ⊢
  by_cases hen : (!i.aresetn || !i.pwmEnabledI) = true
  · rw [if_pos hen] at hnow ⊢
    obtain ⟨hne, hmem⟩ := requested (hnow.resolve_left (by simp))
    exact ⟨hne, List.mem_append_left _ hmem⟩
  · rw [if_neg hen] at hnow ⊢
    by_cases hsame : w.link.m.pwmStatePrev = i.pwmStateI ∨ w.link.m.mstExecState ≠ .idle
    · rw [if_pos hsame] at hnow ⊢
      obtain ⟨hne, hmem⟩ := requested (hnow.resolve_left (by simp))
      exact ⟨hne, List.mem_append_left _ hmem⟩
    · rw [if_neg hsame]
      rw [not_or] at hsame
      exact ⟨fun heq => hsame.1 heq.symm, by simp⟩

/-! ### The step -/

/-- In the middle of a burst neither the state being written nor the one before changes. -/
theorem frozen (hi : i.aresetn = true) (hstate : w.link.m.mstExecState = .initWrite)
    (hdone : w.link.m.writesDone = false) :
    (w.link.next i d).m.pwmStateInpr = w.link.m.pwmStateInpr ∧
      (w.link.next i d).m.pwmStatePrev = w.link.m.pwmStatePrev := by
  rw [Link.next_m, M00.next_pwmStateInpr, M00.next_pwmStatePrev,
    M00.nextInitAxiTxn_busy _ (by simp [hstate]), M00.exec_pwmStatePrev hi fun _ => hdone]
  exact ⟨rfl, rfl⟩

section Step

variable (hrec : Record c w) (hok : w.link.allows i) (hcar : c.carriedBy i)
  (hi : i.aresetn = true)
include hrec hok hi

theorem rest_next (hN : 0 < N) (h : w.link.AtRest) (n : w.Noted c 0 0)
    (requested : w.link.m.initAxiTxn = true ∨ w.link.m.initTxnFf = true → w.Chosen) :
    Record c (w.next i d) ∧ Current c (w.next i d) := by
  have hc : w.completes i d = false := by simp [completes, h.state]
  have hprev : (w.link.next i d).m.pwmStatePrev = w.link.m.pwmStatePrev := by
    refine M00.exec_pwmStatePrev hi fun hs => ?_
    exact absurd (h.state.symm.trans hs) (by simp)
  have hnoted : (w.next i d).Noted c 0 0 := by
    obtain ⟨ha, hw⟩ := no_beats (i := i) h.toSilent
    rw [next_of_incomplete d hi hc]
    simp [Noted, ha, hw, n.1, n.2]
  refine ⟨hrec.next d hi hc hprev, ?_⟩
  by_cases hp : w.link.m.initTxnPulse = true
  · have hff : w.link.m.initTxnFf = true := by simpa [M00.initTxnPulse, h.ff2] using hp
    exact .ready 0 (next_link d w i ▸ h.next_pulse d hN hok hi hp) hnoted
      (chosen_of_rest d h n hi hc requested hprev (Or.inr (Or.inr hff)))
  · refine .rest (next_link d w i ▸ h.next d hok hi (by simpa using hp)) hnoted ?_
    rw [next_link]
    intro hreq
    refine chosen_of_rest d h n hi hc requested hprev ?_
    simp only [Link.next_m, M00.next_initAxiTxn, M00.next_initTxnFf, hi,
      Bool.true_and] at hreq
    rcases hreq with hreq | hreq
    · exact Or.inl hreq
    · exact Or.inr (Or.inl hreq)

/-- After the last write the burst is filed and the notes are empty again. -/
theorem last_next (hN : 0 < N) (h : w.link.Ready N) (n : w.Noted c N N) (chosen : w.Chosen) :
    Record c (w.next i d) ∧ Current c (w.next i d) := by
  obtain ⟨hrest, -⟩ := h.next_last d hN hok hi
  have hc := completes_true d h.state hrest.state
  refine ⟨hrec.next_complete d hok hi hN h n chosen, .rest (next_link d w i ▸ hrest) ?_ ?_⟩
  · simp [Noted, next, hi, hc]
  · rw [next_link]
    obtain ⟨htxn, hff⟩ := h.later hN
    simp [hi, htxn, M00.nextInitAxiTxn_busy i (s := w.link.m) (by simp [h.state])]

include hcar

theorem ready_next {k : Nat} (hk : k < N) (h : w.link.Ready k) (n : w.Noted c k k)
    (chosen : w.Chosen) : Record c (w.next i d) ∧ Current c (w.next i d) := by
  have hdone : w.link.m.writesDone = false := by
    rw [h.done]
    exact decide_eq_false (by omega)
  have hnext := h.next d hk hok hi
  have hc := completes_false d hnext.state
  obtain ⟨hst, hprev⟩ := frozen d hi h.state hdone
  refine ⟨hrec.next d hi hc hprev,
    .issued k (next_link d w i ▸ hnext) ?_ (chosen.next d hi hc hst hprev)⟩
  have hn := n.next d hcar hi hc hst
  simpa [Link.awBeat, Link.wBeat, h.awvalid, h.wvalid] using hn

theorem issued_next {k : Nat} (h : w.link.Issued k) (n : w.Noted c k k) (chosen : w.Chosen) :
    Record c (w.next i d) ∧ Current c (w.next i d) := by
  obtain ⟨hst, hprev⟩ := frozen d hi h.state h.done
  by_cases hp : w.link.m.initTxnPulse = true
  · have hnext := h.next_pulse d hok hi hp
    exact ⟨hrec.next d hi (completes_false d hnext.state) hprev,
      .stuck (next_link d w i ▸ hnext)⟩
  · have hnext := h.next d hok hi (by simpa using hp)
    have hc := completes_false d hnext.state
    refine ⟨hrec.next d hi hc hprev,
      .underWay k (next_link d w i ▸ hnext) ?_ (chosen.next d hi hc hst hprev)⟩
    rw [next_link, h.next_out d hok hi]
    have hn := n.next d hcar hi hc hst
    simpa [Link.awBeat, Link.wBeat, h.awvalid, h.wvalid, Outstanding.empty] using hn

/-- The beats counted by the slave become beats noted for the burst with the answer. -/
theorem underWay_next {k : Nat} (h : w.link.UnderWay (k + 1))
    (n : w.Noted c (k + w.link.out.aw) (k + w.link.out.w)) (chosen : w.Chosen) :
    Record c (w.next i d) ∧ Current c (w.next i d) := by
  obtain ⟨hst, hprev⟩ := frozen d hi h.state h.done
  cases hb : w.link.m.axiBready with
  | true =>
      have hnext := h.next_answer d hok hi hb
      have hc := completes_false d hnext.state
      refine ⟨hrec.next d hi hc hprev,
        .ready (k + 1) (next_link d w i ▸ hnext) ?_ (chosen.next d hi hc hst hprev)⟩
      obtain ⟨haw, hw⟩ := h.answer (h.bready ▸ hb)
      obtain ⟨hawv, hwv⟩ := h.valids_of_answer hb
      have hn := n.next d hcar hi hc hst
      simpa [Link.awBeat, Link.wBeat, hawv, hwv, haw, hw] using hn
  | false =>
      have hnext := h.next_wait d hok hi hb
      have hc := completes_false d hnext.state
      refine ⟨hrec.next d hi hc hprev,
        .underWay k (next_link d w i ▸ hnext) ?_ (chosen.next d hi hc hst hprev)⟩
      have hn := n.next d hcar hi hc hst
      rw [next_link, Link.next_out _ _ _ hi, Outstanding.next_aw, Outstanding.next_w, hb]
      simpa [Nat.add_assoc] using hn

end Step

theorem record_current_next (hN : 0 < N) (hrec : Record c w) (hcur : Current c w)
    (hok : w.link.allows i) (hcar : c.carriedBy i) :
    Record c (w.next i d) ∧ Current c (w.next i d) := by
  cases hi : i.aresetn with
  | false => exact ⟨record_of_reset d w hi, current_of_reset d w hi⟩
  | true =>
      cases hcur with
      | rest h n requested => exact rest_next d hrec hok hi hN h n requested
      | ready k h n chosen =>
          rcases Nat.lt_or_eq_of_le h.count with hk | rfl
          · exact ready_next d hrec hok hcar hi hk h n chosen
          · exact last_next d hrec hok hi hN h n chosen
      | issued k h n chosen => exact issued_next d hrec hok hcar hi h n chosen
      | underWay k h n chosen => exact underWay_next d hrec hok hcar hi h n chosen
      | stuck h =>
          have hnext := h.next d hN hok hi
          obtain ⟨-, hprev⟩ := frozen d hi h.state h.done
          exact ⟨hrec.next d hi (completes_false d hnext.state) hprev,
            .stuck (next_link d w i ▸ hnext)⟩

/-- At rest, the word last written is that of the state last remembered. -/
theorem Record.last_written (hN : 0 < N) (hrec : Record c w) (hwords : w.words = [])
    {v : BitVec 32} (hv : v ∈ w.written.getLast?) : v = c.select w.link.m.pwmStatePrev := by
  have hwritten := hrec.written
  have hprev := hrec.prev
  rw [hwords, List.append_nil] at hwritten
  rcases List.eq_nil_or_concat' w.bursts with hnil | ⟨bs, b, hbs⟩
  · rw [hwritten, hnil] at hv
    exact absurd hv (by simp)
  · obtain ⟨-, hb, -⟩ := hrec.beats b (by simp [hbs])
    rw [hbs] at hwritten hprev
    have hstate : b.state = w.link.m.pwmStatePrev := by
      rw [List.map_append, ← List.cons_append, List.getLast?_append] at hprev
      simpa using hprev
    rw [hwritten, List.map_append, List.flatten_append, List.getLast?_append] at hv
    simp only [List.map_cons, List.map_nil, List.flatten_cons, List.flatten_nil,
      List.append_nil, hb, List.getLast?_replicate, if_neg hN.ne'] at hv
    rw [← hstate]
    simpa using hv.symm

end Watched

/-- **Every burst writes one PWM state.**  Each has exactly `N` beats, to the one address
and with the one word, of a state that was seen before the first of them and differs from
that of the burst before; and at rest the last word written is that of the current state. -/
theorem burst_writes_state {N : Nat} (hN : 0 < N) {d : BitVec 32} {c : PwmWords}
    {h : List (Watched N × M00In)} {w : Watched N} (r : Run (burstSystem N d c) h w) :
    (∀ b ∈ w.bursts, b.addresses = List.replicate N c.addr ∧
      b.words = List.replicate N (c.select b.state) ∧ b.state ∈ b.seen) ∧
    List.IsChain (· ≠ ·) (0#2 :: w.bursts.map Burst.state) ∧
    ∀ pwmStateI, w.link.m.mstExecState = .idle → w.link.m.initAxiTxn = false →
      w.link.m.initTxnFf = false → w.link.m.pwmStatePrev = pwmStateI →
      ∀ v ∈ w.written.getLast?, v = c.select pwmStateI := by
  obtain ⟨hrec, hcur⟩ : Watched.Record c w ∧ Watched.Current c w := by
    refine r.invariant (I := fun w => Watched.Record c w ∧ Watched.Current c w) ?_ ?_
    · rintro _ ⟨w₀, i, hi, rfl⟩
      exact ⟨Watched.record_of_reset d w₀ hi, Watched.current_of_reset d w₀ hi⟩
    · rintro w i ⟨hrec, hcur⟩ ⟨hok, hcar⟩
      exact Watched.record_current_next d hN hrec hcur hok hcar
  refine ⟨hrec.beats, hrec.changes, ?_⟩
  rintro _ hidle - - rfl v hv
  exact hrec.last_written hN (hcur.words_of_idle hidle) hv

/-! ### Two bursts of two writes -/

instance (N : Nat) (startDataValue : BitVec 32) (c : PwmWords) (w : Watched N) (i : M00In) :
    Decidable ((burstSystem N startDataValue c).allowed w i) :=
  inferInstanceAs (Decidable (_ ∧ _))

def twoWords : PwmWords := ⟨0x40#32, 0#32, 1#32, 2#32⟩

/-- One edge with `twoWords`; the slave takes addresses and data, and answers, as told. -/
def edge (pwmStateI : BitVec 2) (awready wready bvalid : Bool) : M00In where
  awready := awready
  wready := wready
  bresp := 0#2
  bvalid := bvalid
  arready := false
  rdata := 0#32
  rresp := 0#2
  rvalid := false
  aresetn := true
  pwmStateI := pwmStateI
  pwmEnabledI := true
  pwmWrAddr := twoWords.addr
  pwmWr0 := twoWords.wr0
  pwmWr1 := twoWords.wr1
  pwmWr2 := twoWords.wr2

def resetWatched : Watched 2 :=
  Watched.next
    { link := (resetBoard 2 0).link, seen := [], addresses := [], words := [], bursts := [],
      written := [] }
    { edge 0 false false false with aresetn := false } 0

/-- A slave that takes both beats at once and answers at the next edge. -/
def prompt : List M00In :=
  List.replicate 3 (edge 0 true true false) ++ List.replicate 2 (edge 0 true true true)

/-- The state goes to "01" and back.  In the first burst the slave takes the data first,
then the address first. -/
def upAndDown : List M00In :=
  List.replicate 5 (edge 1 false false false) ++
    [edge 1 false true false, edge 1 true false false, edge 1 false false true,
      edge 1 false false true, edge 1 false false false, edge 0 false false false,
      edge 0 true false false, edge 0 false true false, edge 0 false false true,
      edge 0 false false true] ++
    List.replicate 4 (edge 0 false false false) ++ prompt ++ prompt ++
    List.replicate 2 (edge 0 false false false)

theorem upAndDown_run : Run (burstSystem 2 0 twoWords)
    ((burstSystem 2 0 twoWords).steps resetWatched upAndDown)
    ((burstSystem 2 0 twoWords).runFrom resetWatched upAndDown) := by
  have r : Run (burstSystem 2 0 twoWords) [] resetWatched := Run.start ⟨_, _, rfl, rfl⟩
  exact System.run_of_steps _ upAndDown r (by decide +kernel)

theorem upAndDown_writes :
    let w := (burstSystem 2 0 twoWords).runFrom resetWatched upAndDown
    w.bursts.map Burst.state = [1#2, 0#2] ∧
      (∀ b ∈ w.bursts, b.addresses = List.replicate 2 0x40#32 ∧
        b.words = List.replicate 2 (twoWords.select b.state) ∧ b.state ∈ b.seen) ∧
      ∀ v ∈ w.written.getLast?, v = 0#32 := by
  obtain ⟨hbeats, -, hlast⟩ := burst_writes_state (by decide) upAndDown_run
  refine ⟨by decide +kernel, hbeats, hlast 0#2 ?_ ?_ ?_ ?_⟩ <;> decide +kernel

end CanBench.Coprocessor
