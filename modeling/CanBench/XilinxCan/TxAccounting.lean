/-
When transmit accounting is exact.

The driver infers how many frames were sent from one sticky bit, so it is right as long as
the bit stands for one frame: no frame is sent while TXOK is still set.  A restart must
find nothing pending, since it empties FIFO and slots and leaves the counters; and where
`tx_max` does not divide `2 ^ 32`, the queue must not be awake while an entry from before
the wrap of the counters sits in the next slot.

`Exact` is the invariant: between `tx_tail` and `tx_head` the echo slots hold the frame
TXOK stands for, if it is set, and then the frames of the FIFO.
-/
import CanBench.XilinxCan.Tx

namespace CanBench.XilinxCan

open Lib

namespace Tx

variable {txMax : BitVec 32} {s : Tx}

/-! ### The property and the condition -/

/-- What transmit accounting should be. -/
structure Accounted (txMax : BitVec 32) (s : Tx) : Prop where
  bounded : (s.txHead - s.txTail).toNat ≤ txMax.toNat
  slotFree : s.awake = true → s.echo (ringSlot txMax s.txHead) = none
  /-- Frames sent are echoed and counted in order, except for the one TXOK stands for:
  it is the next to be echoed. -/
  echoed : ∃ due, s.sent = s.echoed ++ due ∧ due.length = s.txok.toNat ∧
    ∀ skb ∈ due, s.echo (ringSlot txMax s.txTail) = some skb
  counted : s.txPackets = s.echoed.length
  drained : s.fifo = [] → s.txok = false → s.txTail = s.txHead

/-- The handler is about to leave its loop. -/
def leaves (s : Tx) : Bool :=
  match s.irq with
  | .idle => false
  | .test isr => decide (s.txHead = s.txTail) || !isr
  | .reread => false

/-- The step does not reach one of the defects. -/
def stepsExactly (txMax : BitVec 32) (s : Tx) : TxStep → Prop
  | .xmit _ invalid => invalid = false → s.txFifoFull txMax = false →
      s.txHead + 1 - s.txTail ≠ txMax → ¬ wrapClash txMax (s.txHead + 1) s.txTail
  | .complete => s.txok = false
  | .interrupt => True
  | .advance => s.leaves = true → ¬ wrapClash txMax s.txHead s.txTail
  | .restart _ _ => s.txHead = s.txTail

instance (txMax : BitVec 32) (s : Tx) (a : TxStep) : Decidable (stepsExactly txMax s a) := by
  cases a
  · exact inferInstanceAs (Decidable (_ → _ → _ → _))
  · exact inferInstanceAs (Decidable (_ = _))
  · exact inferInstanceAs (Decidable True)
  · exact inferInstanceAs (Decidable (_ → _))
  · exact inferInstanceAs (Decidable (_ = _))

/-- With a power of two as the depth of the FIFO the counters never clash, and handing
over and waking are always right. -/
theorem stepsExactly_iff_of_dvd (hdvd : txMax.toNat ∣ 2 ^ 32) (s : Tx) (a : TxStep) :
    s.stepsExactly txMax a ↔
      (a = .complete → s.txok = false) ∧
        ∀ started keepsTxok, a = .restart started keepsTxok → s.txHead = s.txTail := by
  have hnever := not_wrapClash_of_dvd hdvd
  cases a with
  | xmit skb invalid => simp [stepsExactly, hnever]
  | complete => simp [stepsExactly]
  | interrupt => simp [stepsExactly]
  | advance => simp [stepsExactly, hnever]
  | restart started keepsTxok => simp [stepsExactly]

/-! ### The invariant -/

/-- The buffers whose echo is still to come: of the frame TXOK stands for, and of those in
the FIFO. -/
structure Exact (txMax : BitVec 32) (s : Tx) : Prop where
  pending : ∃ due, s.sent = s.echoed ++ due ∧ due.length = s.txok.toNat ∧
    Window txMax s.txHead s.txTail s.echo (due ++ s.fifo.map Prod.snd)
  counted : s.txPackets = s.echoed.length
  room : s.awake = true → (s.txHead - s.txTail).toNat < txMax.toNat
  slotFree : s.awake = true → s.echo (ringSlot txMax s.txHead) = none
  /-- The handler has seen TXOK and not cleared it yet. -/
  seen : s.irq = .test true → s.txok = true
  /-- After its first turn there is room for one frame more. -/
  turned : s.irq = .reread ∨ s.irq = .test false → (s.txHead - s.txTail).toNat < txMax.toNat

namespace Exact

/-- How many frames are pending. -/
theorem length_eq (h : Exact txMax s) :
    s.txok.toNat + s.fifo.length = (s.txHead - s.txTail).toNat := by
  obtain ⟨due, -, hdue, hwin⟩ := h.pending
  rw [← hwin.len, List.length_append, List.length_map, hdue]

theorem accounted (h : Exact txMax s) : Accounted txMax s := by
  obtain ⟨due, hsent, hdue, hwin⟩ := h.pending
  refine ⟨?_, h.slotFree, ⟨due, hsent, hdue, ?_⟩, h.counted, ?_⟩
  · rw [← hwin.len]
    exact hwin.le
  · intro skb hskb
    cases due with
    | nil => exact absurd hskb (by simp)
    | cons x rest =>
        have hnil : rest = [] := by
          have := Bool.toNat_le s.txok
          rw [List.length_cons] at hdue
          exact List.length_eq_zero_iff.mp (by omega)
        subst hnil
        rw [List.mem_singleton.mp hskb]
        exact hwin.oldest
  · intro hfifo htxok
    have hlen := h.length_eq
    rw [hfifo, htxok] at hlen
    have hzero : s.txHead - s.txTail = 0 := BitVec.eq_of_toNat_eq (by simpa using hlen.symm)
    exact (sub_eq_zero.mp hzero).symm

/-! ### A frame handed over -/

theorem enqueue_window (skb : TxSkb) {pend : List TxSkb}
    (hwin : Window txMax s.txHead s.txTail s.echo pend)
    (hroom : (s.txHead - s.txTail).toNat < txMax.toNat)
    (hfree : s.echo (ringSlot txMax s.txHead) = none) :
    Window txMax (s.enqueue txMax skb).txHead (s.enqueue txMax skb).txTail
      (s.enqueue txMax skb).echo (pend ++ [skb]) := by
  have hput : (s.enqueue txMax skb).echo
      = Function.update s.echo (ringSlot txMax s.txHead) (some skb) := by
    simp [enqueue, canPutEchoSkb, hfree]
  rw [hput]
  exact hwin.push skb hroom hfree

/-- After the call the queue is awake if there is room for one frame more; then the next
slot is free unless the counters clash. -/
theorem xmit_slotFree (h : Exact txMax s) (skb : TxSkb) (hawake : s.awake = true)
    (hfill : s.txHead + 1 - s.txTail ≠ txMax) :
    ((s.txHead + 1 - s.txTail).toNat < txMax.toNat) ∧
      ((s.enqueue txMax skb).echo (ringSlot txMax (s.txHead + 1)) = none ↔
        ¬ wrapClash txMax (s.txHead + 1) s.txTail) := by
  obtain ⟨due, -, -, hwin⟩ := h.pending
  have hpush := enqueue_window skb hwin (h.room hawake) (h.slotFree hawake)
  have hroom : (s.txHead + 1 - s.txTail).toNat < txMax.toNat := by
    have hle := hpush.le
    rw [hpush.len] at hle
    refine Nat.lt_of_le_of_ne hle fun heq => hfill ?_
    exact BitVec.eq_of_toNat_eq heq
  exact ⟨hroom, hpush.free_iff hroom⟩

theorem not_full (h : Exact txMax s) (hawake : s.awake = true) : s.txFifoFull txMax = false := by
  have hlen := h.length_eq
  have hroom := h.room hawake
  simp only [txFifoFull, decide_eq_false_iff_not]
  omega

theorem xmit (h : Exact txMax s) {skb : TxSkb} {invalid : Bool} (hawake : s.awake = true)
    (hidle : s.irq = .idle) (hgood : s.stepsExactly txMax (.xmit skb invalid)) :
    Exact txMax (s.xcanStartXmit txMax skb invalid) := by
  unfold xcanStartXmit
  by_cases hinvalid : invalid = true
  · rw [if_pos hinvalid]
    exact h
  rw [if_neg hinvalid, h.not_full hawake, if_neg (by simp)]
  have hclash := hgood (by simpa using hinvalid) (h.not_full hawake)
  obtain ⟨due, hsent, hdue, hwin⟩ := h.pending
  have hpush := enqueue_window skb hwin (h.room hawake) (h.slotFree hawake)
  have hpending : ∃ due', (s.enqueue txMax skb).sent = (s.enqueue txMax skb).echoed ++ due' ∧
      due'.length = (s.enqueue txMax skb).txok.toNat ∧
      Window txMax (s.enqueue txMax skb).txHead (s.enqueue txMax skb).txTail
        (s.enqueue txMax skb).echo (due' ++ (s.enqueue txMax skb).fifo.map Prod.snd) := by
    refine ⟨due, hsent, hdue, ?_⟩
    simpa [enqueue] using hpush
  have hirq : ¬ (s.irq = .reread ∨ s.irq = .test false) := by simp [hidle]
  show Exact txMax (if s.txHead + 1 - s.txTail = txMax then
    { s.enqueue txMax skb with awake := false } else s.enqueue txMax skb)
  by_cases hfill : s.txHead + 1 - s.txTail = txMax
  · rw [if_pos hfill]
    refine ⟨hpending, h.counted, ?_, ?_, ?_, ?_⟩
    · intro hsleep
      exact absurd hsleep (by simp)
    · intro hsleep
      exact absurd hsleep (by simp)
    · intro htest
      exact absurd (hidle.symm.trans htest) (by simp)
    · intro hin
      exact absurd hin hirq
  · rw [if_neg hfill]
    obtain ⟨hroom, hslot⟩ := h.xmit_slotFree skb hawake hfill
    refine ⟨hpending, h.counted, fun _ => hroom, fun _ => hslot.mpr (hclash hfill), ?_, ?_⟩
    · intro htest
      exact absurd (hidle.symm.trans htest) (by simp)
    · intro hin
      exact absurd hin hirq

/-! ### A frame sent -/

theorem complete (h : Exact txMax s) (htxok : s.txok = false) : Exact txMax s.complete := by
  obtain ⟨due, hsent, hdue, hwin⟩ := h.pending
  have hnil : due = [] := by
    rw [htxok] at hdue
    exact List.length_eq_zero_iff.mp hdue
  subst hnil
  unfold Tx.complete
  cases hfifo : s.fifo with
  | nil => exact h
  | cons e rest =>
      refine ⟨⟨[e.2], ?_, rfl, ?_⟩, h.counted, h.room, h.slotFree, fun _ => rfl, h.turned⟩
      · show s.sent ++ [e.2] = _
        rw [hsent, List.append_nil]
      · rw [hfifo] at hwin
        exact hwin

/-! ### The interrupt handler -/

theorem interrupt (h : Exact txMax s) : Exact txMax s.xcanInterrupt := by
  unfold xcanInterrupt
  by_cases htxok : s.txok = true
  · rw [if_pos htxok]
    refine ⟨h.pending, h.counted, h.room, h.slotFree, fun _ => htxok, ?_⟩
    rintro (hin | hin)
    · exact absurd hin (by simp)
    · exact absurd hin (by simp)
  · rw [if_neg htxok]
    exact h

/-- With TXOK seen there is a frame pending, so the body of the loop is run. -/
theorem pending_of_seen (h : Exact txMax s) (htest : s.irq = .test true) :
    ∃ skb, s.sent = s.echoed ++ [skb] ∧
      Window txMax s.txHead s.txTail s.echo (skb :: s.fifo.map Prod.snd) := by
  obtain ⟨due, hsent, hdue, hwin⟩ := h.pending
  rw [h.seen htest] at hdue
  obtain ⟨skb, rfl⟩ := List.length_eq_one_iff.mp hdue
  exact ⟨skb, hsent, hwin⟩

theorem head_ne_tail_of_seen (h : Exact txMax s) (htest : s.irq = .test true) :
    s.txHead ≠ s.txTail := by
  intro heq
  have hlen := h.length_eq
  rw [h.seen htest, heq, BitVec.sub_self] at hlen
  simp at hlen

theorem echoOne (h : Exact txMax s) (htest : s.irq = .test true) :
    Exact txMax (s.echoOne txMax) := by
  obtain ⟨skb, hsent, hwin⟩ := h.pending_of_seen htest
  have hpop := hwin.pop
  have hlen : (s.txHead - (s.txTail + 1)).toNat < txMax.toNat := by
    rw [← hpop.len]
    have := hwin.le
    rw [List.length_cons] at this
    omega
  refine ⟨⟨[], ?_, rfl, hpop⟩, ?_, fun _ => hlen, ?_, ?_, fun _ => hlen⟩
  · simp [Tx.echoOne, hsent, hwin.oldest]
  · simp [Tx.echoOne, h.counted, hwin.oldest]
  · intro hawake
    show Function.update s.echo (ringSlot txMax s.txTail) none (ringSlot txMax s.txHead) = none
    by_cases heq : ringSlot txMax s.txHead = ringSlot txMax s.txTail
    · rw [heq, Function.update_self]
    · rw [Function.update_of_ne heq]
      exact h.slotFree hawake
  · intro hin
    exact absurd hin (by simp [Tx.echoOne])

/-- Out of the loop there is room, and the queue may be woken. -/
theorem leave (h : Exact txMax s) (hirq : s.irq = .test false)
    (hclash : ¬ wrapClash txMax s.txHead s.txTail) :
    Exact txMax { s with awake := true, irq := .idle } := by
  have hroom := h.turned (Or.inr hirq)
  obtain ⟨due, hsent, hdue, hwin⟩ := h.pending
  refine ⟨⟨due, hsent, hdue, hwin⟩, h.counted, fun _ => hroom,
    fun _ => (hwin.free_iff hroom).mpr hclash, ?_, ?_⟩
  · intro hin
    exact absurd hin (by simp)
  · rintro (hin | hin)
    · exact absurd hin (by simp)
    · exact absurd hin (by simp)

theorem advance (h : Exact txMax s) (hgood : s.stepsExactly txMax .advance) :
    Exact txMax (s.advance txMax) := by
  unfold Tx.advance
  cases hirq : s.irq with
  | idle => exact h
  | test isr =>
      cases isr with
      | true =>
          have hne : s.txHead - s.txTail ≠ 0 := sub_ne_zero.mpr (h.head_ne_tail_of_seen hirq)
          show Exact txMax (if s.txHead - s.txTail ≠ 0 ∧ true = true then s.echoOne txMax
            else { s with awake := true, irq := .idle })
          rw [if_pos ⟨hne, rfl⟩]
          exact h.echoOne hirq
      | false =>
          simp only
          rw [if_neg (by simp)]
          exact h.leave hirq (hgood (by simp [leaves, hirq]))
  | reread =>
      refine ⟨h.pending, h.counted, h.room, h.slotFree, ?_, fun _ => h.turned (Or.inl hirq)⟩
      intro htest
      simpa using htest

/-! ### A restart -/

theorem restart (h : Exact txMax s) (hidle : s.irq = .idle) (hnone : s.txHead = s.txTail)
    (hmax : 0 < txMax.toNat) (started keepsTxok : Bool) :
    Exact txMax (s.restart started keepsTxok) := by
  have hlen := h.length_eq
  rw [hnone, BitVec.sub_self] at hlen
  have htxok : s.txok = false := by
    by_contra hc
    rw [Bool.not_eq_false] at hc
    rw [hc] at hlen
    simp at hlen
  obtain ⟨due, hsent, hdue, -⟩ := h.pending
  have hwin : Window txMax s.txHead s.txTail (fun _ => none : Nat → Option TxSkb) [] := by
    rw [hnone]
    exact Window.empty txMax s.txTail
  have hroom : (s.txHead - s.txTail).toNat < txMax.toNat := by
    rw [hnone, BitVec.sub_self]
    simpa using hmax
  have hnil : due = [] := by
    rw [htxok] at hdue
    exact List.length_eq_zero_iff.mp hdue
  subst hnil
  refine ⟨⟨[], hsent, by simp [Tx.restart, htxok], hwin⟩, h.counted, fun _ => hroom,
    fun _ => rfl, ?_, fun _ => hroom⟩
  intro htest
  exact absurd (hidle.symm.trans htest) (by simp)

theorem step (hmax : 0 < txMax.toNat) (h : Exact txMax s) {a : TxStep}
    (hok : s.allows a = true) (hgood : s.stepsExactly txMax a) : Exact txMax (s.step txMax a) := by
  cases a with
  | xmit skb invalid =>
      simp only [allows, Bool.and_eq_true, decide_eq_true_eq] at hok
      exact h.xmit hok.1 hok.2 hgood
  | complete => exact h.complete hgood
  | interrupt => exact h.interrupt
  | advance => exact h.advance hgood
  | restart started keepsTxok =>
      exact h.restart (by simpa [allows] using hok) hgood hmax started keepsTxok

/-! ### What goes wrong otherwise -/

/-- The slot `can_put_echo_skb` is given next holds a frame still pending. -/
theorem not_accounted_xmit (h : Exact txMax s) {skb : TxSkb} {invalid : Bool}
    (hawake : s.awake = true) (hbad : ¬ s.stepsExactly txMax (.xmit skb invalid)) :
    ¬ Accounted txMax (s.xcanStartXmit txMax skb invalid) := by
  intro hacc
  simp only [stepsExactly, Classical.not_imp, not_not] at hbad
  obtain ⟨hinvalid, hfull, hfill, hclash⟩ := hbad
  have hcall : s.xcanStartXmit txMax skb invalid = s.enqueue txMax skb := by
    simp only [xcanStartXmit, hinvalid, hfull]
    exact if_neg hfill
  rw [hcall] at hacc
  obtain ⟨-, hslot⟩ := h.xmit_slotFree skb hawake hfill
  exact hslot.mp (hacc.slotFree hawake) hclash

/-- TXOK stands for two frames. -/
theorem not_accounted_complete (h : Exact txMax s) (hfifo : s.fifo ≠ [])
    (htxok : s.txok = true) : ¬ Accounted txMax s.complete := by
  intro hacc
  obtain ⟨due, hsent, hdue, -⟩ := h.pending
  obtain ⟨e, rest, hcons⟩ := List.exists_cons_of_ne_nil hfifo
  obtain ⟨due', hsent', hdue', -⟩ := hacc.echoed
  have hlen := congrArg List.length hsent'
  simp only [Tx.complete, hcons] at hlen hdue'
  rw [List.length_append, List.length_append, hdue', hsent, List.length_append, hdue,
    htxok] at hlen
  simp at hlen

/-- The queue is woken with the next slot in use. -/
theorem not_accounted_advance (h : Exact txMax s)
    (hbad : ¬ s.stepsExactly txMax .advance) : ¬ Accounted txMax (s.advance txMax) := by
  intro hacc
  obtain ⟨due, -, -, hwin⟩ := h.pending
  simp only [stepsExactly, Classical.not_imp, not_not] at hbad
  obtain ⟨hleaves, hclash⟩ := hbad
  have hirq : s.irq = .test false := by
    cases hirq : s.irq with
    | idle => simp [leaves, hirq] at hleaves
    | test isr =>
        cases isr with
        | true => simp [leaves, hirq, h.head_ne_tail_of_seen hirq] at hleaves
        | false => rfl
    | reread => simp [leaves, hirq] at hleaves
  have hadvance : s.advance txMax = { s with awake := true, irq := .idle } := by
    simp [Tx.advance, hirq]
  rw [hadvance] at hacc
  exact (hwin.free_iff (h.turned (Or.inr hirq))).mp (hacc.slotFree rfl) hclash

/-- The frames pending are gone, and their buffers with them. -/
theorem not_accounted_restart (hne : s.txHead ≠ s.txTail) (started keepsTxok : Bool) :
    ¬ Accounted txMax (s.restart started keepsTxok) := by
  intro hacc
  cases htxok : s.txok && keepsTxok with
  | true =>
      obtain ⟨due, -, hdue, hslot⟩ := hacc.echoed
      have hone : due.length = 1 := by
        rw [hdue]
        show (s.txok && keepsTxok).toNat = 1
        rw [htxok]
        rfl
      obtain ⟨skb, rfl⟩ := List.length_eq_one_iff.mp hone
      exact absurd (hslot skb (by simp)) (by simp [Tx.restart])
  | false => exact hne (hacc.drained rfl htxok).symm

/-- A step that does not meet the condition breaks the property at once. -/
theorem not_accounted (h : Exact txMax s) {a : TxStep} (hok : s.allows a = true)
    (hbad : ¬ s.stepsExactly txMax a) : ¬ Accounted txMax (s.step txMax a) := by
  cases a with
  | xmit skb invalid =>
      simp only [allows, Bool.and_eq_true] at hok
      exact h.not_accounted_xmit hok.1 hbad
  | complete =>
      exact h.not_accounted_complete (by simpa [allows] using hok)
        (by simpa [stepsExactly] using hbad)
  | interrupt => exact absurd trivial hbad
  | advance => exact h.not_accounted_advance hbad
  | restart started keepsTxok => exact not_accounted_restart hbad started keepsTxok

end Exact

end Tx

open Tx in
/-- **Transmit accounting is exact throughout a run if and only if no frame is sent while
TXOK is set, no restart finds a frame pending, and the queue is not left or made awake with
the counters clashing.** -/
theorem tx_accounted_iff {txMax : BitVec 32} (hmax : 0 < txMax.toNat)
    {h : List (Tx × TxStep)} {s : Tx} (r : Run (txSystem txMax) h s) :
    (∀ x, Visits h s x → Accounted txMax x) ↔ ∀ e ∈ h, stepsExactly txMax e.1 e.2 := by
  refine r.exact (J := fun x => Exact txMax x) (P := fun x => Accounted txMax x)
    (G := fun x a => stepsExactly txMax x a) ?_ ?_ ?_ ?_
  · rintro s ⟨hcount, hawake, hecho, hpackets, hirq, hfifo, htxok, hsent, hechoed⟩
    have hroom : (s.txHead - s.txTail).toNat < txMax.toNat := by
      rw [hcount, BitVec.sub_self]
      simpa using hmax
    refine ⟨⟨[], by rw [hsent, hechoed]; rfl, by rw [htxok]; rfl, ?_⟩,
      by rw [hpackets, hechoed]; rfl, fun _ => hroom, fun _ => by rw [hecho], ?_, fun _ => hroom⟩
    · rw [hcount, hecho, hfifo]
      exact Window.empty txMax s.txTail
    · intro htest
      exact absurd (hirq.symm.trans htest) (by simp)
  · intro x a hx hok hgood
    exact hx.step hmax hok hgood
  · intro x hx
    exact hx.accounted
  · intro x a hx hok hbad
    exact hx.not_accounted hok hbad

/-! ### Two frames through a FIFO of two -/

/-- An interface just opened for the first time. -/
def openedTx : Tx where
  txHead := 0#32
  txTail := 0#32
  awake := true
  echo := fun _ => none
  txPackets := 0
  txBytes := 0
  irq := .idle
  fifo := []
  txok := false
  sent := []
  echoed := []

def frameNo (serial : Nat) : TxSkb := ⟨serial, ⟨0#32, 0#8, fun _ => 0#8⟩⟩

/-- The second frame is sent while the handler deals with the first. -/
def oneByOne : List TxStep :=
  [.xmit (frameNo 0) false, .xmit (frameNo 1) false, .complete, .interrupt, .advance, .complete,
    .advance, .advance, .advance, .advance]

/-- Both frames are sent before the handler runs. -/
def twoAtOnce : List TxStep :=
  [.xmit (frameNo 0) false, .xmit (frameNo 1) false, .complete, .complete, .interrupt, .advance,
    .advance, .advance]

instance (txMax : BitVec 32) (s : Tx) (a : TxStep) : Decidable ((txSystem txMax).allowed s a) :=
  inferInstanceAs (Decidable (s.allows a = true))

theorem openedTx_run (l : List TxStep)
    (hok : ∀ e ∈ (txSystem 2).steps openedTx l, (txSystem 2).allowed e.1 e.2) :
    Run (txSystem 2) ((txSystem 2).steps openedTx l) ((txSystem 2).runFrom openedTx l) := by
  have r : Run (txSystem 2) [] openedTx :=
    Run.start ⟨rfl, rfl, rfl, rfl, rfl, rfl, rfl, rfl, rfl⟩
  exact System.run_of_steps _ l r hok

theorem oneByOne_accounted :
    (∀ e ∈ (txSystem 2).steps openedTx oneByOne, Tx.stepsExactly 2 e.1 e.2) ∧
      ∀ x, Visits ((txSystem 2).steps openedTx oneByOne)
        ((txSystem 2).runFrom openedTx oneByOne) x → Tx.Accounted 2 x := by
  have hgood : ∀ e ∈ (txSystem 2).steps openedTx oneByOne, Tx.stepsExactly 2 e.1 e.2 := by
    decide +kernel
  have r := openedTx_run oneByOne (by decide +kernel)
  exact ⟨hgood, (tx_accounted_iff (by decide) r).mpr hgood⟩

/-- Both frames are sent and one is counted: the FIFO is empty, TXOK clear, and `tx_tail`
behind `tx_head`. -/
theorem twoAtOnce_not_accounted :
    ¬ ∀ (txMax : BitVec 32), 0 < txMax.toNat → ∀ h s, Run (txSystem txMax) h s →
      ∀ x, Visits h s x → Tx.Accounted txMax x := by
  intro hall
  have hacc := hall 2 (by decide) _ _ (openedTx_run twoAtOnce (by decide +kernel)) _ (Or.inl rfl)
  have hlag := hacc.drained (by decide +kernel) (by decide +kernel)
  exact absurd hlag (by decide +kernel)

end CanBench.XilinxCan
