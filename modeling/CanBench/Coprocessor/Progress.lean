/-
When the bus master gets stuck.

In `INIT_WRITE` something is always in progress, unless `init_txn_pulse` comes a second
time.  The detector sees a second edge when the PWM state differs from the written one,
then does not, then does again on the clock on which the burst starts: `INIT_AXI_TXN`
goes up, down and up before `INIT_WRITE` can hold it down.  A period of two clocks with a
duty of one does this on its own.
-/
import CanBench.Coprocessor.System

namespace CanBench.Coprocessor

open Lib

namespace Link

variable {N : Nat} {l : Link N} {i : M00In} (d : BitVec 32)

/-- `INIT_WRITE` has something in progress. -/
def InProgress (l : Link N) : Prop :=
  l.m.mstExecState = .initWrite →
    l.m.startSingleWrite = true ∨ (l.m.axiAwvalid = true ∨ l.m.axiWvalid = true) ∨
      (0 < l.out.aw ∧ 0 < l.out.w) ∨
      (l.m.writeIssued = false ∧ l.m.lastWrite = false) ∨ l.m.writesDone = true

theorem Flowing.inProgress (h : Flowing l) : InProgress l := by
  intro hstate
  rcases h with h | ⟨k, h | h | h⟩
  · exact absurd (h.state.symm.trans hstate) (by simp)
  · by_cases hk : k = N
    · exact Or.inr (Or.inr (Or.inr (Or.inr (by simpa [hk] using h.done))))
    · exact Or.inr (Or.inr (Or.inr (Or.inl ⟨h.issued, by simpa [hk] using h.last⟩)))
  · exact Or.inl h.start
  · by_cases hv : l.m.axiAwvalid = true ∨ l.m.axiWvalid = true
    · exact Or.inr (Or.inl hv)
    · rw [not_or] at hv
      have haddress := h.address
      have hdata := h.data
      rw [Bool.eq_false_iff.mpr hv.1] at haddress
      rw [Bool.eq_false_iff.mpr hv.2] at hdata
      simp only [Bool.toNat_false] at haddress hdata
      exact Or.inr (Or.inr (Or.inl ⟨by omega, by omega⟩))

theorem Stuck.not_inProgress (h : Stuck l) : ¬ InProgress l := by
  intro hp
  have := hp h.state
  simp [h.start, h.awvalid, h.wvalid, h.out, h.issued, h.done, Outstanding.empty] at this

/-- Where the second pulse comes from: on the clock that starts a burst the request is
down, and the PWM state differs from the written one again. -/
theorem AtRest.pulseInBurst_iff (hN : 0 < N) (h : AtRest l) {i₁ i₂ : M00In}
    (hok : l.allows i) (hok₁ : (l.next i d).allows i₁) (hi : i.aresetn = true)
    (hi₁ : i₁.aresetn = true) (hi₂ : i₂.aresetn = true) (hp : l.m.initTxnPulse = true) :
    ((l.next i d).next i₁ d).pulseInBurst i₂ ↔
      l.m.initAxiTxn = false ∧ i.pwmEnabledI = true ∧ l.m.pwmStatePrev ≠ i.pwmStateI := by
  have hready : Ready 0 (l.next i d) := h.next_pulse d hN hok hi hp
  have hissued : Issued 0 ((l.next i d).next i₁ d) := hready.next d hN hok₁ hi₁
  unfold pulseInBurst
  simp only [hi₂, hissued.state, true_and]
  simp only [M00.initTxnPulse, next_m, M00.next_initTxnFf, M00.next_initTxnFf2,
    M00.next_initAxiTxn, hi, hi₁, M00.nextInitAxiTxn, h.state]
  cases l.m.initAxiTxn <;> cases i.pwmEnabledI <;>
    by_cases hst : l.m.pwmStatePrev = i.pwmStateI <;> simp [hst]

end Link

/-- **Something is in progress throughout a run's bursts if and only if no
`init_txn_pulse` falls into one of them.** -/
theorem coprocessor_progress_iff {N : Nat} (hN : 0 < N) {d : BitVec 32}
    {h : List (Board N × BoardIn)} {b : Board N} (r : Run (coprocessorSystem N d) h b) :
    (∀ x, Visits h b x → x.link.InProgress) ↔
      ∀ e ∈ h, ¬ e.1.link.pulseInBurst (e.1.m00In e.2) := by
  refine r.exact (J := fun x => x.link.Flowing) (P := fun x => x.link.InProgress)
    (G := fun x i => ¬ x.link.pulseInBurst (x.m00In i)) ?_ ?_ ?_ ?_
  · rintro _ ⟨b₀, i, hi, rfl⟩
    exact Or.inl (Link.atRest_of_reset d b₀.link hi)
  · intro x i hx hok hp
    exact hx.next d hN hok hp
  · intro x hx
    exact hx.inProgress
  · intro x i hx hok hp
    exact (hx.next_pulse d hok (Classical.not_not.mp hp)).not_inProgress

/-- A period of four clocks, a duty of two: the state holds long enough to be written. -/
def slowPwm : List BoardIn :=
  store openBus 1 0x40000002 ++ store openBus 0 0x80000003 ++
    List.replicate 4 ⟨idleCtl, openBus⟩

/-- A period of two clocks, a duty of one. -/
def fastPwm : List BoardIn :=
  store openBus 1 0x40000001 ++ store openBus 0 0x80000001 ++
    List.replicate 6 ⟨idleCtl, openBus⟩

theorem slowPwm_progress :
    (∀ e ∈ (coprocessorSystem 1 0).steps (resetBoard 1 0) slowPwm,
      ¬ e.1.link.pulseInBurst (e.1.m00In e.2)) ∧
    ∀ x, Visits ((coprocessorSystem 1 0).steps (resetBoard 1 0) slowPwm)
      ((coprocessorSystem 1 0).runFrom (resetBoard 1 0) slowPwm) x → x.link.InProgress := by
  have hgood : ∀ e ∈ (coprocessorSystem 1 0).steps (resetBoard 1 0) slowPwm,
      ¬ e.1.link.pulseInBurst (e.1.m00In e.2) := by decide +kernel
  have r := resetBoard_run 1 0 slowPwm (by decide +kernel)
  exact ⟨hgood, (coprocessor_progress_iff Nat.one_pos r).mpr hgood⟩

theorem fastPwm_stuck :
    ¬ ∀ (N : Nat), 0 < N → ∀ (d : BitVec 32) h b, Run (coprocessorSystem N d) h b →
      ∀ x, Visits h b x → x.link.InProgress := by
  intro hall
  have hp := hall 1 (by decide) 0 _ _ (resetBoard_run 1 0 fastPwm (by decide +kernel)) _
    (Or.inl rfl)
  revert hp
  unfold Link.InProgress
  decide +kernel

end CanBench.Coprocessor
