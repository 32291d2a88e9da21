/-
When the bus master changes what it is offering.

`M_AXI_AWVALID` and `M_AXI_WVALID` are never withdrawn: `init_txn_pulse`, which clears
them, comes at most one clock before they rise.  The address and the word beside them are
not registered with them, though.  They are the generator's copies of registers 3 and 4
to 6, one clock late, so a store that changes one of these shows on the bus two edges
after it is taken, whether or not the slave has accepted the old value by then.
-/
import CanBench.Coprocessor.System

namespace CanBench.Coprocessor

open Lib Axi

/-! ### The registers behind the payload -/

/-- The register the word of a PWM state is stored in. -/
def dataReg (pwmState : BitVec 2) : BitVec 3 :=
  if pwmState = 1#2 then 5 else if pwmState = 2#2 then 6 else 4

theorem pwmSelect_slvReg (st : BitVec 2) (reg : BitVec 3 → BitVec 32) :
    pwmSelect st (reg 4) (reg 5) (reg 6) = reg (dataReg st) := by
  unfold pwmSelect dataReg
  by_cases h1 : st = 1#2
  · rw [if_pos h1, if_pos h1]
  · by_cases h2 : st = 2#2
    · rw [if_neg h1, if_neg h1, if_pos h2, if_pos h2]
    · rw [if_neg h1, if_neg h1, if_neg h2, if_neg h2]

theorem dataReg_ne_two (st : BitVec 2) : dataReg st ≠ 2 := by
  unfold dataReg
  by_cases h1 : st = 1#2
  · rw [if_pos h1]; decide
  · by_cases h2 : st = 2#2
    · rw [if_neg h1, if_pos h2]; decide
    · rw [if_neg h1, if_neg h2]; decide

namespace S00

/-- Software stores to `reg` at this edge, and not what it already holds. -/
def rewrites (s : S00) (i : SlaveIn 5) (reg : BitVec 3) : Prop :=
  s.axi.slvRegWren i = true ∧ locAddr s.axi.axiAwaddr = reg ∧
    writeBytes (s.slvReg reg) i.wdata i.wstrb ≠ s.slvReg reg

instance (s : S00) (i : SlaveIn 5) (reg : BitVec 3) : Decidable (s.rewrites i reg) :=
  inferInstanceAs (Decidable (_ ∧ _ ∧ _))

/-- Apart from the counter, a register changes only when it is rewritten. -/
theorem writtenReg_eq_iff (s : S00) (i : SlaveIn 5) {reg : BitVec 3} (hreg : reg ≠ 2) :
    s.writtenReg i reg = s.slvReg reg ↔ ¬ s.rewrites i reg := by
  have hcounted : s.countedReg reg = s.slvReg reg := Function.update_of_ne hreg _ _
  unfold writtenReg rewrites
  by_cases hwren : s.axi.slvRegWren i = true
  · by_cases hloc : locAddr s.axi.axiAwaddr = reg
    · simp [hwren, hloc, hcounted]
    · rw [if_pos hwren, Function.update_of_ne (Ne.symm hloc), hcounted]
      simp [hloc]
  · rw [if_neg hwren, hcounted]
    simp [hwren]

end S00

namespace Board

variable {N : Nat}

/-! ### Stalled beats -/

def stalledAddress (b : Board N) (i : BoardIn) : Prop :=
  i.ctl.aresetn = true ∧ b.link.m.axiAwvalid = true ∧ i.bus.awready = false

def stalledData (b : Board N) (i : BoardIn) : Prop :=
  i.ctl.aresetn = true ∧ b.link.m.axiWvalid = true ∧ i.bus.wready = false

instance (b : Board N) (i : BoardIn) : Decidable (b.stalledAddress i) :=
  inferInstanceAs (Decidable (_ ∧ _ ∧ _))

instance (b : Board N) (i : BoardIn) : Decidable (b.stalledData i) :=
  inferInstanceAs (Decidable (_ ∧ _ ∧ _))

/-- A beat not accepted at this edge is on offer at the next, with the same payload. -/
structure Held (d : BitVec 32) (b : Board N) (i : BoardIn) : Prop where
  address : b.stalledAddress i →
    (b.next d i).link.m.axiAwvalid = true ∧
      ∀ j, M00.awaddr ((b.next d i).m00In j) = M00.awaddr (b.m00In i)
  data : b.stalledData i →
    (b.next d i).link.m.axiWvalid = true ∧
      ∀ j, (b.next d i).link.m.wdata ((b.next d i).m00In j) = b.link.m.wdata (b.m00In i)

/-- The store taken at `e`, if any, is not to a register behind a beat stalled at `e'`. -/
def keepsPayload (e e' : Board N × BoardIn) : Prop :=
  (e'.1.stalledAddress e'.2 → ¬ e.1.s00.rewrites e.2.ctl 3) ∧
  (e'.1.stalledData e'.2 → ¬ e.1.s00.rewrites e.2.ctl (dataReg e'.1.link.m.pwmStateInpr))

instance (e e' : Board N × BoardIn) : Decidable (keepsPayload e e') :=
  inferInstanceAs (Decidable ((_ → _) ∧ (_ → _)))

/-! ### Where a stalled beat comes from -/

variable {b : Board N} {i : BoardIn} (d : BitVec 32)

/-- A beat is on offer only while its write is under way. -/
theorem underWay_of_valid (h : b.link.Flowing ∨ b.link.Stuck)
    (hv : b.link.m.axiAwvalid = true ∨ b.link.m.axiWvalid = true) :
    ∃ k, b.link.UnderWay k := by
  have hsilent : ¬ b.link.Silent := by
    rintro ⟨haw, hw, -, -⟩
    rcases hv with hv | hv
    · exact absurd (haw.symm.trans hv) (by simp)
    · exact absurd (hw.symm.trans hv) (by simp)
  rcases h with (h | ⟨k, h | h | h⟩) | h
  · exact absurd h.toSilent hsilent
  · exact absurd h.toSilent hsilent
  · exact absurd h.toSilent hsilent
  · exact ⟨k, h⟩
  · exact absurd h.toSilent hsilent

theorem next_pwmWrAddr (hi : i.ctl.aresetn = true) :
    (b.next d i).s00.pwmWrAddr = b.s00.slvReg 3 := by
  simp [next, S00.next, hi]

theorem next_slvReg (hi : i.ctl.aresetn = true) :
    (b.next d i).s00.slvReg = b.s00.writtenReg i.ctl := by
  simp [next, S00.next, hi]

theorem next_awaddr (hi : i.ctl.aresetn = true) (j : BoardIn) :
    M00.awaddr ((b.next d i).m00In j) = b.s00.slvReg 3 := by
  simp [M00.awaddr, m00In, next_pwmWrAddr d hi]

theorem next_wdata (hi : i.ctl.aresetn = true) (j : BoardIn) :
    (b.next d i).link.m.wdata ((b.next d i).m00In j)
      = b.s00.slvReg (dataReg (b.next d i).link.m.pwmStateInpr) := by
  rw [← pwmSelect_slvReg _ b.s00.slvReg]
  simp [M00.wdata, m00In, next, S00.next, hi]

theorem next_pwmStateInpr {k : Nat} (h : b.link.UnderWay k) :
    (b.next d i).link.m.pwmStateInpr = b.link.m.pwmStateInpr := by
  show ((b.link.m.next (b.m00In i) d).pwmStateInpr) = _
  rw [M00.next_pwmStateInpr, M00.nextInitAxiTxn_busy _ (by simp [h.state])]

/-- From a reset nothing is on offer, so nothing is to be held. -/
theorem held_of_reset (hi : i.ctl.aresetn = false) (j : BoardIn) : Held d (b.next d i) j := by
  have hrest : (b.next d i).link.AtRest := Link.atRest_of_reset d b.link hi
  refine ⟨?_, ?_⟩
  · rintro ⟨-, hv, -⟩
    exact absurd (hrest.awvalid.symm.trans hv) (by simp)
  · rintro ⟨-, hv, -⟩
    exact absurd (hrest.wvalid.symm.trans hv) (by simp)

section NextEdge

variable (hN : 0 < N) (h : b.link.Flowing ∨ b.link.Stuck)
  (hok : b.link.allows (b.m00In i)) (hi : i.ctl.aresetn = true) {j : BoardIn}
include hN h hok hi

/-- A stalled address is the one register 3 held before the last edge. -/
theorem address_held_iff (hs : (b.next d i).stalledAddress j) :
    (((b.next d i).next d j).link.m.axiAwvalid = true ∧
      ∀ j', M00.awaddr (((b.next d i).next d j).m00In j') = M00.awaddr ((b.next d i).m00In j)) ↔
    ¬ b.s00.rewrites i.ctl 3 := by
  obtain ⟨hj, hv, hr⟩ := hs
  obtain ⟨k, hk⟩ := underWay_of_valid (Link.reached_next d hN h hok) (Or.inl hv)
  have hkeep : ((b.next d i).next d j).link.m.axiAwvalid = true :=
    (hk.next_axiAwvalid d (i := (b.next d i).m00In j) hj).trans (by simp [hv, m00In, hr])
  have hsame : (∀ j', M00.awaddr (((b.next d i).next d j).m00In j')
      = M00.awaddr ((b.next d i).m00In j)) ↔ b.s00.writtenReg i.ctl 3 = b.s00.slvReg 3 := by
    simp only [next_awaddr d hj, next_awaddr d hi, next_slvReg d hi]
    exact ⟨fun hall => hall j, fun heq _ => heq⟩
  rw [hsame, S00.writtenReg_eq_iff _ _ (by decide)]
  exact and_iff_right hkeep

/-- A stalled word is the one its register held before the last edge. -/
theorem data_held_iff (hs : (b.next d i).stalledData j) :
    (((b.next d i).next d j).link.m.axiWvalid = true ∧
      ∀ j', ((b.next d i).next d j).link.m.wdata (((b.next d i).next d j).m00In j')
        = (b.next d i).link.m.wdata ((b.next d i).m00In j)) ↔
    ¬ b.s00.rewrites i.ctl (dataReg (b.next d i).link.m.pwmStateInpr) := by
  obtain ⟨hj, hv, hr⟩ := hs
  obtain ⟨k, hk⟩ := underWay_of_valid (Link.reached_next d hN h hok) (Or.inr hv)
  have hkeep : ((b.next d i).next d j).link.m.axiWvalid = true :=
    (hk.next_axiWvalid d (i := (b.next d i).m00In j) hj).trans (by simp [hv, m00In, hr])
  have hsame : (∀ j', ((b.next d i).next d j).link.m.wdata (((b.next d i).next d j).m00In j')
      = (b.next d i).link.m.wdata ((b.next d i).m00In j)) ↔
      b.s00.writtenReg i.ctl (dataReg (b.next d i).link.m.pwmStateInpr)
        = b.s00.slvReg (dataReg (b.next d i).link.m.pwmStateInpr) := by
    simp only [next_wdata d hj, next_wdata d hi, next_slvReg d hi, next_pwmStateInpr d hk]
    exact ⟨fun hall => hall j, fun heq _ => heq⟩
  rw [hsame, S00.writtenReg_eq_iff _ _ (dataReg_ne_two _)]
  exact and_iff_right hkeep

end NextEdge

/-- One edge after another: the payload is held at the second unless the first changed
the register behind it. -/
theorem held_iff (hN : 0 < N) (h : b.link.Flowing ∨ b.link.Stuck)
    (hok : b.link.allows (b.m00In i)) (j : BoardIn) :
    Held d (b.next d i) j ↔ keepsPayload (b, i) (b.next d i, j) := by
  cases hi : i.ctl.aresetn with
  | false =>
      have hrest : (b.next d i).link.AtRest := Link.atRest_of_reset d b.link hi
      refine ⟨fun _ => ⟨?_, ?_⟩, fun _ => held_of_reset d hi j⟩
      · rintro ⟨-, hv, -⟩
        exact absurd (hrest.awvalid.symm.trans hv) (by simp)
      · rintro ⟨-, hv, -⟩
        exact absurd (hrest.wvalid.symm.trans hv) (by simp)
  | true =>
      refine ⟨fun hheld => ⟨fun hs => ?_, fun hs => ?_⟩, fun hkeeps => ⟨fun hs => ?_, fun hs => ?_⟩⟩
      · exact (address_held_iff d hN h hok hi hs).mp (hheld.address hs)
      · exact (data_held_iff d hN h hok hi hs).mp (hheld.data hs)
      · exact (address_held_iff d hN h hok hi hs).mpr (hkeeps.1 hs)
      · exact (data_held_iff d hN h hok hi hs).mpr (hkeeps.2 hs)

end Board

open Board in
/-- **The payload of a run's writes is held until accepted if and only if no store changes
the register behind a beat on the edge before one at which the beat is stalled.** -/
theorem coprocessor_held_iff {N : Nat} (hN : 0 < N) {d : BitVec 32}
    {h : List (Board N × BoardIn)} {b : Board N} (r : Run (coprocessorSystem N d) h b) :
    (∀ e ∈ h, Held d e.1 e.2) ↔ h.IsChain keepsPayload := by
  refine r.forall_iff_isChain (I := fun x => x.link.Flowing ∨ x.link.Stuck)
    (Q := fun x i => Held d x i) ?_ ?_ ?_ ?_
  · rintro _ ⟨b₀, i, hi, rfl⟩
    exact Or.inl (Or.inl (Link.atRest_of_reset d b₀.link hi))
  · intro x i hx hok
    exact Link.reached_next d hN hx hok
  · rintro _ j ⟨b₀, i, hi, rfl⟩ _
    exact held_of_reset d hi j
  · intro x i j hx hok _
    exact held_iff d hN hx hok j

/-- A write that waits for its slave. -/
def stalledWrite : List BoardIn :=
  store openBus 1 0x40000004 ++ store openBus 0 0x80000007 ++
    List.replicate 8 ⟨idleCtl, closedBus⟩

theorem stalledWrite_held :
    ((coprocessorSystem 1 0).steps (resetBoard 1 0) stalledWrite).IsChain Board.keepsPayload ∧
      ∀ e ∈ (coprocessorSystem 1 0).steps (resetBoard 1 0) stalledWrite,
        Board.Held 0 e.1 e.2 := by
  have hgood : ((coprocessorSystem 1 0).steps (resetBoard 1 0) stalledWrite).IsChain
      Board.keepsPayload := by decide +kernel
  have r := resetBoard_run 1 0 stalledWrite (by decide +kernel)
  exact ⟨hgood, (coprocessor_held_iff Nat.one_pos r).mpr hgood⟩

/-- The target address is changed while it waits. -/
theorem stalledWrite_readdressed :
    ¬ ∀ (N : Nat), 0 < N → ∀ (d : BitVec 32) h b, Run (coprocessorSystem N d) h b →
      ∀ e ∈ h, Board.Held d e.1 e.2 := by
  intro hall
  have r := resetBoard_run 1 0 (stalledWrite ++ store closedBus 3 0x10) (by decide +kernel)
  have haddress : ∀ e ∈ (coprocessorSystem 1 0).steps (resetBoard 1 0)
      (stalledWrite ++ store closedBus 3 0x10), e.1.stalledAddress e.2 →
        M00.awaddr ((e.1.next 0 e.2).m00In e.2) = M00.awaddr (e.1.m00In e.2) :=
    fun e he hs => ((hall 1 (by decide) 0 _ _ r e he).address hs).2 e.2
  exact absurd haddress (by decide +kernel)

end CanBench.Coprocessor
