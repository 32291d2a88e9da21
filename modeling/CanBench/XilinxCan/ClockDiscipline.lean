/-
When the driver keeps the discipline of its clocks.

Between probe and remove the driver is in one of two places.  Down, it holds nothing; up, it
holds both clocks once, and a suspend and its resume change neither.

`xcan_remove` writes SRR before it asks whether the interface is up, so it goes wrong where
the driver is down.  Nothing else goes wrong anywhere: what reads the error counters, which
may come at any time, turns the clocks on and off again around its two reads.
-/
import CanBench.XilinxCan.Clocks

namespace CanBench.XilinxCan

open Lib

namespace Clocks

variable {s : Clocks}

/-! ### What is noted stays -/

/-- Something that must not happen has. -/
def Faulty (s : Clocks) : Prop := s.faults ≠ []

theorem note_faulty (fault : ClkFault) (s : Clocks) : (s.note fault).Faulty := by
  simp [Faulty, note]

theorem Faulty.access (h : s.Faulty) : s.access.Faulty := by
  unfold Clocks.access
  split
  · exact h
  · exact note_faulty _ _

theorem Faulty.waitFor (mask : BitVec 32) (reads : List (BitVec 32)) :
    ∀ {s : Clocks}, s.Faulty → (s.waitFor mask reads).1.Faulty := by
  induction reads with
  | nil => intro s h; exact h
  | cons sr rest ih =>
      intro s h
      unfold Clocks.waitFor
      split
      · exact h.access
      · exact ih h.access

/-- A register accessed while a clock is off. -/
theorem access_faulty (hoff : ¬ s.Running) : s.access.Faulty := by
  unfold Clocks.access
  rw [if_neg hoff]
  exact note_faulty _ _

/-! ### Register accesses while the clocks run -/

theorem access_eq (hon : s.Running) : s.access = s := if_pos hon

theorem waitFor_fst (hon : s.Running) (mask : BitVec 32) (reads : List (BitVec 32)) :
    (s.waitFor mask reads).1 = s := by
  induction reads with
  | nil => rfl
  | cons sr rest ih =>
      unfold Clocks.waitFor
      rw [show s.readReg .sr = s from access_eq hon]
      split
      · rfl
      · exact ih

theorem setResetMode_fst (hon : s.Running) (config : List (BitVec 32)) :
    (s.setResetMode config).1 = s := by
  unfold setResetMode
  rw [show s.writeReg .srr = s from access_eq hon]
  exact waitFor_fst hon _ _

theorem xcanSetBittiming_fst (hon : s.Running) (sr : BitVec 32) :
    (s.xcanSetBittiming sr).1 = s := by
  simp only [xcanSetBittiming, readReg, writeReg, access_eq hon]
  split
  · rfl
  · rfl

theorem xcanChipStart_fst (hon : s.Running) (loopback : Bool) (e : ChipReads) :
    (s.xcanChipStart loopback e).1 = s := by
  unfold xcanChipStart
  generalize (if loopback then xcanSrLbackMask else xcanSrNormalMask) = mask
  simp only [setResetMode_fst hon, xcanSetBittiming_fst hon, writeReg, readReg, access_eq hon,
    waitFor_fst hon]
  split
  · rfl
  · split
    · rfl
    · split
      · rfl
      · rfl

/-! ### The two places -/

def off : Clocks := { canClk := ⟨0, 0⟩, busClk := ⟨0, 0⟩, faults := [] }
def on : Clocks := { canClk := ⟨1, 1⟩, busClk := ⟨1, 1⟩, faults := [] }

theorem on_running : on.Running := by decide

/-- An open that fails unwinds to where it started. -/
theorem xcanOpen_off (loopback : Bool) (e : OpenResults) :
    off.xcanOpen loopback e = (off, false) ∨ off.xcanOpen loopback e = (on, true) := by
  have hon : (off.clkPrepareEnable .can).clkPrepareEnable .bus = on := rfl
  have hback : ((on.clkDisableUnprepare .bus).clkDisableUnprepare .can) = off := rfl
  have hcan : (off.clkPrepareEnable .can).clkDisableUnprepare .can = off := rfl
  unfold xcanOpen
  simp only [hon, setResetMode_fst on_running, xcanChipStart_fst on_running, hback, hcan]
  repeat' split
  all_goals first | exact Or.inl rfl | exact Or.inr rfl

theorem xcanClose_on : on.xcanClose = off := rfl

/-- A request for the error counters gives back what it took. -/
theorem xcanGetBerrCounter_eq (hs : s = off ∨ s = on) (can bus : Bool) :
    s.xcanGetBerrCounter can bus = s := by
  rcases hs with rfl | rfl
  all_goals
    revert can bus
    decide

theorem xcanSuspend_eq (s : Clocks) : s.xcanSuspend .platformDevice = s := by
  unfold xcanSuspend
  exact reach_drvdata_drvdata _ s

theorem xcanResume_eq (bus can : Bool) (s : Clocks) :
    s.xcanResume bus can .platformDevice = s := by
  unfold xcanResume
  exact reach_drvdata_drvdata _ s

end Clocks

namespace ClkDev

variable {s : ClkDev}

/-- Where the driver may be after a run without a fault. -/
inductive Placed (s : ClkDev) : Prop
  | down (clocks : s.clocks = Clocks.off) (up : s.up = false)
  | running (clocks : s.clocks = Clocks.on) (up : s.up = true)
      (before : s.beforeOpen = Clocks.off.counts)

/-- No count below zero, no register accessed while a clock is off, and no open undone
with other counts than it found. -/
def Disciplined (s : ClkDev) : Prop := s.clocks.faults = []

/-- A remove comes while the interface is up. -/
def clocked (s : ClkDev) : ClkOp → Bool
  | .remove _ => s.up
  | .open _ _ | .close | .getBerrCounter _ _ | .suspend | .resume _ _ => true

theorem Placed.disciplined (h : s.Placed) : s.Disciplined := by
  rcases h with ⟨hc, _⟩ | ⟨hc, _, _⟩
  all_goals
    unfold Disciplined
    rw [hc]
    rfl

theorem Placed.clocks_eq (h : s.Placed) : s.clocks = Clocks.off ∨ s.clocks = Clocks.on := by
  rcases h with ⟨hc, _⟩ | ⟨hc, _, _⟩
  · exact Or.inl hc
  · exact Or.inr hc

/-- Only the clocks, and what an open of them has found, count. -/
theorem Placed.of_eq (h : s.Placed) {x : ClkDev} (hclocks : x.clocks = s.clocks)
    (hup : x.up = s.up) (hbefore : x.beforeOpen = s.beforeOpen) : x.Placed := by
  rcases h with ⟨hc, hs⟩ | ⟨hc, hs, hb⟩
  · exact .down (hclocks.trans hc) (hup.trans hs)
  · exact .running (hclocks.trans hc) (hup.trans hs) (hbefore.trans hb)

theorem placed_open (hc : s.clocks = Clocks.off) (hup : s.up = false) (loopback : Bool)
    (e : OpenResults) : (s.op (.open loopback e)).Placed := by
  rcases Clocks.xcanOpen_off loopback e with h | h
  · simp only [ClkDev.op, hc, h]
    exact .down rfl hup
  · simp only [ClkDev.op, hc, h]
    exact .running rfl rfl rfl

theorem close_running (hc : s.clocks = Clocks.on) (hbefore : s.beforeOpen = Clocks.off.counts) :
    s.close = { s with clocks := Clocks.off, up := false } := by
  simp only [close, hc, Clocks.xcanClose_on, hbefore]
  rfl

/-- The lookup of a remove finds the device. -/
theorem remove_eq (config : List (BitVec 32)) :
    s.remove config .platformDevice =
      { (if s.up then { s with clocks := (s.clocks.setResetMode config).1 }.close
        else { s with clocks := (s.clocks.setResetMode config).1 }) with removed := true } := rfl

theorem remove_running (hc : s.clocks = Clocks.on) (hup : s.up = true)
    (hbefore : s.beforeOpen = Clocks.off.counts) (config : List (BitVec 32)) :
    s.remove config .platformDevice =
      { s with clocks := Clocks.off, up := false, removed := true } := by
  have hclosed : ({ s with clocks := Clocks.on } : ClkDev).close =
      { s with clocks := Clocks.off, up := false } := close_running rfl hbefore
  rw [remove_eq, if_pos hup, hc, Clocks.setResetMode_fst Clocks.on_running]
  exact congrArg (fun x : ClkDev => { x with removed := true }) hclosed

theorem placed_op (h : s.Placed) {a : ClkOp} (hallow : s.allows a = true)
    (hgood : s.clocked a = true) : (s.op a).Placed := by
  cases a with
  | «open» loopback e =>
      rcases h with ⟨hc, hup⟩ | ⟨_, hup, _⟩
      · exact placed_open hc hup loopback e
      · simp [allows, hup] at hallow
  | close =>
      rcases h with ⟨_, hup⟩ | ⟨hc, _, hbefore⟩
      · simp [allows, hup] at hallow
      · rw [op, close_running hc hbefore]
        exact .down rfl rfl
  | getBerrCounter can bus =>
      exact h.of_eq (Clocks.xcanGetBerrCounter_eq h.clocks_eq can bus) rfl rfl
  | suspend => exact h.of_eq (Clocks.xcanSuspend_eq s.clocks) rfl rfl
  | resume bus can => exact h.of_eq (Clocks.xcanResume_eq bus can s.clocks) rfl rfl
  | remove config =>
      rcases h with ⟨_, hup⟩ | ⟨hc, hup, hbefore⟩
      · simp [clocked, hup] at hgood
      · rw [op, remove_running hc hup hbefore]
        exact .down rfl rfl

/-- A remove while the interface is down writes SRR with the clocks off. -/
theorem not_disciplined_op (h : s.Placed) {a : ClkOp} (hbad : ¬ s.clocked a = true) :
    ¬ (s.op a).Disciplined := by
  cases a with
  | remove config =>
      have hdown : s.up = false := by simpa [clocked] using hbad
      rcases h with ⟨hc, _⟩ | ⟨_, hup, _⟩
      · have hoff : ¬ s.clocks.Running := by
          rw [hc]
          decide
        have hreset : (s.clocks.setResetMode config).1.Faulty :=
          (Clocks.access_faulty hoff).waitFor _ _
        rw [op, remove_eq, if_neg (by simp [hdown])]
        exact hreset
      · exact absurd (hdown.symm.trans hup) (by simp)
  | _ => exact absurd rfl hbad

end ClkDev

/--
**When the clocks are kept in discipline.**  From a successful probe on, no count goes
below zero, both clocks are on at every register access and every open that fails or is
closed gives back what it took, exactly when each remove comes while the interface is up.
-/
theorem clocks_disciplined_iff {h : List (ClkDev × ClkOp)} {s : ClkDev}
    (r : Run clkSystem h s) :
    (∀ x, Visits h s x → x.Disciplined) ↔ ∀ e ∈ h, e.1.clocked e.2 = true := by
  refine Run.exact (J := ClkDev.Placed) (P := ClkDev.Disciplined)
    (G := fun s a => s.clocked a = true) ?_ ?_ ?_ ?_ r
  · intro s hs
    obtain rfl : s = ClkDev.probed := hs
    exact .down rfl rfl
  · intro s a hs hallow hgood
    exact ClkDev.placed_op hs hallow hgood
  · intro s hs
    exact hs.disciplined
  · intro s a hs _ hbad
    exact ClkDev.not_disciplined_op hs hbad

/-! ### A whole life, and a short one -/

namespace ClkDev

theorem steps_run (l : List ClkOp)
    (hok : ∀ e ∈ clkSystem.steps probed l, clkSystem.allowed e.1 e.2) :
    Run clkSystem (clkSystem.steps probed l) (clkSystem.runFrom probed l) := by
  have r : Run clkSystem [] probed := Run.start rfl
  exact System.run_of_steps _ l r hok

instance (s : ClkDev) (a : ClkOp) : Decidable (clkSystem.allowed s a) :=
  inferInstanceAs (Decidable (s.allows a = true))

/-- An open whose chip answers as `config` says. -/
def openWith (config : List (BitVec 32)) : ClkOp :=
  .open false ⟨true, true, true, config, true,
    ⟨config, xcanSrConfigMask, [xcanSrNormalMask]⟩⟩

/-- An open that fails, one that does not, a sleep, and the end. -/
def wholeLife : List ClkOp :=
  [.getBerrCounter true true, openWith [0#32, 0#32], openWith [0#32, xcanSrConfigMask], .suspend,
    .resume true true, .getBerrCounter true false, .remove [xcanSrConfigMask]]

/-- Removed without ever having been opened. -/
def removedDown : List ClkOp := [.remove [xcanSrConfigMask]]

end ClkDev

open ClkDev in
theorem wholeLife_disciplined :
    (∀ e ∈ clkSystem.steps probed wholeLife, e.1.clocked e.2 = true) ∧
      ∀ x, Visits (clkSystem.steps probed wholeLife) (clkSystem.runFrom probed wholeLife) x →
        x.Disciplined := by
  have hgood : ∀ e ∈ clkSystem.steps probed wholeLife, e.1.clocked e.2 = true := by
    decide +kernel
  have r := steps_run wholeLife (by decide +kernel)
  exact ⟨hgood, (clocks_disciplined_iff r).mpr hgood⟩

open ClkDev in
/-- SRR is written, and SR read, with both clocks off. -/
theorem removedDown_not_disciplined :
    (¬ ∀ h s, Run clkSystem h s → ∀ x, Visits h s x → x.Disciplined) ∧
    (clkSystem.runFrom probed removedDown).clocks
      = ⟨⟨0, 0⟩, ⟨0, 0⟩, [.unclocked, .unclocked]⟩ := by
  have hfaults : (clkSystem.runFrom probed removedDown).clocks
      = ⟨⟨0, 0⟩, ⟨0, 0⟩, [.unclocked, .unclocked]⟩ := by decide +kernel
  refine ⟨fun hall => ?_, hfaults⟩
  have hdisc := hall _ _ (steps_run removedDown (by decide +kernel)) _ (Or.inl rfl)
  rw [ClkDev.Disciplined, hfaults] at hdisc
  exact absurd hdisc (by decide)

end CanBench.XilinxCan
