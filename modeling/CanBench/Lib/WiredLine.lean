/-
Wired lines: the level of a line is the infimum of what is attached to it.

An open-collector bus computes a conjunction without a gate: whoever pulls the line
down wins, and a line nobody pulls floats to the top.  `wired` is that level for any
meet-semilattice with a top, any set of drivers and any way of attaching them to
lines.  A multiplexed implementation reaches the same level by letting *every* driver
drive *every* line, with a floating value on the lines it is not attached to;
`wired_eq_inf_ite` says that this is no different, and `foldl_inf_eq` that folding the
drivers one by one is no different either.
-/
import Mathlib.Data.Finset.Lattice.Fold
import Mathlib.Data.Fintype.Basic
import Mathlib.Data.List.FinRange

namespace Lib

universe u v w

variable {ι : Type u} {κ : Type v} {α : Type w} [Fintype ι] [DecidableEq κ]
  [SemilatticeInf α] [OrderTop α]

/-- The level of line `l` when `i` is attached to `line i` and pulls it to `drive i`. -/
def wired (line : ι → κ) (drive : ι → α) (l : κ) : α :=
  (Finset.univ.filter fun i => line i = l).inf drive

variable {line : ι → κ} {drive : ι → α} {l : κ}

/-- No driver is ever above the line it is attached to. -/
theorem wired_le (line : ι → κ) (drive : ι → α) (i : ι) : wired line drive (line i) ≤ drive i :=
  Finset.inf_le (by simp)

theorem le_wired_iff {a : α} : a ≤ wired line drive l ↔ ∀ i, line i = l → a ≤ drive i := by
  simp [wired, Finset.le_inf_iff]

/-- A line nothing is attached to floats. -/
theorem wired_undriven (h : ∀ i, line i ≠ l) : wired line drive l = ⊤ :=
  top_le_iff.mp (le_wired_iff.mpr fun i hi => absurd hi (h i))

/-- If everything attached to a line agrees, the line shows what they agree on. -/
theorem wired_const {a : α} (hsome : ∃ i, line i = l) (h : ∀ i, line i = l → drive i = a) :
    wired line drive l = a := by
  obtain ⟨i, hi⟩ := hsome
  refine le_antisymm ?_ (le_wired_iff.mpr fun j hj => (h j hj).ge)
  calc wired line drive l = wired line drive (line i) := by rw [hi]
    _ ≤ drive i := wired_le line drive i
    _ = a := h i hi

/-- Only what is attached to the line matters. -/
theorem wired_congr {drive' : ι → α} (h : ∀ i, line i = l → drive i = drive' i) :
    wired line drive l = wired line drive' l := by
  refine Finset.inf_congr rfl ?_
  intro i hi
  exact h i (by simpa using hi)

/-- Driving every line, with the floating level where one is not attached, is the same. -/
theorem wired_eq_inf_ite (line : ι → κ) (drive : ι → α) (l : κ) :
    wired line drive l = Finset.univ.inf fun i => if line i = l then drive i else ⊤ := by
  refine le_antisymm (Finset.le_inf fun i _ => ?_) (le_wired_iff.mpr fun i hi => ?_)
  · by_cases hi : line i = l
    · rw [if_pos hi, ← hi]; exact wired_le line drive i
    · rw [if_neg hi]; exact le_top
  · refine (Finset.inf_le (Finset.mem_univ i)).trans ?_
    rw [if_pos hi]

/-- Folding the meet over the drivers, in any list order, gives their infimum. -/
theorem foldl_inf_eq {n : Nat} (f : Fin n → α) :
    (List.finRange n).foldl (fun acc i => acc ⊓ f i) ⊤ = Finset.univ.inf f := by
  have hfold : ∀ (l : List (Fin n)) (acc : α),
      l.foldl (fun acc i => acc ⊓ f i) acc = acc ⊓ l.toFinset.inf f := by
    intro l
    induction l with
    | nil => intro acc; simp
    | cons i rest ih => intro acc; simp [ih, inf_assoc]
  rw [hfold, top_inf_eq]
  congr 1
  ext i
  simp

end Lib
