/-
Byte-enable merges.

Bus slaves update a register lane by lane: a loop over the byte lanes copies the
lanes whose strobe is set and leaves the rest.  `writeLanes` is that loop, over
whatever lanes the caller lists and in that order; `mergeBytes` says bit by bit what
the outcome is.  They agree as soon as the listed lanes cover the word, so the order
in which a design walks its lanes does not matter.
-/
import Mathlib

namespace Lib

variable {w m : Nat}

/-- `res(lo+len-1 downto lo) := src(lo+len-1 downto lo)`. -/
def setSlice (res src : BitVec w) (lo len : Nat) : BitVec w :=
  BitVec.ofFnLE fun k => if lo ≤ k.val ∧ k.val < lo + len then src.getLsb k else res.getLsb k

/-- The loop over the byte lanes. -/
def writeLanes (lanes : List Nat) (reg wr : BitVec w) (be : BitVec m) : BitVec w :=
  lanes.foldl (fun res i => if be.getLsbD i then setSlice res wr (i * 8) 8 else res) reg

/-- The word whose enabled bytes come from `wr` and whose other bytes come from `reg`. -/
def mergeBytes (reg wr : BitVec w) (be : BitVec m) : BitVec w :=
  BitVec.ofFnLE fun k => if be.getLsbD (k.val / 8) then wr.getLsb k else reg.getLsb k

theorem setSlice_getElem (res src : BitVec w) (lo len k : Nat) (hk : k < w) :
    (setSlice res src lo len)[k] = if lo ≤ k ∧ k < lo + len then src[k] else res[k] := by
  simp [setSlice]

theorem mergeBytes_getElem (reg wr : BitVec w) (be : BitVec m) (k : Nat) (hk : k < w) :
    (mergeBytes reg wr be)[k] = if be.getLsbD (k / 8) then wr[k] else reg[k] := by
  simp [mergeBytes]

/-- A bit is overwritten exactly when its lane is listed and enabled. -/
theorem writeLanes_getElem (lanes : List Nat) (wr : BitVec w) (be : BitVec m) (k : Nat)
    (hk : k < w) : ∀ reg : BitVec w, (writeLanes lanes reg wr be)[k]
      = if k / 8 ∈ lanes ∧ be.getLsbD (k / 8) = true then wr[k] else reg[k] := by
  induction lanes with
  | nil => intro reg; simp [writeLanes]
  | cons i rest ih =>
      intro reg
      have hlane : (i * 8 ≤ k ∧ k < i * 8 + 8) ↔ k / 8 = i := by omega
      have hstep : writeLanes (i :: rest) reg wr be
          = writeLanes rest (if be.getLsbD i then setSlice reg wr (i * 8) 8 else reg) wr be := rfl
      rw [hstep, ih]
      by_cases hbe : be.getLsbD i = true
      · rw [if_pos hbe, setSlice_getElem]
        by_cases hki : k / 8 = i
        · simp [hlane, hki, hbe]
        · simp [hlane, hki]
      · rw [if_neg hbe]
        by_cases hki : k / 8 = i
        · simp [hki, hbe]
        · simp [hki]

/-- **The loop is the merge**, whatever order it takes the lanes in. -/
theorem writeLanes_eq_mergeBytes {lanes : List Nat} (hcover : ∀ k < w, k / 8 ∈ lanes)
    (reg wr : BitVec w) (be : BitVec m) : writeLanes lanes reg wr be = mergeBytes reg wr be := by
  apply BitVec.eq_of_getElem_eq
  intro k hk
  rw [writeLanes_getElem _ _ _ _ hk, mergeBytes_getElem]
  simp [hcover k hk]

end Lib
