/-
Runs of equal samples.

A stream falls into maximal constant runs; `longRuns n` is the values of those that have at
least `n` samples.  A filter gets there from the other side: it looks at `n` samples at a
time, and its output follows when they are equal.  `settle` is that output at each place of
the stream.

`merged_settle` says that the two agree up to repetitions.  The induction takes one sample
off the front: it makes the run behind it long enough, or it was long enough already, or it
still is not, and `replicate_prefix_iff` tells which from what the filter sees.
-/
import Mathlib

namespace Lib

universe u

variable {α : Type u} [DecidableEq α]

/-- Equal neighbours merged. -/
def merged (l : List α) : List α := l.destutter (· ≠ ·)

/-- The values of the maximal constant runs of length at least `n`. -/
def longRuns (n : Nat) (l : List α) : List α :=
  ((l.splitBy (· == ·)).filter fun r => n ≤ r.length).filterMap List.head?

/-- An output that follows when the next `n` samples are equal, and starts at `q`. -/
def settle (n : Nat) : α → List α → List α
  | _, [] => []
  | q, x :: l =>
      let q' := if List.replicate n x <+: x :: l then x else q
      q' :: settle n q' l

/-! ### Merging -/

@[simp] theorem merged_cons_self (x : α) (l : List α) : merged (x :: x :: l) = merged (x :: l) := by
  unfold merged
  rw [List.destutter_cons_cons, if_neg (fun h => h rfl)]
  rfl

/-- What stands in front can be put in front of either. -/
theorem merged_cons_congr {q x : α} {l l' : List α} (h : merged (x :: l) = merged (x :: l')) :
    merged (q :: x :: l) = merged (q :: x :: l') := by
  unfold merged at *
  rw [List.destutter_cons_cons, List.destutter_cons_cons]
  by_cases hqx : q ≠ x
  · rw [if_pos hqx, if_pos hqx]
    exact congrArg (q :: ·) h
  · obtain rfl : q = x := by simpa using hqx
    rw [if_neg hqx, if_neg hqx]
    exact h

/-! ### The run in front -/

/-- A list begins with a run of any value, of no samples if it begins with another. -/
theorem exists_run_in_front (x : α) (l : List α) :
    ∃ m rest, l = List.replicate m x ++ rest ∧ x ∉ rest.head? := by
  induction l with
  | nil => exact ⟨0, [], rfl, by simp⟩
  | cons y l ih =>
      by_cases hy : y = x
      · obtain ⟨m, rest, rfl, hrest⟩ := ih
        refine ⟨m + 1, rest, ?_, hrest⟩
        rw [hy, List.replicate_succ, List.cons_append]
      · exact ⟨0, y :: l, rfl, by simpa using hy⟩

omit [DecidableEq α] in
theorem replicate_prefix_iff {n m : Nat} {x : α} {rest : List α} (hrest : x ∉ rest.head?) :
    List.replicate n x <+: List.replicate m x ++ rest ↔ n ≤ m := by
  refine ⟨fun h => ?_, fun h => ?_⟩
  · by_contra hlt
    obtain ⟨k, rfl⟩ : ∃ k, n = m + (k + 1) := ⟨n - m - 1, by omega⟩
    rw [List.replicate_add, List.prefix_append_right_inj, List.replicate_succ] at h
    obtain ⟨t, rfl⟩ := h
    simp at hrest
  · obtain ⟨k, rfl⟩ := Nat.exists_eq_add_of_le h
    rw [List.replicate_add, List.append_assoc]
    exact List.prefix_append _ _

theorem longRuns_append {n m : Nat} (hn : 0 < n) {x : α} {rest : List α}
    (hrest : x ∉ rest.head?) :
    longRuns n (List.replicate m x ++ rest)
      = if n ≤ m then x :: longRuns n rest else longRuns n rest := by
  cases m with
  | zero => rw [if_neg (by omega)]; rfl
  | succ m =>
      have hchain : (List.replicate (m + 1) x).IsChain fun a b => (a == b) = true :=
        List.isChain_replicate_of_rel _ (by simp)
      have hsplit : (List.replicate (m + 1) x ++ rest).splitBy (· == ·)
          = List.replicate (m + 1) x :: rest.splitBy (· == ·) := by
        rw [List.splitBy_append, List.splitBy_of_isChain (by simp) hchain]
        · rfl
        · intro a ha b hb
          obtain rfl : x = a := by simpa [List.getLast?_replicate] using ha
          exact beq_eq_false_iff_ne.mpr fun hxb => hrest (hxb ▸ hb)
      unfold longRuns
      rw [hsplit]
      by_cases hlong : n ≤ m + 1
      · rw [if_pos hlong, List.filter_cons_of_pos (by simpa using hlong)]
        rfl
      · rw [if_neg hlong, List.filter_cons_of_neg (by simpa using hlong)]

/-- **The filter finds the long runs.** -/
theorem merged_settle {n : Nat} (hn : 0 < n) (l : List α) :
    ∀ q : α, merged (q :: settle n q l) = merged (q :: longRuns n l) := by
  induction l with
  | nil => intro q; rfl
  | cons x l ih =>
      intro q
      obtain ⟨m, rest, hl, hrest⟩ := exists_run_in_front x l
      have hlong : longRuns n l = if n ≤ m then x :: longRuns n rest else longRuns n rest := by
        rw [hl, longRuns_append hn hrest]
      have hcons : x :: l = List.replicate (m + 1) x ++ rest := by
        rw [hl, List.replicate_succ, List.cons_append]
      have hlong' : longRuns n (x :: l)
          = if n ≤ m + 1 then x :: longRuns n rest else longRuns n rest := by
        rw [hcons, longRuns_append hn hrest]
      have hsees : List.replicate n x <+: x :: l ↔ n ≤ m + 1 := by
        rw [hcons, replicate_prefix_iff hrest]
      rw [settle, hlong']
      by_cases hfirst : n ≤ m + 1
      · rw [if_pos (hsees.mpr hfirst), if_pos hfirst, merged_cons_congr (ih x), hlong]
        by_cases hlater : n ≤ m
        · rw [if_pos hlater]
          exact merged_cons_congr (merged_cons_self _ _)
        · rw [if_neg hlater]
      · rw [if_neg (hsees.not.mpr hfirst), if_neg hfirst, merged_cons_self, ih, hlong,
          if_neg (by omega)]

end Lib
