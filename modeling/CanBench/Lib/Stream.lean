/-
Machines that carry a stream.

What goes in comes out, in order, except for what is still on its way: that is an equation
between three lists, and it is kept by every step that keeps it by itself.  The logs are read
off the history of a run, and a reset forgets both of them.
-/
import CanBench.Lib.Runs

namespace Lib

universe u v w

variable {σ : Type u} {ι : Type v} {α : Type w}

/-- What the steps of a history have emitted since the last one that clears the log. -/
def logged (clears : σ × ι → Bool) (emits : σ × ι → List α) (h : List (σ × ι)) : List α :=
  h.foldl (fun log e => if clears e then [] else log ++ emits e) []

section Logged

variable {clears : σ × ι → Bool} {emits : σ × ι → List α} {h q : List (σ × ι)} {e : σ × ι}

@[simp] theorem logged_nil : logged clears emits [] = [] := rfl

theorem logged_concat :
    logged clears emits (h ++ [e])
      = if clears e then [] else logged clears emits h ++ emits e := by
  simp [logged, List.foldl_append]

/-- Steps that emit nothing leave the log as it is. -/
theorem logged_append_silent (hq : ∀ e ∈ q, clears e = false ∧ emits e = []) :
    logged clears emits (h ++ q) = logged clears emits h := by
  induction q using List.reverseRecOn with
  | nil => rw [List.append_nil]
  | append_singleton q e ih =>
      obtain ⟨hclear, hemit⟩ := hq e (by simp)
      rw [← List.append_assoc, logged_concat, hclear, hemit, List.append_nil]
      exact ih fun e he => hq e (List.mem_append.mpr (Or.inl he))

end Logged

variable {M : System σ ι} {J : σ → Prop} {clears : σ × ι → Bool}
  {takes gives : σ × ι → List α}

/--
**Conservation.**  If every step between two resets moves words from the front of what is on
its way to the output and appends the new ones at its end, then along a run everything taken
in has been given out or is on its way, in order.
-/
theorem Run.conserved {h : List (σ × ι)} {s : σ} (r : Run M h s) (holds : σ → List α)
    (hinit : ∀ s, M.init s → J s ∧ holds s = [])
    (hstep : ∀ s i, J s → M.allowed s i → J (M.next s i))
    (hclear : ∀ s i, J s → M.allowed s i → clears (s, i) = true → holds (M.next s i) = [])
    (hflow : ∀ s i, J s → M.allowed s i → clears (s, i) = false →
      holds s ++ takes (s, i) = gives (s, i) ++ holds (M.next s i)) :
    logged clears takes h = logged clears gives h ++ holds s := by
  induction r with
  | start hs => exact (hinit _ hs).2.symm
  | @step h s i r ok ih =>
      have hJ : J s := r.invariant (fun s hs => (hinit s hs).1) hstep
      rw [logged_concat, logged_concat]
      cases hc : clears (s, i) with
      | true => exact (hclear s i hJ ok hc).symm
      | false =>
          rw [if_neg Bool.false_ne_true, if_neg Bool.false_ne_true, ih, List.append_assoc,
            List.append_assoc, hflow s i hJ ok hc]

/-- Where nothing is given out and nothing cleared, what has been taken in is all there. -/
theorem Run.accumulated {h : List (σ × ι)} {s : σ} (r : Run M h s) (holds : σ → List α)
    (hinit : ∀ s, M.init s → J s ∧ holds s = [])
    (hstep : ∀ s i, J s → M.allowed s i → J (M.next s i))
    (hflow : ∀ s i, J s → M.allowed s i → holds s ++ takes (s, i) = holds (M.next s i)) :
    logged (fun _ => false) takes h = holds s := by
  have hlog : logged (fun _ => false) takes h
      = logged (fun _ => false) (fun _ => []) h ++ holds s := by
    refine r.conserved (J := J) holds hinit hstep ?_ ?_
    · intro s i _ _ hclear
      exact absurd hclear Bool.false_ne_true
    · intro s i hs hok _
      exact hflow s i hs hok
  have hsilent : logged (fun _ => false) (fun _ => ([] : List α)) h = [] :=
    logged_append_silent (h := []) fun _ _ => ⟨rfl, rfl⟩
  rw [hlog, hsilent, List.nil_append]

/-- A rank that every quiet step lowers is down by their number after a stretch of them. -/
theorem Run.drained {h : List (σ × ι)} {s s₀ : σ} (quiet : σ × ι → Prop) (rank : σ → Nat)
    (r : Run (M.startedIn s₀) h s) (h₀ : J s₀)
    (hstep : ∀ s i, J s → M.allowed s i → J (M.next s i))
    (hrank : ∀ s i, J s → M.allowed s i → quiet (s, i) → rank (M.next s i) ≤ rank s - 1)
    (hquiet : ∀ e ∈ h, quiet e) : rank s ≤ rank s₀ - h.length := by
  induction r with
  | start hs =>
      obtain rfl := hs
      exact Nat.le_refl _
  | @step h s i r ok ih =>
      have hstart : ∀ s, (M.startedIn s₀).init s → J s := by
        rintro s rfl
        exact h₀
      have hJ : J s := r.invariant hstart hstep
      have hbefore := ih fun e he => hquiet e (List.mem_append.mpr (Or.inl he))
      have hlast := hrank s i hJ ok (hquiet (s, i) (by simp))
      have hlen : (h ++ [(s, i)]).length = h.length + 1 := by simp
      show rank (M.next s i) ≤ _
      omega

end Lib
