/-
Waveforms and their periods.

`stateAt` is the state at each step of an unending sequence of inputs.

A machine is watched at some of its steps, and shows then whether a period begins and what
its output is.  `trace` is what was seen, `periods` the outputs of the complete periods:
what stands before the first beginning and after the last is left out.

`periods_of_invariant` is the induction every statement about periods needs.  Its invariant
relates the machine to the part of the current period already seen; it has to hold of the
first output after any beginning, and survive the steps in between.
-/
import Mathlib.Data.List.Basic

namespace Lib

universe u v w

variable {σ : Type u} {ι : Type v} {α : Type w}

/-- The state before the `k`-th input of a sequence. -/
def stateAt (next : σ → ι → σ) (s : σ) (inputs : Nat → ι) : Nat → σ
  | 0 => s
  | k + 1 => next (stateAt next s inputs k) (inputs k)

/-- What is seen of a machine over a list of inputs. -/
def trace (next : σ → ι → σ) (observe : σ → ι → Option (Bool × α)) : σ → List ι → List (Bool × α)
  | _, [] => []
  | s, i :: rest => (observe s i).toList ++ trace next observe (next s i) rest

/-- The complete periods, `cur` being what there is of the one under way. -/
def periodsFrom : Option (List α) → List (Bool × α) → List (List α)
  | _, [] => []
  | cur, (true, a) :: rest => cur.toList ++ periodsFrom (some [a]) rest
  | none, (false, _) :: rest => periodsFrom none rest
  | some p, (false, a) :: rest => periodsFrom (some (p ++ [a])) rest

def periods (l : List (Bool × α)) : List (List α) := periodsFrom none l

/-- What an invariant says of the part of a period seen so far holds of the whole period
at its end. -/
theorem periods_of_invariant {next : σ → ι → σ} {observe : σ → ι → Option (Bool × α)}
    {A : ι → Prop} {I : σ → List α → Prop} {Q : List α → Prop}
    (hunseen : ∀ s i p, A i → I s p → observe s i = none → I (next s i) p)
    (hbegin : ∀ s i a, A i → observe s i = some (true, a) → I (next s i) [a])
    (hmore : ∀ s i a p, A i → I s p → observe s i = some (false, a) → I (next s i) (p ++ [a]))
    (hend : ∀ s i a p, A i → I s p → observe s i = some (true, a) → Q p) (l : List ι) :
    ∀ (s : σ) (cur : Option (List α)), (∀ i ∈ l, A i) → (∀ p ∈ cur, I s p) →
      ∀ p ∈ periodsFrom cur (trace next observe s l), Q p := by
  induction l with
  | nil => intro s cur _ _ p hp; simp [trace, periodsFrom] at hp
  | cons i rest ih =>
      intro s cur hall hcur p hp
      have hi : A i := hall i (by simp)
      have hrest : ∀ j ∈ rest, A j := fun j hj => hall j (by simp [hj])
      rw [trace] at hp
      cases hobs : observe s i with
      | none =>
          rw [hobs] at hp
          exact ih _ cur hrest (fun p' hp' => hunseen s i p' hi (hcur p' hp') hobs) p hp
      | some o =>
          obtain ⟨b, a⟩ := o
          rw [hobs] at hp
          cases b with
          | true =>
              rcases List.mem_append.mp hp with hend' | hlater
              · exact hend s i a p hi (hcur p (by simpa using hend')) hobs
              · refine ih _ (some [a]) hrest ?_ p hlater
                intro p' hp'
                obtain rfl : [a] = p' := by simpa using hp'
                exact hbegin s i a hi hobs
          | false =>
              cases cur with
              | none => exact ih _ none hrest (fun p' hp' => by simp at hp') p hp
              | some c =>
                  refine ih _ (some (c ++ [a])) hrest ?_ p hp
                  intro p' hp'
                  obtain rfl : c ++ [a] = p' := by simpa using hp'
                  exact hmore s i a c hi (hcur c (by simp)) hobs

/-! ### A pulse -/

/-- `v` clocks of `d`, the rest of the `n` clocks `z`. -/
def pulse (v n : Nat) (d z : α) : List α := List.replicate (min v n) d ++ List.replicate (n - v) z

theorem pulse_succ (v n : Nat) (d z : α) :
    pulse v (n + 1) d z = pulse v n d z ++ [if n < v then d else z] := by
  unfold pulse
  by_cases hn : n < v
  · have hlow : n - v = 0 := by omega
    have hlow' : n + 1 - v = 0 := by omega
    rw [if_pos hn, hlow, hlow', Nat.min_eq_right (by omega), Nat.min_eq_right (by omega)]
    simp [List.replicate_succ']
  · have hrest : n + 1 - v = n - v + 1 := by omega
    rw [if_neg hn, hrest, Nat.min_eq_left (by omega), Nat.min_eq_left (by omega),
      List.replicate_succ', List.append_assoc]

end Lib
