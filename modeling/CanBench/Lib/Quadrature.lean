/-
Two signals in quadrature.

A position in quarter turns is seen as a pair of bits that goes round 00, 10, 11, 01.  The
pair alone tells the position modulo 4, its `phase`.  A counter that knows the quarter it
is in needs the turns only, and can take them from the crossing between 01 and 00: that is
`phase_add_carry`, which holds as long as the pair moves by one step at a time.
-/
import Mathlib

namespace Lib

/-- One step on. -/
def turned (x : Bool × Bool) : Bool × Bool := (!x.2, x.1)

/-- The signed step from one pair to another. -/
def quarter (x y : Bool × Bool) : Int := if y = turned x then 1 else if x = turned y then -1 else 0

/-- At most one step apart. -/
def Adjacent (x y : Bool × Bool) : Prop := y = x ∨ y = turned x ∨ x = turned y

instance (x y : Bool × Bool) : Decidable (Adjacent x y) := inferInstanceAs (Decidable (_ ∨ _))

/-- The position modulo 4, in binary. -/
def phase (x : Bool × Bool) : Nat := 2 * x.2.toNat + (x.1 ^^ x.2).toNat

/-- The whole turn made by a step. -/
def carry (x y : Bool × Bool) : Int :=
  if x = (false, true) ∧ y = (false, false) then 1
  else if x = (false, false) ∧ y = (false, true) then -1
  else 0

theorem quarter_self (x : Bool × Bool) : quarter x x = 0 := by
  revert x
  decide

theorem phase_lt (x : Bool × Bool) : phase x < 4 := by
  revert x
  decide

theorem phase_testBit_zero (x : Bool × Bool) : (phase x).testBit 0 = (x.1 ^^ x.2) := by
  revert x
  decide

theorem phase_testBit_one (x : Bool × Bool) : (phase x).testBit 1 = x.2 := by
  revert x
  decide

/-- Turns and phase together make the step. -/
theorem phase_add_carry {x y : Bool × Bool} (h : Adjacent x y) :
    4 * carry x y + phase y = phase x + quarter x y := by
  revert x y
  decide

/-- The change of a position along a step of the pair: where both bits change it is two
quarters one way or the other. -/
def Moves (x y : Bool × Bool) (d : Int) : Prop :=
  if y = turned (turned x) then d = 2 ∨ d = -2 else d = quarter x y

theorem adjacent_or_opposite (x y : Bool × Bool) : Adjacent x y ∨ y = turned (turned x) := by
  revert x y
  decide

/-- Where both bits change, turns and phase take one of the two ways. -/
theorem phase_add_carry_opposite (x : Bool × Bool) :
    4 * carry x (turned (turned x)) + phase (turned (turned x)) = phase x + 2 ∨
    4 * carry x (turned (turned x)) + phase (turned (turned x)) = phase x + -2 := by
  revert x
  decide

/-- A step of the position is made by turns and phase up to a whole turn, and exactly unless
both bits change. -/
theorem Moves.phase_add_carry {x y : Bool × Bool} {d : Int} (h : Moves x y d) :
    ∃ k : Int, k.natAbs ≤ (decide (y = turned (turned x))).toNat ∧
      4 * carry x y + phase y = phase x + d + 4 * k := by
  unfold Moves at h
  by_cases hboth : y = turned (turned x)
  · rw [if_pos hboth] at h
    have hway := phase_add_carry_opposite x
    rw [← hboth] at hway
    rw [decide_eq_true hboth]
    rcases h with rfl | rfl <;> rcases hway with hway | hway
    · exact ⟨0, by decide, by omega⟩
    · exact ⟨-1, by decide, by omega⟩
    · exact ⟨1, by decide, by omega⟩
    · exact ⟨0, by decide, by omega⟩
  · rw [if_neg hboth] at h
    have hquarter := Lib.phase_add_carry ((adjacent_or_opposite x y).resolve_right hboth)
    exact ⟨0, Nat.zero_le _, by omega⟩

/-- The position after the first `k` steps of a sequence of pairs. -/
def position (p : Nat → Bool × Bool) : Nat → Int
  | 0 => 0
  | k + 1 => position p k + quarter (p k) (p (k + 1))

/-- Up to `n` the pairs move by a step at a time, and a new one stays for three. -/
structure Unhurried (p : Nat → Bool × Bool) (n : Nat) : Prop where
  adjacent : ∀ k < n, Adjacent (p k) (p (k + 1))
  persists : ∀ k < n, p (k + 1) ≠ p k → ∀ j, k + 1 ≤ j → j ≤ k + 3 → j ≤ n → p j = p (k + 1)

theorem Unhurried.mono {p : Nat → Bool × Bool} {m n : Nat} (h : Unhurried p n) (hmn : m ≤ n) :
    Unhurried p m where
  adjacent := fun k hk => h.adjacent k (by omega)
  persists := fun k hk hne j h1 h2 h3 => h.persists k (by omega) hne j h1 h2 (by omega)

/-- Of the last four pairs, the newer three are equal or the older two are. -/
theorem Unhurried.window {p : Nat → Bool × Bool} {n : Nat} (h : Unhurried p n) :
    (p (n - 2) = p (n - 1) ∧ p (n - 1) = p n) ∨ p (n - 3) = p (n - 2) := by
  by_cases hn : n < 3
  · right
    have h3 : n - 3 = 0 := by omega
    have h2 : n - 2 = 0 := by omega
    rw [h3, h2]
  · by_cases hsame : p (n - 2) = p (n - 3)
    · exact Or.inr hsame.symm
    · left
      have hk : n - 3 + 1 = n - 2 := by omega
      have hnew : p (n - 3 + 1) ≠ p (n - 3) := by rw [hk]; exact hsame
      have h1 := h.persists (n - 3) (by omega) hnew (n - 1) (by omega) (by omega) (by omega)
      have h0 := h.persists (n - 3) (by omega) hnew n (by omega) (by omega) (Nat.le_refl n)
      rw [hk] at h1 h0
      rw [h1, h0]
      exact ⟨rfl, rfl⟩

end Lib
