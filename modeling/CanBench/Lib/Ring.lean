/-
Slots addressed by free-running counters.

Two counters of `w` bits run freely and wrap; entry `n` is kept in slot `n % size`.  The
entries between the tail and the head counter form a `Window` on the slots.  It can be
pushed at the head while its slot is free, and popped at the tail.

While fewer than `size` entries are kept, the head's slot is free unless the counters
have wrapped and `size` does not divide `2 ^ w`: then the residues jump at the wrap, and
`wrapClash` says exactly when an entry from before the wrap sits in the head's slot.
-/
import Mathlib

namespace Lib

universe u

variable {w : Nat} {α : Type u}

/-- The slot of entry `n`. -/
def ringSlot (size n : BitVec w) : Nat := n.toNat % size.toNat

/-- An entry from before the wrap, not yet popped, has the slot of the head. -/
def wrapClash (size head tail : BitVec w) : Prop :=
  head.toNat < tail.toNat ∧ head.toNat < 2 ^ w % size.toNat ∧
    tail.toNat + 2 ^ w % size.toNat ≤ 2 ^ w + head.toNat

instance (size head tail : BitVec w) : Decidable (wrapClash size head tail) :=
  inferInstanceAs (Decidable (_ ∧ _ ∧ _))

/-- A size that divides the range of the counters never clashes. -/
theorem not_wrapClash_of_dvd {size : BitVec w} (h : size.toNat ∣ 2 ^ w) (head tail : BitVec w) :
    ¬ wrapClash size head tail := by
  intro hclash
  obtain ⟨-, hlt, -⟩ := hclash
  rw [Nat.mod_eq_zero_of_dvd h] at hlt
  omega

/-! ### Counting -/

theorem toNat_sub_eq (head tail : BitVec w) : (head - tail).toNat =
    if tail.toNat ≤ head.toNat then head.toNat - tail.toNat
    else 2 ^ w + head.toNat - tail.toNat := by
  have ht := tail.isLt
  have hh := head.isLt
  rw [BitVec.toNat_sub]
  by_cases hle : tail.toNat ≤ head.toNat
  · rw [if_pos hle, show 2 ^ w - tail.toNat + head.toNat = 2 ^ w + (head.toNat - tail.toNat) by omega,
      Nat.add_mod_left, Nat.mod_eq_of_lt (by omega)]
  · rw [if_neg hle, Nat.mod_eq_of_lt (by omega)]
    omega

theorem toNat_one {n : Nat} (hw : 1 < 2 ^ n) : (1 : BitVec n).toNat = 1 := by
  show (BitVec.ofNat n 1).toNat = 1
  rw [BitVec.toNat_ofNat, Nat.mod_eq_of_lt hw]

theorem toNat_sub_succ {head tail : BitVec w} (h : (head - tail).toNat + 1 < 2 ^ w) :
    (head + 1 - tail).toNat = (head - tail).toNat + 1 := by
  rw [show head + 1 - tail = head - tail + 1 by ring, BitVec.toNat_add, toNat_one (by omega),
    Nat.mod_eq_of_lt h]

theorem toNat_sub_pred {head tail : BitVec w} (h : 0 < (head - tail).toNat) :
    (head - (tail + 1)).toNat = (head - tail).toNat - 1 := by
  have hlt := (head - tail).isLt
  have hone : (1 : BitVec w).toNat = 1 := toNat_one (by omega)
  rw [show head - (tail + 1) = head - tail - 1 by ring, BitVec.toNat_sub_of_le, hone]
  rw [BitVec.le_def, hone]
  exact h

/-- The head counter, reached from the tail. -/
theorem tail_add_sub (head tail : BitVec w) :
    tail + BitVec.ofNat w (head - tail).toNat = head := by
  rw [BitVec.ofNat_toNat, BitVec.setWidth_eq]
  ring

theorem toNat_tail_add (tail : BitVec w) {k : Nat} (hk : k < 2 ^ w) :
    (tail + BitVec.ofNat w k).toNat =
      if tail.toNat + k < 2 ^ w then tail.toNat + k else tail.toNat + k - 2 ^ w := by
  have ht := tail.isLt
  rw [BitVec.toNat_add, BitVec.toNat_ofNat, Nat.mod_eq_of_lt hk]
  by_cases hlt : tail.toNat + k < 2 ^ w
  · rw [if_pos hlt, Nat.mod_eq_of_lt hlt]
  · rw [if_neg hlt, Nat.mod_eq_sub_mod (by omega), Nat.mod_eq_of_lt (by omega)]

/-- Two numbers less than `size` apart have different residues. -/
theorem mod_ne_of_lt {size a b : Nat} (hab : a < b) (hsize : b < a + size) :
    a % size ≠ b % size := by
  intro h
  have hdvd : size ∣ b - a := (Nat.modEq_iff_dvd' hab.le).mp h
  have := Nat.le_of_dvd (by omega) hdvd
  omega

/-- **The head's slot is taken by an entry of the window exactly if there is a clash.** -/
theorem ringSlot_eq_head_iff {size head tail : BitVec w}
    (hlen : (head - tail).toNat < size.toNat) :
    (∃ k < (head - tail).toNat,
      ringSlot size (tail + BitVec.ofNat w k) = ringSlot size head) ↔ wrapClash size head tail := by
  have ht := tail.isLt
  have hh := head.isLt
  have hs := size.isLt
  have hsub := toNat_sub_eq head tail
  unfold ringSlot
  refine ⟨?_, ?_⟩
  · rintro ⟨k, hk, heq⟩
    rw [toNat_tail_add tail (by omega)] at heq
    by_cases hle : tail.toNat ≤ head.toNat
    · rw [if_pos hle] at hsub
      rw [if_pos (by omega)] at heq
      exact absurd heq (mod_ne_of_lt (by omega) (by omega))
    · rw [if_neg hle] at hsub
      by_cases hwrap : tail.toNat + k < 2 ^ w
      · rw [if_pos hwrap] at heq
        -- `m` is how far before the wrapped head the entry lies
        obtain ⟨m, hm⟩ : ∃ m, tail.toNat + k + m = 2 ^ w + head.toNat :=
          ⟨2 ^ w + head.toNat - (tail.toNat + k), by omega⟩
        have hmod : 2 ^ w ≡ m [MOD size.toNat] := by
          have h1 : tail.toNat + k + m ≡ head.toNat + m [MOD size.toNat] := Nat.ModEq.add_right m heq
          rw [hm, Nat.add_comm (2 ^ w)] at h1
          exact Nat.ModEq.add_left_cancel' _ h1
        have hr : 2 ^ w % size.toNat = m := by
          rw [hmod, Nat.mod_eq_of_lt (by omega)]
        refine ⟨by omega, ?_, ?_⟩ <;> rw [hr] <;> omega
      · rw [if_neg hwrap] at heq
        exact absurd heq (mod_ne_of_lt (by omega) (by omega))
  · rintro ⟨hlt, hr, hle⟩
    rw [if_neg (by omega)] at hsub
    refine ⟨2 ^ w + head.toNat - 2 ^ w % size.toNat - tail.toNat, by omega, ?_⟩
    rw [toNat_tail_add tail (by omega), if_pos (by omega)]
    have hdiv := Nat.div_add_mod (2 ^ w) size.toNat
    rw [show tail.toNat + (2 ^ w + head.toNat - 2 ^ w % size.toNat - tail.toNat)
      = head.toNat + size.toNat * (2 ^ w / size.toNat) by omega, Nat.add_mul_mod_self_left]

/-! ### The window -/

/-- `l` is kept between `tail` and `head`, oldest first, and nothing else is kept. -/
structure Window (size head tail : BitVec w) (slots : Nat → Option α) (l : List α) : Prop where
  len : l.length = (head - tail).toNat
  le : l.length ≤ size.toNat
  filled : ∀ (k : Nat) (hk : k < l.length),
    slots (ringSlot size (tail + BitVec.ofNat w k)) = some l[k]
  only : ∀ n, slots n ≠ none → ∃ k < l.length, n = ringSlot size (tail + BitVec.ofNat w k)
  distinct : ∀ j k, j < k → k < l.length →
    ringSlot size (tail + BitVec.ofNat w j) ≠ ringSlot size (tail + BitVec.ofNat w k)

namespace Window

variable {size head tail : BitVec w} {slots : Nat → Option α} {l : List α}

theorem empty (size head : BitVec w) :
    Window size head head (fun _ => none : Nat → Option α) [] :=
  ⟨by simp, by simp, by simp, by simp, by simp⟩

/-- The head's slot is free unless there is a clash. -/
theorem free_iff (h : Window size head tail slots l) (hlen : (head - tail).toNat < size.toNat) :
    slots (ringSlot size head) = none ↔ ¬ wrapClash size head tail := by
  rw [← ringSlot_eq_head_iff hlen, ← h.len]
  refine ⟨?_, ?_⟩
  · rintro hnone ⟨k, hk, heq⟩
    have := h.filled k hk
    rw [heq, hnone] at this
    exact absurd this (by simp)
  · intro hno
    by_contra hne
    obtain ⟨k, hk, heq⟩ := h.only _ hne
    exact hno ⟨k, hk, heq.symm⟩

/-- An entry put into the free slot at the head. -/
theorem push (h : Window size head tail slots l) (x : α)
    (hlen : (head - tail).toNat < size.toNat) (hfree : slots (ringSlot size head) = none) :
    Window size (head + 1) tail (Function.update slots (ringSlot size head) (some x))
      (l ++ [x]) := by
  have hs := size.isLt
  have hhead : tail + BitVec.ofNat w l.length = head := by
    rw [h.len]
    exact tail_add_sub head tail
  have hne : ∀ k < l.length, ringSlot size (tail + BitVec.ofNat w k) ≠ ringSlot size head := by
    intro k hk heq
    have := h.filled k hk
    rw [heq, hfree] at this
    exact absurd this (by simp)
  refine ⟨?_, ?_, ?_, ?_, ?_⟩
  · rw [toNat_sub_succ (by omega), List.length_append, h.len]
    rfl
  · rw [List.length_append, h.len]
    exact hlen
  · intro k hk
    rcases Nat.lt_or_eq_of_le (Nat.lt_succ_iff.mp (by simpa using hk)) with hlt | rfl
    · rw [Function.update_of_ne (hne k hlt), h.filled k hlt, List.getElem_append_left hlt]
    · rw [hhead, Function.update_self]
      simp
  · intro n hn
    by_cases heq : n = ringSlot size head
    · exact ⟨l.length, by simp, by rw [hhead, heq]⟩
    · rw [Function.update_of_ne heq] at hn
      obtain ⟨k, hk, hslot⟩ := h.only n hn
      exact ⟨k, by rw [List.length_append]; omega, hslot⟩
  · intro j k hjk hk
    rcases Nat.lt_or_eq_of_le (Nat.lt_succ_iff.mp (by simpa using hk)) with hlt | rfl
    · exact h.distinct j k hjk hlt
    · rw [hhead]
      exact hne j hjk

/-- The oldest entry is at the tail. -/
theorem oldest {x : α} (h : Window size head tail slots (x :: l)) :
    slots (ringSlot size tail) = some x := by
  have := h.filled 0 (by simp)
  simpa using this

/-- The oldest entry taken out. -/
theorem pop {x : α} (h : Window size head tail slots (x :: l)) :
    Window size head (tail + 1) (Function.update slots (ringSlot size tail) none) l := by
  have hlen : 0 < (head - tail).toNat := by
    rw [← h.len]
    simp
  have hshift : ∀ k : Nat, tail + 1 + BitVec.ofNat w k = tail + BitVec.ofNat w (k + 1) := by
    intro k
    rw [BitVec.ofNat_add, BitVec.add_assoc, BitVec.add_comm 1]
    rfl
  have hne : ∀ k < l.length,
      ringSlot size (tail + BitVec.ofNat w (k + 1)) ≠ ringSlot size tail := by
    intro k hk heq
    have := h.distinct 0 (k + 1) (by omega) (by simp; omega)
    simp only [BitVec.add_zero] at this
    exact this heq.symm
  refine ⟨?_, ?_, ?_, ?_, ?_⟩
  · rw [toNat_sub_pred hlen, ← h.len]
    simp
  · have := h.le
    simp at this
    omega
  · intro k hk
    rw [hshift, Function.update_of_ne (hne k hk), h.filled (k + 1) (by simp; omega)]
    simp
  · intro n hn
    by_cases heq : n = ringSlot size tail
    · rw [heq, Function.update_self] at hn
      exact absurd rfl hn
    · rw [Function.update_of_ne heq] at hn
      obtain ⟨k, hk, hslot⟩ := h.only n hn
      cases k with
      | zero => exact absurd (by simpa using hslot) heq
      | succ k => exact ⟨k, by simp at hk; omega, by rw [hshift, hslot]⟩
  · intro j k hjk hk
    rw [hshift, hshift]
    exact h.distinct (j + 1) (k + 1) (by omega) (by simp; omega)

end Window

end Lib
