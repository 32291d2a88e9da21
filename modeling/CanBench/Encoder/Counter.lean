/-
The quadrature counter.

The two low bits of `qcount` are the phase of the pair, the upper ones the turns, counted
where the pair passes between 01 and 00.  Both together make the step of the pair if it is
a single one.  A pair that jumps has passed 01 and 00 or not, and either way the counter
takes one of the two ways round, so that a position that went the other way is off by a
whole turn: by 4.
-/
import CanBench.Encoder.Impl
import CanBench.Lib.Rollover
import CanBench.Lib.Waveform

namespace CanBench.Encoder

open Lib

/-! ### One clock -/

namespace Qcounter

variable {bitwidth : Nat} {s : Qcounter bitwidth}

/-- The two low bits are the phase of the pair. -/
theorem qcount_eq_ofNat :
    s.qcount = BitVec.ofNat bitwidth (2 ^ 2 * s.count.toNat + phase (s.a, s.b)) := by
  apply BitVec.eq_of_getLsbD_eq
  intro k hk
  rw [BitVec.getLsbD_ofNat, Nat.testBit_two_pow_mul_add _ (phase_lt _)]
  rw [BitVec.getLsbD_eq_getElem hk, qcount, BitVec.getElem_ofFnLE]
  match k with
  | 0 => simpa [hk] using (phase_testBit_zero (s.a, s.b)).symm
  | 1 => simpa [hk] using (phase_testBit_one (s.a, s.b)).symm
  | k + 2 => simpa [hk] using (BitVec.testBit_toNat s.count).symm

theorem qcount_eq :
    s.qcount = BitVec.ofInt bitwidth (4 * s.count.toNat + phase (s.a, s.b)) := by
  rw [qcount_eq_ofNat, ← BitVec.ofInt_natCast]
  push_cast
  rfl

/-- The upper bits turn where the pair passes between 01 and 00. -/
theorem count_next (a0 b0 : Bool) :
    (s.next false a0 b0).count
      = s.count + BitVec.ofInt (bitwidth - 2) (carry (s.a, s.b) (a0, b0)) := by
  show (if s.a = false ∧ s.b = true ∧ a0 = false ∧ b0 = false then s.count + 1
    else if s.a = false ∧ s.b = false ∧ a0 = false ∧ b0 = true then s.count - 1
    else s.count) = _
  have hup : (s.a, s.b) = (false, true) ∧ (a0, b0) = (false, false) ↔
      s.a = false ∧ s.b = true ∧ a0 = false ∧ b0 = false := by
    simp [and_assoc]
  have hdown : (s.a, s.b) = (false, false) ∧ (a0, b0) = (false, true) ↔
      s.a = false ∧ s.b = false ∧ a0 = false ∧ b0 = true := by
    simp [and_assoc]
  simp only [carry, hup, hdown]
  split
  · rfl
  · split
    · rw [BitVec.sub_eq_add_neg, BitVec.ofInt_neg]
      rfl
    · simp

/-- Adding a step to the position adds it to the word. -/
theorem ofInt_four_mul_add (hbits : 2 ≤ bitwidth) (c : BitVec (bitwidth - 2)) (z r : Int) :
    BitVec.ofInt bitwidth (4 * (c + BitVec.ofInt (bitwidth - 2) z).toNat + r)
      = BitVec.ofInt bitwidth (4 * (c.toNat + z) + r) := by
  have hpow : (2 : Int) ^ bitwidth = 4 * 2 ^ (bitwidth - 2) := by
    rw [show (4 : Int) = 2 ^ 2 from rfl, ← pow_add, Nat.add_sub_cancel' hbits]
  have hturns : 4 * ((c.toNat + z : Int) % 2 ^ (bitwidth - 2)) + r
      = 4 * (c.toNat + z) + r + 2 ^ bitwidth * -((c.toNat + z) / 2 ^ (bitwidth - 2)) := by
    have hdiv := Int.emod_add_mul_ediv (c.toNat + z) (2 ^ (bitwidth - 2))
    rw [hpow]
    linarith only [hdiv]
  rw [toNat_add_ofInt, hturns]
  apply BitVec.eq_of_toNat_eq
  rw [BitVec.toNat_ofInt, BitVec.toNat_ofInt]
  push_cast
  rw [Int.add_mul_emod_self_left]

/-- A clock adds what the turns and the phase make. -/
theorem qcount_next_eq (hbits : 2 ≤ bitwidth) (a0 b0 : Bool) :
    (s.next false a0 b0).qcount = s.qcount + BitVec.ofInt bitwidth
      (4 * carry (s.a, s.b) (a0, b0) + phase (a0, b0) - phase (s.a, s.b)) := by
  rw [qcount_eq, qcount_eq, count_next, ← BitVec.ofInt_add, ofInt_four_mul_add hbits]
  congr 1
  show 4 * ((s.count.toNat : Int) + carry (s.a, s.b) (a0, b0)) + phase (a0, b0) = _
  omega

/-- As long as the pair moves by a step at a time, the count moves by it. -/
theorem qcount_next (hbits : 2 ≤ bitwidth) {a0 b0 : Bool}
    (hadj : Adjacent (s.a, s.b) (a0, b0)) :
    (s.next false a0 b0).qcount
      = s.qcount + BitVec.ofInt bitwidth (quarter (s.a, s.b) (a0, b0)) := by
  have hpos := phase_add_carry hadj
  rw [qcount_next_eq hbits]
  congr 2
  omega

/-- The pair the counter looks at. -/
def ab (s : Qcounter bitwidth) : Bool × Bool := (s.a, s.b)

/-- `ab_error` tells that the pair jumped. -/
theorem abError_next (reset a0 b0 : Bool) :
    (s.next reset a0 b0).abError = decide ((a0, b0) = turned (turned s.ab)) := by
  show ((a0 ^^ s.a) && (b0 ^^ s.b)) = decide ((a0, b0) = (!s.a, !s.b))
  cases a0 <;> cases b0 <;> cases s.a <;> cases s.b <;> rfl

/-- A clock moves the count with the position, up to a turn if `ab_error` is set. -/
theorem qcount_next_moves (hbits : 2 ≤ bitwidth) {a0 b0 : Bool} {d : Int}
    (hd : Moves s.ab (a0, b0) d) :
    ∃ k : Int, k.natAbs ≤ (s.next false a0 b0).abError.toNat ∧
      (s.next false a0 b0).qcount = s.qcount + BitVec.ofInt bitwidth (d + 4 * k) := by
  obtain ⟨k, hk, hsum⟩ := hd.phase_add_carry
  refine ⟨k, by rw [abError_next]; exact hk, ?_⟩
  rw [qcount_next_eq hbits]
  congr 2
  unfold ab at hsum
  omega

/-- The low bits of `qcount`, read as a number. -/
theorem qcount_mod_four (hbits : 2 ≤ bitwidth) : s.qcount.toNat % 4 = phase s.ab := by
  have hdvd : 4 ∣ 2 ^ bitwidth := pow_dvd_pow 2 hbits
  rw [qcount_eq_ofNat, BitVec.toNat_ofNat, Nat.mod_mod_of_dvd _ hdvd]
  exact (Nat.mul_add_mod _ _ _).trans (Nat.mod_eq_of_lt (phase_lt _))

end Qcounter

/-! ### Any number of clocks -/

variable {N : Nat}

/-- The counter in the clocks after a reset, offered a sequence of pairs. -/
def afterReset (s₀ : Qcounter N) (a0 b0 : Bool) (ins : Nat → Bool × Bool) : Nat → Qcounter N :=
  stateAt (fun s i => s.next false i.1 i.2) (s₀.next true a0 b0) ins

/-- How many of the first `t` clocks after a reset set `ab_error`. -/
def errors (x : Nat → Qcounter N) (t : Nat) : Nat := Nat.count (fun j => (x (j + 1)).abError) t

theorem errors_succ (x : Nat → Qcounter N) (t : Nat) :
    errors x (t + 1) = errors x t + (x (t + 1)).abError.toNat := by
  unfold errors
  rw [Nat.count_succ]
  cases (x (t + 1)).abError <;> rfl

/-- The clocks from `t₀` to `t`, one after another. -/
theorem qcount_moves (hbits : 2 ≤ N) {s₀ : Qcounter N} {a0 b0 : Bool} {ins : Nat → Bool × Bool}
    {P : Nat → Int} {t₀ t : Nat} (ht : t₀ ≤ t)
    (hP : ∀ j < t, Moves (afterReset s₀ a0 b0 ins j).ab (afterReset s₀ a0 b0 ins (j + 1)).ab
      (P (j + 1) - P j)) :
    ∃ k : Int, k.natAbs + errors (afterReset s₀ a0 b0 ins) t₀
        ≤ errors (afterReset s₀ a0 b0 ins) t ∧
      (afterReset s₀ a0 b0 ins t).qcount
        = (afterReset s₀ a0 b0 ins t₀).qcount + BitVec.ofInt N (P t - P t₀ + 4 * k) := by
  induction t, ht using Nat.le_induction with
  | base => exact ⟨0, by simp, by simp⟩
  | succ t ht ih =>
      obtain ⟨k, hk, hcount⟩ := ih fun j hj => hP j (Nat.lt_succ_of_lt hj)
      obtain ⟨k', hk', hnext⟩ := Qcounter.qcount_next_moves hbits (hP t (Nat.lt_succ_self t))
      refine ⟨k + k', ?_, ?_⟩
      · have herr : errors (afterReset s₀ a0 b0 ins) (t + 1)
            = errors (afterReset s₀ a0 b0 ins) t
              + (afterReset s₀ a0 b0 ins (t + 1)).abError.toNat := errors_succ _ t
        have hk'' : k'.natAbs ≤ (afterReset s₀ a0 b0 ins (t + 1)).abError.toNat := hk'
        have htri := Int.natAbs_add_le k k'
        omega
      · have hsum : P (t + 1) - P t₀ + 4 * (k + k')
            = P t - P t₀ + 4 * k + (P (t + 1) - P t + 4 * k') := by ring
        rw [hsum, BitVec.ofInt_add, ← BitVec.add_assoc, ← hcount]
        exact hnext

/--
**The counter follows the position.**  After a reset, with any pairs in any order: the change
of `qcount` is that of the position up to as many whole turns as there were clocks with
`ab_error`, and exactly that, across every wrap, if there was none.  The two low bits are the
phase of the pair whatever went before.
-/
theorem qcount_follows (hN : 3 ≤ N) (s₀ : Qcounter N) (a0 b0 : Bool) (ins : Nat → Bool × Bool)
    (P : Nat → Int) {t₀ t : Nat} (ht : t₀ ≤ t)
    (hP : ∀ j < t, Moves (afterReset s₀ a0 b0 ins j).ab (afterReset s₀ a0 b0 ins (j + 1)).ab
      (P (j + 1) - P j)) :
    (∃ k : Int, k.natAbs ≤ errors (afterReset s₀ a0 b0 ins) t ∧
      ((afterReset s₀ a0 b0 ins t).qcount.toNat : Int) - (afterReset s₀ a0 b0 ins t₀).qcount.toNat
        ≡ P t - P t₀ + 4 * k [ZMOD 2 ^ N]) ∧
    (errors (afterReset s₀ a0 b0 ins) t = 0 →
      ((afterReset s₀ a0 b0 ins t).qcount.toNat : Int) - (afterReset s₀ a0 b0 ins t₀).qcount.toNat
        ≡ P t - P t₀ [ZMOD 2 ^ N]) ∧
    (afterReset s₀ a0 b0 ins t).qcount.toNat % 4 = phase (afterReset s₀ a0 b0 ins t).ab := by
  have hbits : 2 ≤ N := Nat.le_of_succ_le hN
  obtain ⟨k, hk, hcount⟩ := qcount_moves hbits ht hP
  have hmod := toNat_sub_modEq hcount
  refine ⟨⟨k, Nat.le_of_add_right_le hk, hmod⟩, fun hnone => ?_, Qcounter.qcount_mod_four hbits⟩
  obtain rfl : k = 0 := by omega
  rw [mul_zero, add_zero] at hmod
  exact hmod

/-- A step back across the wrap, then a jump. -/
def jumped : Nat → Qcounter 3 :=
  afterReset ⟨false, false, false, false, 0⟩ false false
    fun j => [(false, true), (true, false)].getD j (true, false)

/-- The jump taken for two steps on. -/
def jumpedTo (t : Nat) : Int := [0, -1].getD t 1

theorem qcount_follows_jump :
    errors jumped 2 = 1 ∧ ∃ k : Int, k.natAbs ≤ errors jumped 2 ∧
      ((jumped 2).qcount.toNat : Int) - (jumped 0).qcount.toNat
        ≡ jumpedTo 2 - jumpedTo 0 + 4 * k [ZMOD 2 ^ 3] := by
  have hP : ∀ j < 2, Moves (jumped j).ab (jumped (j + 1)).ab (jumpedTo (j + 1) - jumpedTo j) := by
    unfold Moves
    decide
  exact ⟨by decide, (qcount_follows (Nat.le_refl 3) _ _ _ _ jumpedTo (Nat.zero_le 2) hP).1⟩

end CanBench.Encoder
