/-
The length of the pulse while period and duration are held.

At a trigger `cnt_div` reloads and `pulse_gen` loads the duration `d`.  The divider is back
at 1 after `P - 1` more enabled clocks, so triggers are `P` apart.  The pulse is high in
the trigger clock already, and again in every clock that finds the counter above 0, which
are `d` more: `d + 1` in all, unless `d` is 0 or the next trigger comes first.
-/
import CanBench.Lib.Waveform
import CanBench.Pwm.Impl

namespace CanBench.Pwm

open Lib

variable {w v : Nat}

/-- Out of reset, with this period and duration; enabled or not. -/
def PwmIn.Held (P : BitVec w) (d : BitVec v) (i : PwmIn w v) : Prop :=
  i.reset = false ∧ i.ratio = P ∧ i.duration = d

/-- What the enabled clocks show. -/
def PwmPair.trace (s : PwmPair w v) (l : List (PwmIn w v)) : List (Bool × Bool) :=
  Lib.trace PwmPair.next PwmPair.observe s l

namespace PwmPair

variable {s : PwmPair w v} {i : PwmIn w v} {P : BitVec w} {d : BitVec v}

theorem observe_eq_none (h : s.observe i = none) : i.en = false := by
  unfold observe at h
  split at h
  · simp at h
  · simpa using ‹¬ i.en = true›

theorem observe_eq_some {t q : Bool} (h : s.observe i = some (t, q)) :
    i.en = true ∧ s.trigger i = t ∧ s.qOut i = q := by
  unfold observe at h
  split at h
  · obtain ⟨ht, hq⟩ : s.trigger i = t ∧ s.qOut i = q := by simpa using h
    exact ⟨‹i.en = true›, ht, hq⟩
  · simp at h

/-! ### The shape of a period -/

/-- The first `n` clocks of a period. -/
def shape (n d : Nat) : List Bool := (List.range n).map fun k => decide (0 < d ∧ k ≤ d)

theorem shape_succ (n d : Nat) : shape (n + 1) d = shape n d ++ [decide (0 < d ∧ n ≤ d)] := by
  simp [shape, List.range_succ]

@[simp] theorem length_shape (n d : Nat) : (shape n d).length = n := by simp [shape]

theorem count_shape (n d : Nat) :
    (shape n d).count true = if d = 0 then 0 else min (d + 1) n := by
  induction n with
  | zero => simp [shape]
  | succ n ih =>
      rw [shape_succ, List.count_append, ih]
      by_cases hd : d = 0
      · simp [hd]
      · by_cases hn : n ≤ d
        · have hhigh : decide (0 < d ∧ n ≤ d) = true := decide_eq_true (by omega)
          rw [hhigh, if_neg hd, if_neg hd, List.count_singleton_self]
          omega
        · have hlow : decide (0 < d ∧ n ≤ d) = false := decide_eq_false (by omega)
          rw [hlow, if_neg hd, if_neg hd]
          simp only [List.count_singleton, Bool.false_beq]
          simp
          omega

/-- Where the two counters are when `p` has been seen of the period. -/
structure Within (P d : Nat) (s : PwmPair w v) (p : List Bool) : Prop where
  seen : p = shape p.length d
  begun : 0 < p.length
  upTo : p.length ≤ P
  cntDiv : s.cntDiv.val = P - (p.length - 1)
  pulseGen : s.pulseGen.val = d - (p.length - 1)

theorem within_trigger (hP : 1 ≤ P.toNat) (hi : i.Held P d) (ht : s.trigger i = true) :
    Within P.toNat d.toNat (s.next i) [s.qOut i] := by
  obtain ⟨-, hratio, hduration⟩ := hi
  rw [next_trigger ht, qOut_trigger ht, hratio, hduration]
  refine ⟨?_, Nat.one_pos, hP, rfl, rfl⟩
  simp [shape]

theorem Within.count {p : List Bool} (h : Within P.toNat d.toNat s p) (hi : i.Held P d)
    (he : i.en = true) (ht : s.trigger i = false) :
    Within P.toNat d.toNat (s.next i) (p ++ [s.qOut i]) := by
  have hlt := not_le_of_not_trigger hi.1 he ht
  have hbegun := h.begun
  have hcnt := h.cntDiv
  have hpulse := h.pulseGen
  have hlen : (p ++ [s.qOut i]).length = p.length + 1 := by simp
  have hq : s.qOut i = decide (0 < d.toNat ∧ p.length ≤ d.toNat) := by
    rw [qOut_count hi.1 he ht, hpulse, decide_eq_decide]
    omega
  refine ⟨?_, by omega, by omega, ?_, ?_⟩
  · rw [hlen, shape_succ, ← h.seen, hq]
  · rw [next_count_cntDiv hi.1 he ht, hlen]
    omega
  · rw [next_count_pulseGen hi.1 he ht, hlen]
    omega

/-- Every period has `P` clocks, and the pulse that the counter makes of `d`. -/
theorem period_shape (hP : 1 ≤ P.toNat) (s : PwmPair w v) {l : List (PwmIn w v)}
    (hl : ∀ i ∈ l, i.Held P d) : ∀ p ∈ periods (s.trace l), p = shape P.toNat d.toNat := by
  refine periods_of_invariant (I := Within P.toNat d.toNat) ?_ ?_ ?_ ?_ l s none hl (by simp)
  · intro s i p hi h hobs
    rw [next_disabled hi.1 (observe_eq_none hobs)]
    exact h
  · intro s i q hi hobs
    obtain ⟨-, ht, rfl⟩ := observe_eq_some hobs
    exact within_trigger hP hi ht
  · intro s i q p hi h hobs
    obtain ⟨he, ht, rfl⟩ := observe_eq_some hobs
    exact h.count hi he ht
  · intro s i q p hi h hobs
    obtain ⟨-, ht, -⟩ := observe_eq_some hobs
    have hle := (en_of_trigger ht).2.2
    have hcnt := h.cntDiv
    have hbegun := h.begun
    have hlen : p.length = P.toNat := by have := h.upTo; omega
    rw [← hlen]
    exact h.seen

/-! ### There are periods -/

/-- A clock with both enabled. -/
def tick (P : BitVec w) (d : BitVec v) : PwmIn w v :=
  { reset := false, en := true, ratio := P, duration := d }

theorem trace_tick (s : PwmPair w v) (l : List (PwmIn w v)) :
    s.trace (tick P d :: l)
      = (s.trigger (tick P d), s.qOut (tick P d)) :: (s.next (tick P d)).trace l := rfl

theorem trigger_tick : s.trigger (tick P d) = decide (s.cntDiv.val ≤ 1) := trigger_eq

theorem cntDiv_next_tick {n : Nat} (hn : s.cntDiv.val ≤ n + 2)
    (ht : s.trigger (tick P d) = false) : (s.next (tick P d)).cntDiv.val ≤ n + 1 := by
  rw [next_count_cntDiv rfl rfl ht]
  omega

/-- A period under way ends. -/
theorem period_ends (n : Nat) : ∀ (s : PwmPair w v) (c : List Bool), s.cntDiv.val ≤ n + 1 →
    ∃ l, (∀ i ∈ l, i = tick P d) ∧ periodsFrom (some c) (s.trace l) ≠ [] := by
  induction n with
  | zero =>
      intro s c hn
      have ht : s.trigger (tick P d) = true := by rw [trigger_tick]; exact decide_eq_true hn
      refine ⟨[tick P d], by simp, ?_⟩
      rw [trace_tick, ht]
      simp [periodsFrom]
  | succ n ih =>
      intro s c hn
      cases ht : s.trigger (tick P d) with
      | true =>
          refine ⟨[tick P d], by simp, ?_⟩
          rw [trace_tick, ht]
          simp [periodsFrom]
      | false =>
          obtain ⟨l, hl, hne⟩ := ih (s.next (tick P d)) (c ++ [s.qOut (tick P d)])
            (cntDiv_next_tick hn ht)
          refine ⟨tick P d :: l, by simpa using hl, ?_⟩
          rw [trace_tick, ht]
          exact hne

/-- From anywhere a first period begins, and ends. -/
theorem exists_period (n : Nat) : ∀ (s : PwmPair w v), s.cntDiv.val ≤ n + 1 →
    ∃ l, (∀ i ∈ l, i = tick P d) ∧ periods (s.trace l) ≠ [] := by
  have hbegin : ∀ s : PwmPair w v, s.trigger (tick P d) = true →
      ∃ l, (∀ i ∈ l, i = tick P d) ∧ periods (s.trace l) ≠ [] := by
    intro s ht
    obtain ⟨l, hl, hne⟩ := period_ends (P := P) (d := d) _ (s.next (tick P d))
      [s.qOut (tick P d)] (Nat.le_succ _)
    refine ⟨tick P d :: l, by simpa using hl, ?_⟩
    rw [trace_tick, ht]
    exact hne
  induction n with
  | zero =>
      intro s hn
      exact hbegin s (by rw [trigger_tick]; exact decide_eq_true hn)
  | succ n ih =>
      intro s hn
      cases ht : s.trigger (tick P d) with
      | true => exact hbegin s ht
      | false =>
          obtain ⟨l, hl, hne⟩ := ih (s.next (tick P d)) (cntDiv_next_tick hn ht)
          refine ⟨tick P d :: l, by simpa using hl, ?_⟩
          rw [trace_tick, ht]
          exact hne

end PwmPair

/-! ### When the duty is exact -/

/--
**The duty is one clock too long.**  With the period and the duration held, from any
counts and with any pattern of the enable, every period has `P` enabled clocks; the output
is high for `min d P` of them exactly when `d` is 0 or fills the period.
-/
theorem pwm_duty_iff (P : BitVec w) (d : BitVec v) (hP : 1 ≤ P.toNat) (s : PwmPair w v) :
    (∀ l : List (PwmIn w v), (∀ i ∈ l, i.Held P d) → ∀ p ∈ periods (s.trace l),
      p.length = P.toNat ∧ p.count true = min d.toNat P.toNat) ↔
    d.toNat = 0 ∨ P.toNat ≤ d.toNat := by
  have hcount : ∀ p, p = PwmPair.shape P.toNat d.toNat →
      p.length = P.toNat ∧ p.count true = if d.toNat = 0 then 0 else min (d.toNat + 1) P.toNat := by
    intro p hp
    rw [hp, PwmPair.count_shape]
    exact ⟨PwmPair.length_shape _ _, rfl⟩
  constructor
  · intro hexact
    obtain ⟨l, hl, hne⟩ := PwmPair.exists_period (P := P) (d := d) _ s (Nat.le_succ _)
    have hheld : ∀ i ∈ l, i.Held P d := by
      intro i hi
      rw [hl i hi]
      exact ⟨rfl, rfl, rfl⟩
    obtain ⟨p, hp⟩ := List.exists_mem_of_ne_nil _ hne
    have h1 := (hexact l hheld p hp).2
    have h2 := (hcount p (PwmPair.period_shape hP s hheld p hp)).2
    rw [h1] at h2
    split at h2
    · exact Or.inl ‹_›
    · right; omega
  · intro hd l hl p hp
    obtain ⟨hlen, htrue⟩ := hcount p (PwmPair.period_shape hP s hl p hp)
    refine ⟨hlen, ?_⟩
    rw [htrue]
    split
    · omega
    · omega

/-- The pair after a reset. -/
def afterReset (P : BitVec w) : PwmPair w v :=
  { cntDiv := toInteger P, pulseGen := zero, held := false }

theorem pwm_duty_full :
    2 ≤ 7 ∧ ∀ l : List (PwmIn 3 3), (∀ i ∈ l, i.Held 2#3 7#3) →
      ∀ p ∈ periods ((afterReset 2#3 : PwmPair 3 3).trace l), p.length = 2 ∧ p.count true = 2 :=
  ⟨by decide, (pwm_duty_iff 2#3 7#3 (by decide) (afterReset 2#3)).mpr (Or.inr (by decide))⟩

/-- A duration of 1 in a period of 4 is high for two clocks, and 3 is always high, as 4
is. -/
theorem pwm_duty_one :
    periods ((afterReset 4#3 : PwmPair 3 3).trace (List.replicate 9 (PwmPair.tick 4#3 1#3)))
      = [[true, true, false, false]] ∧
    ¬ [true, true, false, false].count true = min 1 4 ∧
    periods ((afterReset 4#3 : PwmPair 3 3).trace (List.replicate 9 (PwmPair.tick 4#3 3#3)))
      = [[true, true, true, true]] := by
  decide

end CanBench.Pwm
