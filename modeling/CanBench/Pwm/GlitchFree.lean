/-
Writing period and duration in mid-period.

`cnt_div` reads its ratio and `pulse_gen` its duration at a trigger, and the divider its
ratio in reset as well; the values in all other clocks are not looked at.  So two runs
that differ in nothing else are the same run: `Twin` is the pair of them, and the two are
in equal states from the last clock of a reset on.

The shape of a period needs no such care.  Whatever is written, the counter of the pulse
goes down to 0 and stays there until the next trigger.
-/
import CanBench.Lib.Runs
import CanBench.Lib.Waveform
import CanBench.Pwm.Duty

namespace CanBench.Pwm

open Lib

variable {w v : Nat}

/-! ### Two runs with the same reset and enable -/

/-- Two pairs side by side. -/
def twins (w v : Nat) : System (PwmPair w v × PwmPair w v) (PwmIn w v × PwmIn w v) where
  init := fun _ => True
  allowed := fun _ i => i.1.reset = i.2.reset ∧ i.1.en = i.2.en
  next := fun s i => (s.1.next i.1, s.2.next i.2)

namespace PwmPair

variable {s : PwmPair w v} {i j : PwmIn w v}

/-- A clock that is not in reset looks at ratio and duration only if it is a trigger. -/
theorem clock_congr (hr : i.reset = false) (hr' : j.reset = false) (he : i.en = j.en)
    (hread : s.trigger i = true → i.ratio = j.ratio ∧ i.duration = j.duration) :
    s.trigger i = s.trigger j ∧ s.qOut i = s.qOut j ∧ s.next i = s.next j := by
  have htrig : s.trigger i = s.trigger j := by rw [trigger_eq, trigger_eq, hr, hr', he]
  refine ⟨htrig, ?_⟩
  cases ht : s.trigger i with
  | true =>
      obtain ⟨hratio, hduration⟩ := hread ht
      have ht' : s.trigger j = true := by rw [← htrig, ht]
      rw [qOut_trigger ht, qOut_trigger ht', next_trigger ht, next_trigger ht', hratio, hduration]
      exact ⟨rfl, rfl⟩
  | false =>
      have ht' : s.trigger j = false := by rw [← htrig, ht]
      cases hen : i.en with
      | false =>
          have hen' : j.en = false := by rw [← he, hen]
          rw [qOut_disabled hr hen, qOut_disabled hr' hen', next_disabled hr hen,
            next_disabled hr' hen']
          exact ⟨rfl, rfl⟩
      | true =>
          have hen' : j.en = true := by rw [← he, hen]
          have hq : s.qOut i = s.qOut j := by
            rw [qOut_count hr hen ht, qOut_count hr' hen' ht']
          have hdiv : (s.next i).cntDiv = (s.next j).cntDiv := by
            apply Fin.ext
            rw [next_count_cntDiv hr hen ht, next_count_cntDiv hr' hen' ht']
          have hpulse : (s.next i).pulseGen = (s.next j).pulseGen := by
            apply Fin.ext
            rw [next_count_pulseGen hr hen ht, next_count_pulseGen hr' hen' ht']
          refine ⟨hq, ?_⟩
          show PwmPair.mk (s.next i).cntDiv (s.next i).pulseGen (s.qOut i) = _
          rw [hdiv, hpulse, hq]
          rfl

end PwmPair

/-- After a clock of reset with whatever ratios, or in equal states. -/
def Abreast (s : PwmPair w v × PwmPair w v) (i : PwmIn w v × PwmIn w v) : Prop :=
  (i.1.reset = true ∧ s = (afterReset i.1.ratio, afterReset i.2.ratio)) ∨ s.1 = s.2

/-- The ratios agree in the last clock of a reset. -/
def AgreeOnRelease (e e' : (PwmPair w v × PwmPair w v) × (PwmIn w v × PwmIn w v)) : Prop :=
  e.2.1.reset = true → e'.2.1.reset = false → e.2.1.ratio = e.2.2.ratio

/-- Ratios and durations agree where the first run triggers. -/
def AgreeOnTrigger (e : (PwmPair w v × PwmPair w v) × (PwmIn w v × PwmIn w v)) : Prop :=
  e.1.1.trigger e.2.1 = true → e.2.1.ratio = e.2.2.ratio ∧ e.2.1.duration = e.2.2.duration

/-- Both runs show the same. -/
def SameOutputs (e : (PwmPair w v × PwmPair w v) × (PwmIn w v × PwmIn w v)) : Prop :=
  e.1.1.trigger e.2.1 = e.1.2.trigger e.2.2 ∧ e.1.1.qOut e.2.1 = e.1.2.qOut e.2.2

section Step

variable {s : PwmPair w v × PwmPair w v} {i : PwmIn w v × PwmIn w v}

theorem abreast_reset (hr : i.1.reset = true) (hr' : i.2.reset = true) :
    SameOutputs (s, i) ∧ Abreast ((twins w v).next s i) i := by
  refine ⟨⟨?_, ?_⟩, Or.inl ⟨hr, ?_⟩⟩
  · show s.1.trigger i.1 = s.2.trigger i.2
    rw [PwmPair.trigger_eq, PwmPair.trigger_eq, hr, hr']
    rfl
  · show s.1.qOut i.1 = s.2.qOut i.2
    rw [PwmPair.qOut_reset hr, PwmPair.qOut_reset hr']
  · show (s.1.next i.1, s.2.next i.2) = _
    rw [PwmPair.next_reset hr, PwmPair.next_reset hr']
    rfl

theorem abreast_next (heq : s.1 = s.2) (hr : i.1.reset = false) (hr' : i.2.reset = false)
    (he : i.1.en = i.2.en) (hread : AgreeOnTrigger (s, i)) :
    SameOutputs (s, i) ∧ Abreast ((twins w v).next s i) i := by
  obtain ⟨htrig, hq, hnext⟩ := PwmPair.clock_congr hr hr' he hread
  refine ⟨⟨?_, ?_⟩, Or.inr ?_⟩
  · show s.1.trigger i.1 = s.2.trigger i.2
    rw [htrig, heq]
  · show s.1.qOut i.1 = s.2.qOut i.2
    rw [hq, heq]
  · show s.1.next i.1 = s.2.next i.2
    rw [hnext, heq]

end Step

/-- The runs stay abreast. -/
theorem twins_abreast {h : List ((PwmPair w v × PwmPair w v) × (PwmIn w v × PwmIn w v))}
    {s : PwmPair w v × PwmPair w v} (r : Run (twins w v) h s)
    (hstart : ∀ e ∈ h.head?, e.2.1.reset = true) (hrelease : h.IsChain AgreeOnRelease)
    (htrigger : ∀ e ∈ h, AgreeOnTrigger e) :
    (∀ e ∈ h, SameOutputs e) ∧ ∀ e ∈ h.getLast?, Abreast s e.2 := by
  induction r with
  | start _ => simp
  | @step h s i r ok ih =>
      obtain ⟨hreset, hen⟩ := ok
      rw [List.isChain_append] at hrelease
      have hprev := ih
        (fun e he => hstart e (by rw [List.head?_append]; simp [Option.mem_def.mp he]))
        hrelease.1 (fun e he => htrigger e (List.mem_append.mpr (Or.inl he)))
      have hnow : SameOutputs (s, i) ∧ Abreast ((twins w v).next s i) i := by
        cases hr : i.1.reset with
        | true => exact abreast_reset hr (by rw [← hreset, hr])
        | false =>
            -- out of reset, so there is a clock before, and the states are equal
            have heq : s.1 = s.2 := by
              cases hlast : h.getLast? with
              | none =>
                  rw [List.getLast?_eq_none_iff] at hlast
                  have hfirst := hstart (s, i) (by simp [hlast])
                  rw [hr] at hfirst
                  exact absurd hfirst (by simp)
              | some e =>
                  rcases hprev.2 e hlast with ⟨her, hs⟩ | hs
                  · have hratio := hrelease.2.2 e hlast (s, i) (by simp) her hr
                    rw [hs, hratio]
                  · exact hs
            exact abreast_next heq hr (by rw [← hreset, hr]) hen (htrigger (s, i) (by simp))
      refine ⟨fun e he => ?_, fun e he => ?_⟩
      · rcases List.mem_append.mp he with hold | hnew
        · exact hprev.1 e hold
        · obtain rfl : e = (s, i) := by simpa using hnew
          exact hnow.1
      · obtain rfl : (s, i) = e := by simpa using he
        exact hnow.2

/-! ### The shape of any period -/

/-- High first, then low, with nothing left of the pulse once it is low. -/
def Falling (s : PwmPair w v) (p : List Bool) : Prop :=
  ∃ a b, p = List.replicate a true ++ List.replicate b false ∧ (b ≠ 0 → s.pulseGen.val = 0)

theorem Falling.low {s : PwmPair w v} {p : List Bool} (h : Falling s p)
    (s' : PwmPair w v) (hpulse : s'.pulseGen.val = 0) : Falling s' (p ++ [false]) := by
  obtain ⟨a, b, hp, -⟩ := h
  refine ⟨a, b + 1, ?_, fun _ => hpulse⟩
  rw [hp, List.append_assoc, ← List.replicate_succ']

theorem falling_trigger {s : PwmPair w v} {i : PwmIn w v} (ht : s.trigger i = true) :
    Falling (s.next i) [s.qOut i] := by
  rw [PwmPair.next_trigger ht, PwmPair.qOut_trigger ht]
  by_cases hd : 0 < i.duration.toNat
  · exact ⟨1, 0, by simp [hd], fun h => absurd rfl h⟩
  · refine ⟨0, 1, by simp [hd], fun _ => ?_⟩
    show i.duration.toNat = 0
    omega

theorem Falling.count {s : PwmPair w v} {i : PwmIn w v} {p : List Bool} (h : Falling s p)
    (he : i.en = true) (ht : s.trigger i = false) : Falling (s.next i) (p ++ [s.qOut i]) := by
  cases hr : i.reset with
  | true =>
      rw [PwmPair.qOut_reset hr]
      exact h.low _ (by rw [PwmPair.next_reset hr]; rfl)
  | false =>
      have hpulse := PwmPair.next_count_pulseGen hr he ht
      rw [PwmPair.qOut_count hr he ht]
      by_cases hzero : s.pulseGen.val = 0
      · simp only [hzero, Nat.lt_irrefl, decide_false]
        exact h.low _ (by omega)
      · obtain ⟨a, b, hp, hb⟩ := h
        have hb0 : b = 0 := by
          by_contra hne
          exact hzero (hb hne)
        refine ⟨a + 1, 0, ?_, fun h => absurd rfl h⟩
        rw [hp, hb0, decide_eq_true (Nat.pos_of_ne_zero hzero)]
        simp [List.replicate_succ']

theorem Falling.disabled {s : PwmPair w v} {i : PwmIn w v} {p : List Bool} (h : Falling s p)
    (he : i.en = false) : Falling (s.next i) p := by
  cases hr : i.reset with
  | true =>
      obtain ⟨a, b, hp, -⟩ := h
      exact ⟨a, b, hp, fun _ => by rw [PwmPair.next_reset hr]; rfl⟩
  | false => rw [PwmPair.next_disabled hr he]; exact h

theorem falling_period (s : PwmPair w v) (l : List (PwmIn w v)) :
    ∀ p ∈ periods (s.trace l), ∃ a b, p = List.replicate a true ++ List.replicate b false := by
  refine periods_of_invariant (A := fun _ => True) (I := Falling) ?_ ?_ ?_ ?_ l s none
    (by simp) (by simp)
  · intro s i p _ h hobs
    exact h.disabled (PwmPair.observe_eq_none hobs)
  · intro s i q _ hobs
    obtain ⟨-, ht, rfl⟩ := PwmPair.observe_eq_some hobs
    exact falling_trigger ht
  · intro s i q p _ h hobs
    obtain ⟨he, ht, rfl⟩ := PwmPair.observe_eq_some hobs
    exact h.count he ht
  · intro s i q p _ h _
    obtain ⟨a, b, hp, -⟩ := h
    exact ⟨a, b, hp⟩

/-- Enabled, with the given ratio and duration. -/
def on (ratio duration : Nat) : PwmIn 3 3 :=
  PwmPair.tick (BitVec.ofNat 3 ratio) (BitVec.ofNat 3 duration)

/-- A reset and a period of 4; the second run writes other values where no trigger is, and
in reset before its last clock. -/
def midPeriodWrite : List (PwmIn 3 3 × PwmIn 3 3) :=
  [({ on 4 2 with reset := true }, { on 1 7 with reset := true }),
   ({ on 4 2 with reset := true }, { on 4 2 with reset := true }),
   (on 4 2, on 2 2), (on 4 2, on 7 0), (on 4 2, on 1 1), (on 4 2, on 4 2),
   (on 4 2, on 1 0), (on 4 2, { on 4 2 with duration := 0 })]

def bothAtZero : PwmPair 3 3 × PwmPair 3 3 := (afterReset 0#3, afterReset 5#3)

instance (e : (PwmPair w v × PwmPair w v) × (PwmIn w v × PwmIn w v)) :
    Decidable (AgreeOnTrigger e) := inferInstanceAs (Decidable (_ → _))

instance : DecidableRel (AgreeOnRelease (w := w) (v := v)) :=
  fun _ _ => inferInstanceAs (Decidable (_ → _ → _))

instance (s : PwmPair w v × PwmPair w v) (i : PwmIn w v × PwmIn w v) :
    Decidable ((twins w v).allowed s i) := inferInstanceAs (Decidable (_ ∧ _))

end CanBench.Pwm
