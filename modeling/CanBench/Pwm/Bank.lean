/-
Several pulse generators on one divider.

The cores that use the pair differ in how many `pulse_gen`s one `cnt_div` triggers: one for
the speaker, four for the servos, six for the two RGB LEDs.  Each channel is a `PwmPair`.

A period and a duration count from the trigger that loads them.  `Latched` says what the
enabled clocks since that trigger show, with nothing assumed of what the ports carry in
the meantime: `latched_run` is the statement for any machine that has such a bank in it.
-/
import CanBench.Lib.Runs
import CanBench.Pwm.Duty

namespace CanBench.Pwm

open Lib

/-! ### The bank -/

structure PwmBank (n w v : Nat) where
  cntDiv : Count w
  pulseGen : Fin n → Count v
  held : Fin n → Bool

structure PwmBankIn (n w v : Nat) where
  reset : Bool
  en : Bool
  ratio : BitVec w
  duration : Fin n → BitVec v

variable {n w v : Nat}

def PwmBankIn.channel (i : PwmBankIn n w v) (k : Fin n) : PwmIn w v where
  reset := i.reset
  en := i.en
  ratio := i.ratio
  duration := i.duration k

namespace PwmBank

/-- `pwm_cycle_start`. -/
def trigger (s : PwmBank n w v) (i : PwmBankIn n w v) : Bool :=
  (cntDivComb i.reset i.en i.ratio s.cntDiv).2

/-- `q_out_o` of the `k`-th `pulse_gen`. -/
def qOut (s : PwmBank n w v) (i : PwmBankIn n w v) (k : Fin n) : Bool :=
  (pulseGenComb i.reset i.en (s.trigger i) (i.duration k) (s.pulseGen k) (s.held k)).2

def next (s : PwmBank n w v) (i : PwmBankIn n w v) : PwmBank n w v where
  cntDiv := (cntDivComb i.reset i.en i.ratio s.cntDiv).1
  pulseGen := fun k =>
    (pulseGenComb i.reset i.en (s.trigger i) (i.duration k) (s.pulseGen k) (s.held k)).1
  held := s.qOut i

def channel (s : PwmBank n w v) (k : Fin n) : PwmPair w v where
  cntDiv := s.cntDiv
  pulseGen := s.pulseGen k
  held := s.held k

variable (s : PwmBank n w v) (i : PwmBankIn n w v) (k : Fin n)

theorem channel_next : (s.next i).channel k = (s.channel k).next (i.channel k) := rfl

theorem channel_trigger : (s.channel k).trigger (i.channel k) = s.trigger i := rfl

theorem channel_qOut : (s.channel k).qOut (i.channel k) = s.qOut i k := rfl

end PwmBank

/-! ### What one trigger settles -/

/-- `t` are the enabled clocks since a trigger that loaded `P` and `d`.  The next trigger is
`P` of them later, one if `P` is 0, and the output up to it is the pulse of `d`. -/
structure Latched (P d : Nat) (s : PwmPair w v) (t : List (Bool × Bool)) : Prop where
  begun : 0 < t.length
  counts : t.length ≤ max 1 P →
    s.cntDiv.val = P - (t.length - 1) ∧ s.pulseGen.val = d - (t.length - 1)
  shown : ∀ j e, t[j]? = some e → j ≤ max 1 P →
    e.1 = decide (j = 0 ∨ j = max 1 P) ∧ (j < max 1 P → e.2 = decide (0 < d ∧ j ≤ d))
  /-- A disabled clock repeats the output of the last enabled one. -/
  held : ∀ e ∈ t.getLast?, s.held = e.2

namespace Latched

variable {P d : Nat} {s : PwmPair w v} {i : PwmIn w v} {t : List (Bool × Bool)}

theorem of_trigger (ht : s.trigger i = true) :
    Latched i.ratio.toNat i.duration.toNat (s.next i) [(s.trigger i, s.qOut i)] := by
  refine ⟨Nat.one_pos, ?_, ?_, ?_⟩
  · intro _
    rw [PwmPair.next_trigger ht]
    exact ⟨rfl, rfl⟩
  · intro j e he hj
    have hj0 : j = 0 := by
      by_contra hne
      rw [List.getElem?_eq_none (by simp; omega)] at he
      exact absurd he (by simp)
    subst hj0
    obtain rfl : (s.trigger i, s.qOut i) = e := by simpa using he
    refine ⟨?_, ?_⟩
    · simp [ht]
    · intro _
      simp [PwmPair.qOut_trigger ht]
  · intro e he
    obtain rfl : (s.trigger i, s.qOut i) = e := by simpa using he
    rfl

/-- A clock more, at the end of what has been seen. -/
theorem shown_concat (h : Latched P d s t) {x : Bool × Bool}
    (hx : t.length ≤ max 1 P → x.1 = decide (t.length = max 1 P) ∧
      (t.length < max 1 P → x.2 = decide (0 < d ∧ t.length ≤ d))) :
    ∀ j e, (t ++ [x])[j]? = some e → j ≤ max 1 P →
      e.1 = decide (j = 0 ∨ j = max 1 P) ∧ (j < max 1 P → e.2 = decide (0 < d ∧ j ≤ d)) := by
  intro j e he hj
  rcases Nat.lt_trichotomy j t.length with hlt | heq | hgt
  · rw [List.getElem?_append_left hlt] at he
    exact h.shown j e he hj
  · rw [List.getElem?_append_right (by omega), heq, Nat.sub_self] at he
    obtain rfl : x = e := by simpa using he
    have hbegun := h.begun
    obtain ⟨htrig, hq⟩ := hx (by omega)
    refine ⟨?_, ?_⟩
    · rw [htrig, heq, decide_eq_decide]
      omega
    · intro hlt
      rw [heq]
      exact hq (by omega)
  · rw [List.getElem?_eq_none (by simp; omega)] at he
    exact absurd he (by simp)

theorem step (h : Latched P d s t) (hr : i.reset = false) (he : i.en = true) :
    Latched P d (s.next i) (t ++ [(s.trigger i, s.qOut i)]) := by
  have hbegun := h.begun
  have hlen : (t ++ [(s.trigger i, s.qOut i)]).length = t.length + 1 := by simp
  -- the divider is down to 1 exactly where the period ends
  have htrig : t.length ≤ max 1 P → s.trigger i = decide (t.length = max 1 P) := by
    intro hle
    have hcnt := (h.counts hle).1
    rw [PwmPair.trigger_eq, hr, he, hcnt, Bool.not_false, Bool.true_and, Bool.true_and,
      decide_eq_decide]
    omega
  have hlow : t.length < max 1 P → s.trigger i = false := by
    intro hlt
    rw [htrig (by omega)]
    exact decide_eq_false (by omega)
  refine ⟨by omega, ?_, h.shown_concat ?_, ?_⟩
  · intro hle
    rw [hlen] at hle
    obtain ⟨hcnt, hpulse⟩ := h.counts (by omega)
    have ht := hlow (by omega)
    rw [hlen, PwmPair.next_count_cntDiv hr he ht, PwmPair.next_count_pulseGen hr he ht]
    omega
  · intro hle
    refine ⟨htrig hle, ?_⟩
    intro hlt
    show s.qOut i = _
    rw [PwmPair.qOut_count hr he (hlow hlt), (h.counts hle).2, decide_eq_decide]
    omega
  · intro e he'
    obtain rfl : (s.trigger i, s.qOut i) = e := by simpa using he'
    rfl

theorem disabled (h : Latched P d s t) (hr : i.reset = false) (he : i.en = false) :
    Latched P d (s.next i) t := by
  rw [PwmPair.next_disabled hr he]
  exact h

end Latched

/-! ### In a machine -/

section Machine

universe u x

variable {σ : Type u} {ι : Type x} {M : System σ ι} (bank : σ → PwmBank n w v)
  (port : σ → ι → PwmBankIn n w v)

/-- What the enabled clocks of a history show of channel `k`. -/
def observed (k : Fin n) (h : List (σ × ι)) : List (Bool × Bool) :=
  h.filterMap fun e => ((bank e.1).channel k).observe ((port e.1 e.2).channel k)

theorem observed_concat (k : Fin n) (h : List (σ × ι)) (e : σ × ι) :
    observed bank port k (h ++ [e]) = observed bank port k h
      ++ (((bank e.1).channel k).observe ((port e.1 e.2).channel k)).toList := by
  unfold observed
  rw [List.filterMap_append]
  rcases hobs : ((bank e.1).channel k).observe ((port e.1 e.2).channel k) with _ | x <;> simp [hobs]

/--
**A period is settled by its first clock.**  In any machine that clocks the bank, after a
trigger and as long as there is no reset: what ratio and duration carried in the trigger
clock decides where the next trigger is and the output of every enabled clock before it.
-/
theorem latched_run (hbank : ∀ s i, bank (M.next s i) = (bank s).next (port s i)) {s₀ : σ}
    {i₀ : ι} (ht : (bank s₀).trigger (port s₀ i₀) = true) (k : Fin n) (l : List (σ × ι)) :
    ∀ {s : σ}, Run (M.startedIn s₀) ((s₀, i₀) :: l) s →
      (∀ e ∈ (s₀, i₀) :: l, (port e.1 e.2).reset = false) →
      Latched (port s₀ i₀).ratio.toNat ((port s₀ i₀).duration k).toNat ((bank s).channel k)
        (observed bank port k ((s₀, i₀) :: l)) := by
  induction l using List.reverseRecOn with
  | nil =>
      intro s r _
      obtain ⟨-, -, hs⟩ := Run.of_concat (h := []) r
      have hs' : (bank s).channel k
          = ((bank s₀).channel k).next ((port s₀ i₀).channel k) := by
        rw [hs]
        show (bank (M.next s₀ i₀)).channel k = _
        rw [hbank]
        rfl
      have hen : ((port s₀ i₀).channel k).en = true :=
        (PwmPair.en_of_trigger (s := (bank s₀).channel k) (i := (port s₀ i₀).channel k) ht).2.1
      have hobs : observed bank port k [(s₀, i₀)]
          = [(((bank s₀).channel k).trigger ((port s₀ i₀).channel k),
              ((bank s₀).channel k).qOut ((port s₀ i₀).channel k))] := by
        simp [observed, PwmPair.observe, hen]
      rw [hs', hobs]
      exact Latched.of_trigger (s := (bank s₀).channel k) (i := (port s₀ i₀).channel k) ht
  | append_singleton l e ih =>
      intro s r hreset
      rw [← List.cons_append] at r hreset ⊢
      obtain ⟨r', -, hs⟩ := r.of_concat
      have hprev := ih r' (fun e' he' => hreset e' (List.mem_append.mpr (Or.inl he')))
      have hr : ((port e.1 e.2).channel k).reset = false :=
        hreset e (List.mem_append.mpr (Or.inr (by simp)))
      have hs' : (bank s).channel k
          = ((bank e.1).channel k).next ((port e.1 e.2).channel k) := by
        rw [hs]
        show (bank (M.next e.1 e.2)).channel k = _
        rw [hbank]
        rfl
      rw [hs', observed_concat]
      rcases Bool.eq_false_or_eq_true ((port e.1 e.2).channel k).en with hen | hen
      · rw [PwmPair.observe, if_pos hen]
        exact hprev.step hr hen
      · rw [PwmPair.observe, if_neg (by simp [hen]), Option.toList_none, List.append_nil]
        exact hprev.disabled hr hen

/-- What is observed are the enabled clocks. -/
theorem observed_eq_map_filter (k : Fin n) (h : List (σ × ι)) :
    observed bank port k h = (h.filter fun e => (port e.1 e.2).en).map
      fun e => ((bank e.1).trigger (port e.1 e.2), (bank e.1).qOut (port e.1 e.2) k) := by
  induction h with
  | nil => rfl
  | cons e rest ih =>
      have hen : ((port e.1 e.2).channel k).en = (port e.1 e.2).en := rfl
      have hcons : observed bank port k (e :: rest)
          = (((bank e.1).channel k).observe ((port e.1 e.2).channel k)).toList
            ++ observed bank port k rest := by
        unfold observed
        rcases hobs : ((bank e.1).channel k).observe ((port e.1 e.2).channel k) with _ | x <;>
          simp [hobs]
      rw [hcons, ih, PwmPair.observe, hen]
      rcases Bool.eq_false_or_eq_true (port e.1 e.2).en with h | h
      · have hfilter : (e :: rest).filter (fun e => (port e.1 e.2).en)
            = e :: rest.filter fun e => (port e.1 e.2).en := List.filter_cons_of_pos h
        rw [if_pos h, hfilter]
        rfl
      · have hfilter : (e :: rest).filter (fun e => (port e.1 e.2).en)
            = rest.filter fun e => (port e.1 e.2).en := List.filter_cons_of_neg (by simp [h])
        rw [if_neg (by simp [h]), hfilter]
        rfl

/-- A bank that is always enabled shows every clock. -/
theorem observed_of_enabled (k : Fin n) {h : List (σ × ι)}
    (hen : ∀ e ∈ h, (port e.1 e.2).en = true) :
    observed bank port k h
      = h.map fun e => ((bank e.1).trigger (port e.1 e.2), (bank e.1).qOut (port e.1 e.2) k) := by
  rw [observed_eq_map_filter, List.filter_eq_self.mpr hen]

end Machine

end CanBench.Pwm
