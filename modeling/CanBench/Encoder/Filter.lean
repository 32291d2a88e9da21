/-
The glitch filter.

`dff3cke` compares its three registers before it shifts them, so that a clock with the enable
looks at the three samples stored last before it, and what it stores itself is looked at by
the next one.  The output is therefore `settle 3` of the samples stored, which is to say the
values of their runs of three and more.

The window is equal for the first time when the third sample of a run is the last one
stored.  In the enabled clock after that the output takes over the value, if it does not
have it, and nothing is left to take over in the clock after: the pulse on `ch_1ck_o` lasts
one clock whatever the enable does.
-/
import CanBench.Encoder.Impl
import CanBench.Lib.RunLength

namespace CanBench.Encoder

open Lib

namespace Dff3cke

variable {s s₀ : Dff3cke}

/-! ### One clock -/

theorem qO_next_disabled (dI : Bool) : (s.next false dI).qO = s.qO := rfl

theorem qO_next_enabled (dI : Bool) :
    (s.next true dI).qO = if s.d3r = s.d2r ∧ s.d2r = s.dr then s.d3r else s.qO := by
  unfold next
  rw [if_pos rfl]
  by_cases hsame : s.d3r = s.d2r ∧ s.d2r = s.dr
  · rw [if_pos hsame, if_pos hsame]
    rfl
  · rw [if_neg hsame, if_neg hsame]
    rfl

/-- An enabled clock shifts. -/
theorem shift_next (dI : Bool) :
    (s.next true dI).d3r = s.d2r ∧ (s.next true dI).d2r = s.dr ∧ (s.next true dI).dr = dI := by
  simp [next]

/-- `ch_1ck_o` is set by a change of the output. -/
theorem ch1ckO_next (clkEn dI : Bool) :
    (s.next clkEn dI).ch1ckO = (s.qO != (s.next clkEn dI).qO) := by
  cases clkEn with
  | false => rw [qO_next_disabled, bne_self_eq_false]; rfl
  | true =>
      rw [qO_next_enabled]
      unfold next
      rw [if_pos rfl]
      by_cases hsame : s.d3r = s.d2r ∧ s.d2r = s.dr
      · rw [if_pos hsame, if_pos hsame]
        rfl
      · rw [if_neg hsame, if_neg hsame, bne_self_eq_false]

/-- The output changes only to the value of three equal samples. -/
theorem window_of_change {clkEn dI : Bool} (h : s.qO ≠ (s.next clkEn dI).qO) :
    clkEn = true ∧ s.d3r = (s.next clkEn dI).qO ∧ s.d2r = (s.next clkEn dI).qO ∧
      s.dr = (s.next clkEn dI).qO := by
  cases clkEn with
  | false => exact absurd (qO_next_disabled dI).symm h
  | true =>
      rw [qO_next_enabled] at h ⊢
      by_cases hsame : s.d3r = s.d2r ∧ s.d2r = s.dr
      · rw [if_pos hsame]
        exact ⟨rfl, rfl, hsame.1.symm, (hsame.1.trans hsame.2).symm⟩
      · rw [if_neg hsame] at h
        exact absurd rfl h

/-- Having changed the output stays for a clock. -/
theorem qO_next_next {clkEn dI : Bool} (h : s.qO ≠ (s.next clkEn dI).qO) (clkEn' dI' : Bool) :
    ((s.next clkEn dI).next clkEn' dI').qO = (s.next clkEn dI).qO := by
  obtain ⟨rfl, h3, h2, h1⟩ := window_of_change h
  by_contra hagain
  obtain ⟨-, h3', -, -⟩ := window_of_change (Ne.symm hagain)
  rw [(shift_next dI).1, h2] at h3'
  exact hagain h3'.symm

/-! ### Many clocks -/

/-- The filter after a list of clocks, each an enable and a sample. -/
def after (s : Dff3cke) (ins : List (Bool × Bool)) : Dff3cke :=
  ins.foldl (fun s i => s.next i.1 i.2) s

/-- `q_o` after each of the clocks. -/
def outputs : Dff3cke → List (Bool × Bool) → List Bool
  | _, [] => []
  | s, i :: rest => (s.next i.1 i.2).qO :: outputs (s.next i.1 i.2) rest

/-- The samples stored: those in the registers, and those of the enabled clocks. -/
def stored (s : Dff3cke) (ins : List (Bool × Bool)) : List Bool :=
  [s.d3r, s.d2r, s.dr] ++ (ins.filter Prod.fst).map Prod.snd

theorem after_concat (s : Dff3cke) (ins : List (Bool × Bool)) (i : Bool × Bool) :
    s.after (ins ++ [i]) = (s.after ins).next i.1 i.2 := by
  simp [after]

theorem stored_concat (s : Dff3cke) (ins : List (Bool × Bool)) (clkEn dI : Bool) :
    s.stored (ins ++ [(clkEn, dI)]) = s.stored ins ++ if clkEn then [dI] else [] := by
  cases clkEn with
  | false => simp [stored]
  | true => simp [stored]

/-- The output is what settles of the samples looked at: all but the last one. -/
theorem merged_outputs (ins : List (Bool × Bool)) :
    ∀ s : Dff3cke, merged (s.qO :: s.outputs ins)
      = merged (s.qO :: settle 3 s.qO (s.stored ins).dropLast) := by
  induction ins with
  | nil =>
      intro s
      simp [outputs, stored, settle]
  | cons i rest ih =>
      intro s
      obtain ⟨clkEn, dI⟩ := i
      have hnext := merged_cons_congr (q := s.qO) (ih (s.next clkEn dI))
      rw [outputs, hnext]
      cases clkEn with
      | false =>
          rw [qO_next_disabled, merged_cons_self]
          rfl
      | true =>
          obtain ⟨h3, h2, h1⟩ := shift_next (s := s) dI
          have hlooked : (s.stored ((true, dI) :: rest)).dropLast
              = s.d3r :: ((s.next true dI).stored rest).dropLast := by
            simp [stored, h3, h2, h1]
          have hsees : List.replicate 3 s.d3r <+: s.d3r :: ((s.next true dI).stored rest).dropLast
              ↔ s.d3r = s.d2r ∧ s.d2r = s.dr := by
            have htwo : s.d3r = s.d2r → (s.d3r = s.dr ↔ s.d2r = s.dr) := fun h => by rw [h]
            simpa [stored, h3, h2, h1, List.replicate_succ] using htwo
          rw [hlooked, settle]
          simp only [hsees, ← qO_next_enabled dI]

/-- Where the registers are in what was stored, and that a run of more than three has been
taken over. -/
theorem window (s₀ : Dff3cke) (ins : List (Bool × Bool)) :
    ∃ pre, s₀.stored ins
        = pre ++ [(s₀.after ins).d3r, (s₀.after ins).d2r, (s₀.after ins).dr] ∧
      (pre.getLast? = some (s₀.after ins).d3r → (s₀.after ins).d3r = (s₀.after ins).d2r →
        (s₀.after ins).qO = (s₀.after ins).d3r) := by
  induction ins using List.reverseRecOn with
  | nil => exact ⟨[], rfl, fun h => by simp at h⟩
  | append_singleton ins i ih =>
      obtain ⟨pre, hpre, htaken⟩ := ih
      obtain ⟨clkEn, dI⟩ := i
      rw [stored_concat, after_concat, hpre]
      cases clkEn with
      | false => exact ⟨pre, List.append_nil _, htaken⟩
      | true =>
          obtain ⟨h3, h2, h1⟩ := shift_next (s := s₀.after ins) dI
          refine ⟨pre ++ [(s₀.after ins).d3r], ?_, fun hlast hsame => ?_⟩
          · simp [h3, h2, h1]
          · rw [h3] at hlast hsame ⊢
            rw [h2] at hsame
            have h32 : (s₀.after ins).d3r = (s₀.after ins).d2r := by simpa using hlast
            rw [qO_next_enabled, if_pos ⟨h32, hsame⟩, h32]

/-- A value is taken over in the enabled clock after the third sample of its run. -/
theorem change_iff (s₀ : Dff3cke) (ins : List (Bool × Bool)) (clkEn dI v : Bool)
    (hne : (s₀.after ins).qO ≠ v) :
    ((s₀.after ins).next clkEn dI).qO = v ↔
      clkEn = true ∧ ∃ pre, s₀.stored ins = pre ++ [v, v, v] ∧ pre.getLast? ≠ some v := by
  obtain ⟨pre, hpre, htaken⟩ := window s₀ ins
  constructor
  · intro hv
    obtain ⟨hen, h3, h2, h1⟩ := window_of_change (hne.trans_eq hv.symm)
    rw [hv] at h3 h2 h1
    rw [h3, h2, h1] at hpre
    refine ⟨hen, pre, hpre, fun hlast => hne ?_⟩
    rw [htaken (by rw [h3]; exact hlast) (by rw [h3, h2]), h3]
  · rintro ⟨rfl, pre', hpre', -⟩
    have hsame := (List.append_inj' (hpre.symm.trans hpre') rfl).2
    obtain ⟨h3, h2, h1⟩ : (s₀.after ins).d3r = v ∧ (s₀.after ins).d2r = v ∧
        (s₀.after ins).dr = v := by simpa using hsame
    rw [qO_next_enabled, h3, h2, h1, if_pos ⟨rfl, rfl⟩]

end Dff3cke

/--
**The filter passes the runs of three and more.**  From any contents and with any enables:
the values `q_o` takes are its first one and those of the runs of at least three samples, the
sample stored last being looked at in the next enabled clock.  A value appears in the enabled
clock that follows the third sample of its run, and at no other time.  `ch_1ck_o` is set by a
change of `q_o`, and is not set in two clocks running.
-/
theorem dff3cke_runs (s : Dff3cke) (ins : List (Bool × Bool)) (clkEn dI : Bool) :
    merged (s.qO :: s.outputs ins) = merged (s.qO :: longRuns 3 (s.stored ins).dropLast) ∧
    merged (s.qO :: s.outputs (ins ++ [(true, dI)]))
      = merged (s.qO :: longRuns 3 (s.stored ins)) ∧
    (∀ v, (s.after ins).qO ≠ v ∧ (s.after (ins ++ [(clkEn, dI)])).qO = v ↔
      (s.after ins).qO ≠ v ∧ clkEn = true ∧
        ∃ pre, s.stored ins = pre ++ [v, v, v] ∧ pre.getLast? ≠ some v) ∧
    ((s.after (ins ++ [(clkEn, dI)])).ch1ckO = true ↔
      (s.after (ins ++ [(clkEn, dI)])).qO ≠ (s.after ins).qO) ∧
    ∀ i, ¬ ((s.after (ins ++ [(clkEn, dI)])).ch1ckO = true ∧
      (s.after (ins ++ [(clkEn, dI), i])).ch1ckO = true) := by
  have hvalues : ∀ ins', merged (s.qO :: s.outputs ins')
      = merged (s.qO :: longRuns 3 (s.stored ins').dropLast) := fun ins' =>
    (Dff3cke.merged_outputs ins' s).trans (merged_settle (by decide) _ _)
  have hlater : (s.stored (ins ++ [(true, dI)])).dropLast = s.stored ins := by
    rw [Dff3cke.stored_concat]
    exact List.dropLast_concat
  refine ⟨hvalues ins, by rw [hvalues, hlater], fun v => ?_, ?_, fun i => ?_⟩
  · rw [Dff3cke.after_concat]
    exact and_congr_right fun hne => Dff3cke.change_iff s ins clkEn dI v hne
  · rw [Dff3cke.after_concat, Dff3cke.ch1ckO_next, bne_iff_ne]
    exact ne_comm
  · have hsplit : ins ++ [(clkEn, dI), i] = (ins ++ [(clkEn, dI)]) ++ [i] := by simp
    rw [hsplit, Dff3cke.after_concat s (ins ++ [(clkEn, dI)]), Dff3cke.ch1ckO_next,
      Dff3cke.after_concat, Dff3cke.ch1ckO_next, bne_iff_ne, bne_iff_ne]
    exact fun ⟨hfirst, hsecond⟩ => hsecond (Dff3cke.qO_next_next hfirst i.1 i.2).symm

end CanBench.Encoder
