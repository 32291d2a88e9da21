/-
Runs of a machine under an environment.

A `System` is a machine together with what its surroundings may do to it: the
states it may start in, the inputs it may be offered in a state, and the state an
input takes it to.  `Run M h s` says that `M`, started somewhere legal and offered
only legal inputs, went through the history `h` and is now in `s`.  The history
records the state *before* each input, so "at every clock edge of the run" is a
quantifier over its members.

Three rules are what most of the developments above need.  `Run.invariant` is plain
induction.  `Run.invariant_of_good` is the same for a property that survives only
the steps meeting some condition, and `Run.exact` adds the converse: if breaking
the condition breaks the property at the very next state, the condition is not
merely sufficient for the property along a run but equivalent to it.

A property of a stretch in the middle of a run is proved of the runs that begin where the
stretch does: `Run.of_infix`.
-/
import Mathlib.Data.List.Chain
import Mathlib.Data.List.Induction

namespace Lib

universe u v

/-- A machine and the environment it is run in. -/
structure System (σ : Type u) (ι : Type v) where
  /-- The states a run may start in. -/
  init : σ → Prop
  /-- The inputs the environment may offer in a state. -/
  allowed : σ → ι → Prop
  next : σ → ι → σ

/-- `M` went through `h`, oldest step first, and is now in `s`. -/
inductive Run {σ : Type u} {ι : Type v} (M : System σ ι) : List (σ × ι) → σ → Prop
  | start {s : σ} (h : M.init s) : Run M [] s
  | step {h : List (σ × ι)} {s : σ} {i : ι} (r : Run M h s) (ok : M.allowed s i) :
      Run M (h ++ [(s, i)]) (M.next s i)

/-- `x` is one of the states a run with history `h` ending in `s` went through. -/
def Visits {σ : Type u} {ι : Type v} (h : List (σ × ι)) (s x : σ) : Prop :=
  x = s ∨ ∃ i, (x, i) ∈ h

namespace Run

variable {σ : Type u} {ι : Type v} {M : System σ ι} {h : List (σ × ι)} {s : σ}

/-- A property of the starting states that every step preserves holds in every
state a run reaches. -/
theorem invariant {I : σ → Prop} (hinit : ∀ s, M.init s → I s)
    (hstep : ∀ s i, I s → M.allowed s i → I (M.next s i)) (r : Run M h s) : I s := by
  induction r with
  | start hs => exact hinit _ hs
  | step _ ok ih => exact hstep _ _ ih ok

/-- Every step in the history was taken from a state that a shorter run reaches. -/
theorem of_mem (r : Run M h s) :
    ∀ e ∈ h, ∃ h', Run M h' e.1 ∧ M.allowed e.1 e.2 ∧ ∀ e' ∈ h', e' ∈ h := by
  induction r with
  | start _ => intro e he; simp at he
  | @step h s i r ok ih =>
      intro e he
      rcases List.mem_append.mp he with hold | hnew
      · obtain ⟨h', r', ok', hsub⟩ := ih e hold
        exact ⟨h', r', ok', fun e' he' => List.mem_append.mpr (Or.inl (hsub e' he'))⟩
      · obtain rfl : e = (s, i) := by simpa using hnew
        exact ⟨h, r, ok, fun e' he' => List.mem_append.mpr (Or.inl he')⟩

/-- A run all of whose steps meet `G` is one of the machine that is offered no others. -/
theorem restrict {G : σ → ι → Prop} (r : Run M h s) (hgood : ∀ e ∈ h, G e.1 e.2) :
    Run { M with allowed := fun s i => M.allowed s i ∧ G s i } h s := by
  induction r with
  | start hs => exact Run.start hs
  | @step h s i r ok ih =>
      have hprev := ih fun e he => hgood e (List.mem_append.mpr (Or.inl he))
      exact hprev.step ⟨ok, hgood (s, i) (by simp)⟩

/-- A property that survives the steps meeting `good` holds at the end of every
run all of whose steps meet it. -/
theorem invariant_of_good {J : σ → Prop} {good : σ → ι → Prop}
    (hinit : ∀ s, M.init s → J s)
    (hstep : ∀ s i, J s → M.allowed s i → good s i → J (M.next s i)) (r : Run M h s)
    (hgood : ∀ e ∈ h, good e.1 e.2) : J s := by
  induction r with
  | start hs => exact hinit _ hs
  | @step h s i _ ok ih =>
      refine hstep _ _ (ih fun e he => hgood e ?_) ok (hgood (s, i) (by simp))
      exact List.mem_append.mpr (Or.inl he)

/-- The same for every state the run went through. -/
theorem visits_of_good {J : σ → Prop} {good : σ → ι → Prop}
    (hinit : ∀ s, M.init s → J s)
    (hstep : ∀ s i, J s → M.allowed s i → good s i → J (M.next s i)) (r : Run M h s)
    (hgood : ∀ e ∈ h, good e.1 e.2) : ∀ x, Visits h s x → J x := by
  rintro x (rfl | ⟨i, hx⟩)
  · exact r.invariant_of_good hinit hstep hgood
  · obtain ⟨h', r', -, hsub⟩ := r.of_mem (x, i) hx
    exact r'.invariant_of_good hinit hstep fun e he => hgood e (hsub e he)

/--
**The condition is exact.**  `J` is the strong invariant that good steps keep, and
it implies the property `P`; a step that is not good takes a `J` state to one where
`P` fails.  Then `P` holds throughout a run exactly when all its steps are good.
-/
theorem exact {J P : σ → Prop} {G : σ → ι → Prop}
    (hinit : ∀ s, M.init s → J s)
    (hstep : ∀ s i, J s → M.allowed s i → G s i → J (M.next s i))
    (hJ : ∀ s, J s → P s)
    (hbad : ∀ s i, J s → M.allowed s i → ¬ G s i → ¬ P (M.next s i))
    (r : Run M h s) :
    (∀ x, Visits h s x → P x) ↔ ∀ e ∈ h, G e.1 e.2 := by
  refine ⟨fun hP => ?_, fun hgood x hx => hJ x (r.visits_of_good hinit hstep hgood x hx)⟩
  induction r with
  | start _ => intro e he; simp at he
  | @step h s i r ok ih =>
      have hprev : ∀ e ∈ h, G e.1 e.2 := ih fun x hx => hP x <| by
        rcases hx with rfl | ⟨j, hj⟩
        · exact Or.inr ⟨i, by simp⟩
        · exact Or.inr ⟨j, List.mem_append.mpr (Or.inl hj)⟩
      intro e he
      rcases List.mem_append.mp he with hold | hnew
      · exact hprev e hold
      · obtain rfl : e = (s, i) := by simpa using hnew
        by_contra hg
        exact hbad s i (r.invariant_of_good hinit hstep hprev) ok hg (hP _ (Or.inl rfl))

/-- A property of the steps that depends on the step before: it holds of the first step
from any starting state, and of a later one exactly when the pair is in `R`. -/
theorem forall_iff_isChain {I : σ → Prop} {Q : σ → ι → Prop} {R : σ × ι → σ × ι → Prop}
    (hinit : ∀ s, M.init s → I s)
    (hstep : ∀ s i, I s → M.allowed s i → I (M.next s i))
    (hfirst : ∀ s i, M.init s → M.allowed s i → Q s i)
    (hnext : ∀ s i j, I s → M.allowed s i → M.allowed (M.next s i) j →
      (Q (M.next s i) j ↔ R (s, i) (M.next s i, j)))
    (r : Run M h s) : (∀ e ∈ h, Q e.1 e.2) ↔ h.IsChain R := by
  induction r with
  | start _ => simp
  | @step h s i r ok ih =>
      have hlast : Q s i ↔ ∀ e ∈ h.getLast?, R e (s, i) := by
        cases r with
        | start hs => simpa using hfirst s i hs ok
        | @step h' t j r' ok' =>
            simpa using hnext t j i (r'.invariant hinit hstep) ok' ok
      rw [List.isChain_append, ← ih]
      simp only [List.mem_append, List.mem_singleton, List.head?_cons, Option.mem_some,
        List.isChain_singleton, true_and]
      refine ⟨fun hQ => ⟨fun e he => hQ e (Or.inl he), ?_⟩, fun hQ e he => ?_⟩
      · rintro e he _ rfl
        exact hlast.mp (hQ (s, i) (Or.inr rfl)) e he
      · rcases he with he | rfl
        · exact hQ.1 e he
        · exact hlast.mpr fun e he => hQ.2 e he _ rfl

end Run

/-! ### A stretch of a run -/

/-- The machine started in a given state. -/
def System.startedIn {σ : Type u} {ι : Type v} (M : System σ ι) (s₀ : σ) : System σ ι :=
  { M with init := fun s => s = s₀ }

namespace Run

variable {σ : Type u} {ι : Type v} {M : System σ ι} {h l : List (σ × ι)} {s s₀ : σ} {e : σ × ι}

theorem of_nil (r : Run M [] s) : M.init s := by
  generalize hl : ([] : List (σ × ι)) = l at r
  cases r with
  | start hs => exact hs
  | step _ _ => simp at hl

theorem of_concat (r : Run M (h ++ [e]) s) :
    Run M h e.1 ∧ M.allowed e.1 e.2 ∧ s = M.next e.1 e.2 := by
  generalize hl : h ++ [e] = l at r
  cases r with
  | start _ => simp at hl
  | @step h' t i r ok =>
      obtain ⟨rfl, he⟩ := List.append_inj' hl rfl
      obtain rfl : e = (t, i) := by simpa using he
      exact ⟨r, ok, rfl⟩

/-- A run can be cut anywhere. -/
theorem of_append {p q : List (σ × ι)} :
    ∀ {s : σ}, Run M (p ++ q) s → ∃ s', Run M p s' ∧ Run (M.startedIn s') q s := by
  induction q using List.reverseRecOn with
  | nil =>
      intro s r
      exact ⟨s, by simpa using r, Run.start rfl⟩
  | append_singleton q e ih =>
      intro s r
      rw [← List.append_assoc] at r
      obtain ⟨r', ok, rfl⟩ := r.of_concat
      obtain ⟨s', hp, hq⟩ := ih r'
      exact ⟨s', hp, hq.step ok⟩

/-- A machine inside another makes a run of each of the outer machine's. -/
theorem project {τ κ : Type*} {N : System τ κ} (f : σ → τ) (g : σ → ι → κ)
    (hinit : ∀ s, M.init s → N.init (f s)) (hnext : ∀ s i, f (M.next s i) = N.next (f s) (g s i))
    (r : Run M h s) (hallowed : ∀ e ∈ h, M.allowed e.1 e.2 → N.allowed (f e.1) (g e.1 e.2)) :
    Run N (h.map fun e => (f e.1, g e.1 e.2)) (f s) := by
  induction r with
  | start hs => exact Run.start (hinit _ hs)
  | @step h s i _ ok ih =>
      have hbefore := ih fun e he => hallowed e (List.mem_append.mpr (Or.inl he))
      rw [hnext, List.map_append]
      exact hbefore.step (hallowed (s, i) (by simp) ok)

/-- Two steps next to each other. -/
theorem next_of_pair {e' : σ × ι} (r : Run M h s) (hpair : [e, e'] <:+: h) :
    e'.1 = M.next e.1 e.2 := by
  obtain ⟨pre, suf, rfl⟩ := hpair
  obtain ⟨s', r', -⟩ := r.of_append
  have hcut : pre ++ [e, e'] = (pre ++ [e]) ++ [e'] := by simp
  rw [hcut] at r'
  exact r'.of_concat.1.of_concat.2.2

/-- All steps but the first, one step later. -/
theorem forall_mem_tail_concat {P : σ × ι → Prop} :
    (∀ x ∈ (h ++ [e]).tail, P x) ↔ (∀ x ∈ h.tail, P x) ∧ (h ≠ [] → P e) := by
  rcases h with _ | ⟨b, h⟩
  · simp
  · simp [or_imp, forall_and]

/-- A stretch of a run is a run from the state it begins in. -/
theorem of_infix (r : Run M h s) (hl : e :: l <:+: h) :
    ∃ s', Run (M.startedIn e.1) (e :: l) s' := by
  obtain ⟨pre, suf, rfl⟩ := hl
  obtain ⟨s', r', -⟩ := r.of_append
  obtain ⟨s₀, -, r₀⟩ := r'.of_append
  have hfirst : e.1 = s₀ := by
    obtain ⟨s₁, r₁, -⟩ := Run.of_append (p := [e]) r₀
    obtain ⟨hstart, -, -⟩ := Run.of_concat (h := []) r₁
    exact hstart.of_nil
  rw [hfirst]
  exact ⟨s', r₀⟩

end Run

/-! ### Running a list of inputs -/

namespace System

variable {σ : Type u} {ι : Type v}

/-- The state a list of inputs leads to. -/
def runFrom (M : System σ ι) : σ → List ι → σ
  | s, [] => s
  | s, i :: rest => M.runFrom (M.next s i) rest

/-- The steps a list of inputs takes. -/
def steps (M : System σ ι) : σ → List ι → List (σ × ι)
  | _, [] => []
  | s, i :: rest => (s, i) :: M.steps (M.next s i) rest

theorem runFrom_cons (M : System σ ι) (s : σ) (i : ι) (rest : List ι) :
    M.runFrom s (i :: rest) = M.runFrom (M.next s i) rest := rfl

theorem runFrom_append (M : System σ ι) (l l' : List ι) :
    ∀ s : σ, M.runFrom s (l ++ l') = M.runFrom (M.runFrom s l) l' := by
  induction l with
  | nil => intro s; rfl
  | cons i rest ih => intro s; exact ih (M.next s i)

theorem steps_cons (M : System σ ι) (s : σ) (i : ι) (rest : List ι) :
    M.steps s (i :: rest) = (s, i) :: M.steps (M.next s i) rest := rfl

theorem steps_append (M : System σ ι) (l l' : List ι) :
    ∀ s : σ, M.steps s (l ++ l') = M.steps s l ++ M.steps (M.runFrom s l) l' := by
  induction l with
  | nil => intro s; rfl
  | cons i rest ih =>
      intro s
      show (s, i) :: M.steps (M.next s i) (rest ++ l') = _
      rw [ih]
      rfl

theorem snd_mem_of_mem_steps (M : System σ ι) {l : List ι} {e : σ × ι} :
    ∀ {s : σ}, e ∈ M.steps s l → e.2 ∈ l := by
  induction l with
  | nil =>
      intro s he
      exact absurd he (by simp [steps])
  | cons i rest ih =>
      intro s he
      rcases List.mem_cons.mp he with rfl | htail
      · simp
      · exact List.mem_cons_of_mem _ (ih htail)

theorem run_of_steps (M : System σ ι) (l : List ι) :
    ∀ {h : List (σ × ι)} {s : σ}, Run M h s → (∀ e ∈ M.steps s l, M.allowed e.1 e.2) →
      Run M (h ++ M.steps s l) (M.runFrom s l) := by
  induction l with
  | nil => intro h s r _; simpa [steps, runFrom] using r
  | cons i rest ih =>
      intro h s r hall
      have r' := ih (r.step (hall (s, i) (by simp [steps])))
        (fun e he => hall e (by simp [steps, he]))
      simpa [steps, runFrom, List.append_assoc] using r'

end System

end Lib
