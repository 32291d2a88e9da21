/-
When `ready_for_rq` can be believed.

The request latch looks at `io_state_r` in every clock, but `ready_for_rq` is only written on
a tick of the divider.  A request taken on a tick clears the flag at once.  One taken between
two ticks moves the state machine to `is_wrini` and leaves the flag up until the next tick,
and whoever believes it until then is not heard.

So the flag is good for one request in each turn of the divider.  `LcdWatch` notes whether
the turn under way has had it, and `Follows` is the invariant: while the flag is up, the
state machine is idle if the turn has not, and in `is_wrini` if it has.  With a divider of 1
every clock is a tick and every request is heard.
-/
import CanBench.Display.WriteCycle

namespace CanBench.Display

open Lib IoFsm

variable {dataWidth lcdIoWidth lcdBusClkdiv : Nat}

/-- The state machine takes this request: it is at work on no other, latches the whole of it,
and then drives it on the pins, whatever comes after. -/
structure Accepted (lcdBusClkdiv : Nat) (s : IoFsm dataWidth lcdIoWidth) (i : IoFsmIn dataWidth) :
    Prop where
  idle : s.ioStateR = .isIddle
  dataOutR : (s.next lcdBusClkdiv i).dataOutR = i.dataOut
  dcOutR : (s.next lcdBusClkdiv i).dcOutR = i.dcOut
  trasferRqDblR : (s.next lcdBusClkdiv i).trasferRqDblR = i.trasferRqDbl
  driven : ∀ ins : Nat → IoFsmIn dataWidth, ins 0 = i →
    (∀ j < transferClocks lcdBusClkdiv s.divCnt i.trasferRqDbl, Clocked (ins j)) →
    WriteCycle lcdBusClkdiv s.divCnt i (stateAt (IoFsm.next lcdBusClkdiv) s ins)

/-- A request at an edge at which `ready_for_rq` is '1'. -/
def AskedAtReady (s : IoFsm dataWidth lcdIoWidth) (i : IoFsmIn dataWidth) : Prop :=
  i.resetIn = false ∧ i.trasferRq = true ∧ s.readyForRq = true

/-- The state machine, and whether the turn of the divider has had a request at ready. -/
structure LcdWatch (dataWidth lcdIoWidth : Nat) where
  fsm : IoFsm dataWidth lcdIoWidth
  asked : Bool

namespace LcdWatch

/-- One clock; a turn ends with its tick. -/
def next (lcdBusClkdiv : Nat) (x : LcdWatch dataWidth lcdIoWidth) (i : IoFsmIn dataWidth) :
    LcdWatch dataWidth lcdIoWidth where
  fsm := x.fsm.next lcdBusClkdiv i
  asked := if i.resetIn || decide (x.fsm.divCnt = 0) then false
    else x.asked || (i.trasferRq && x.fsm.readyForRq)

end LcdWatch

/-- Runs from a reset on with `clk_en => '1'`, any requests and further resets. -/
def lcdWatched (dataWidth lcdIoWidth lcdBusClkdiv : Nat) :
    System (LcdWatch dataWidth lcdIoWidth) (IoFsmIn dataWidth) where
  init := fun x => ∃ x₀ i, i.resetIn = true ∧ x = LcdWatch.next lcdBusClkdiv x₀ i
  allowed := fun _ i => i.clkEn = true
  next := LcdWatch.next lcdBusClkdiv

variable {x : LcdWatch dataWidth lcdIoWidth} {i : IoFsmIn dataWidth}

/-- Where the state machine is while the flag is up. -/
def Follows (x : LcdWatch dataWidth lcdIoWidth) : Prop :=
  x.fsm.readyForRq = true →
    (x.fsm.ioStateR = .isIddle ∧ x.asked = false) ∨ (x.fsm.ioStateR = .isWrini ∧ x.asked = true)

/-! ### What a clock makes of the flag -/

theorem asked_reset (hr : i.resetIn = true) : (x.next lcdBusClkdiv i).asked = false := by
  show (if i.resetIn || _ then false else _) = false
  rw [hr, Bool.true_or, if_pos rfl]

theorem asked_tick (hdiv : x.fsm.divCnt = 0) : (x.next lcdBusClkdiv i).asked = false := by
  show (if i.resetIn || decide (x.fsm.divCnt = 0) then false else _) = false
  rw [decide_eq_true hdiv, Bool.or_true, if_pos rfl]

theorem asked_wait (hi : Clocked i) (hdiv : x.fsm.divCnt ≠ 0) :
    (x.next lcdBusClkdiv i).asked = (x.asked || (i.trasferRq && x.fsm.readyForRq)) := by
  show (if i.resetIn || decide (x.fsm.divCnt = 0) then false else _) = _
  rw [hi.1, decide_eq_false hdiv]
  rfl

theorem latch_readyForRq (s : IoFsm dataWidth lcdIoWidth) (i : IoFsmIn dataWidth) :
    (s.latch i).readyForRq = s.readyForRq := by
  unfold latch
  split
  · rfl
  · rfl

theorem follows_reset (hr : i.resetIn = true) : Follows (x.next lcdBusClkdiv i) := by
  intro hready
  have hdown : (x.fsm.next lcdBusClkdiv i).readyForRq = false := by rw [IoFsm.next, if_pos hr]; rfl
  exact absurd (hdown.symm.trans hready) Bool.false_ne_true

/-- On a tick the flag comes up only together with the idle state. -/
theorem follows_tick (hi : Clocked i) (hdiv : x.fsm.divCnt = 0) :
    Follows (x.next lcdBusClkdiv i) := by
  intro hready
  exact Or.inl ⟨idle_of_tick_ready hi hdiv hready, asked_tick hdiv⟩

/-- Between two ticks the flag stays, whatever the latch does. -/
theorem follows_wait (hx : Follows x) (hi : Clocked i) (hdiv : x.fsm.divCnt ≠ 0) :
    Follows (x.next lcdBusClkdiv i) := by
  intro hready
  have hfsm : (x.next lcdBusClkdiv i).fsm
      = { x.fsm.latch i with divCnt := x.fsm.divCnt - 1 } := next_wait hi hdiv
  have hold : x.fsm.readyForRq = true := by
    rw [hfsm] at hready
    rw [← latch_readyForRq x.fsm i]
    exact hready
  rw [hfsm, asked_wait hi hdiv, hold, Bool.and_true]
  rcases hx hold with ⟨hidle, hnot⟩ | ⟨hini, hyes⟩
  · by_cases hrq : i.trasferRq = true
    · rw [latch_request hidle hrq, hrq, Bool.or_true]
      exact Or.inr ⟨rfl, rfl⟩
    · refine Or.inl ⟨?_, by simp [hnot, hrq]⟩
      show (x.fsm.latch i).ioStateR = .isIddle
      simp [latch, hrq, hidle]
  · have hbusy : x.fsm.ioStateR ≠ .isIddle := by simp [hini]
    rw [latch_busy hbusy, hyes, Bool.true_or]
    exact Or.inr ⟨hini, rfl⟩

theorem follows_next (hx : Follows x) (hen : i.clkEn = true) :
    Follows (x.next lcdBusClkdiv i) := by
  by_cases hr : i.resetIn = true
  · exact follows_reset hr
  · have hi : Clocked i := ⟨by simpa using hr, hen⟩
    by_cases hdiv : x.fsm.divCnt = 0
    · exact follows_tick hi hdiv
    · exact follows_wait hx hi hdiv

/-- Along a run the flag is followed, and the state machine is sound. -/
theorem Run.follows {h : List (LcdWatch dataWidth lcdIoWidth × IoFsmIn dataWidth)}
    (hdiv : 1 ≤ lcdBusClkdiv) (r : Run (lcdWatched dataWidth lcdIoWidth lcdBusClkdiv) h x) :
    Follows x ∧ x.fsm.Sound lcdBusClkdiv := by
  refine Run.invariant (I := fun y => Follows y ∧ y.fsm.Sound lcdBusClkdiv) ?_
    (fun y i hy hen => ⟨follows_next hy.1 hen, hy.2.next hdiv hen⟩) r
  intro y hstart
  obtain ⟨x₀, i, hr, rfl⟩ := hstart
  exact ⟨follows_reset hr, next_reset_sound hdiv hr⟩

/-- An idle state machine takes a request with everything that came with it. -/
theorem accepted_of_idle (hdiv : 1 ≤ lcdBusClkdiv) {s : IoFsm dataWidth lcdIoWidth}
    (hs : s.Sound lcdBusClkdiv) (hidle : s.ioStateR = .isIddle) (hi : Clocked i)
    (hrq : i.trasferRq = true) : Accepted lcdBusClkdiv s i := by
  have hlatched : (s.next lcdBusClkdiv i).dataOutR = i.dataOut ∧
      (s.next lcdBusClkdiv i).dcOutR = i.dcOut ∧
      (s.next lcdBusClkdiv i).trasferRqDblR = i.trasferRqDbl := by
    by_cases hcnt : s.divCnt = 0
    · rw [next_tick hi hcnt, latch_request hidle hrq]
      simp [tick, hidle, hrq, waiting]
    · rw [next_wait hi hcnt, latch_request hidle hrq]
      exact ⟨rfl, rfl, rfl⟩
  refine ⟨hidle, hlatched.1, hlatched.2.1, hlatched.2.2, ?_⟩
  intro ins h0 hins
  rw [← h0] at hins hrq ⊢
  exact request_cycle hdiv hs hidle hrq hins

/--
**When the flag is honest.**  Along every run, for every divider: each request made at ready
is taken, latched and driven if and only if no turn of the divider sees two of them.
-/
theorem ready_honest_iff {h : List (LcdWatch dataWidth lcdIoWidth × IoFsmIn dataWidth)}
    (hdiv : 1 ≤ lcdBusClkdiv) (r : Run (lcdWatched dataWidth lcdIoWidth lcdBusClkdiv) h x) :
    (∀ e ∈ h, AskedAtReady e.1.fsm e.2 → Accepted lcdBusClkdiv e.1.fsm e.2) ↔
      ∀ e ∈ h, AskedAtReady e.1.fsm e.2 → e.1.asked = false := by
  have hfollows : ∀ e ∈ h, e.2.clkEn = true ∧ Follows e.1 ∧ e.1.fsm.Sound lcdBusClkdiv := by
    intro e he
    obtain ⟨h', r', hen, _⟩ := r.of_mem e he
    exact ⟨hen, Run.follows hdiv r'⟩
  constructor
  · intro hall e he hask
    rcases (hfollows e he).2.1 hask.2.2 with ⟨_, hnot⟩ | ⟨hini, _⟩
    · exact hnot
    · have hidle := (hall e he hask).idle
      rw [hini] at hidle
      exact absurd hidle (by simp)
  · intro hall e he hask
    obtain ⟨hen, hfol, hsound⟩ := hfollows e he
    rcases hfol hask.2.2 with ⟨hidle, _⟩ | ⟨_, hyes⟩
    · exact accepted_of_idle hdiv hsound hidle ⟨hask.1, hen⟩ hask.2.1
    · rw [hall e he hask] at hyes
      exact absurd hyes Bool.false_ne_true

/-- Two requests in consecutive clocks, the first of them off the tick. -/
def backToBack : List (IoFsmIn 8) :=
  [⟨false, true, 0, false, false, false⟩, ⟨false, true, 0, false, false, false⟩,
   ⟨false, true, 0x11, true, true, false⟩, ⟨false, true, 0x22, true, true, false⟩]

/-- The machine they are made to, out of reset. -/
def dividedByTwo : LcdWatch 8 4 :=
  LcdWatch.next 2 ⟨nibbleBus, false⟩ ⟨true, true, 0, false, false, false⟩

/-- The second is made at ready and dropped. -/
theorem backToBack_dropped :
    ¬ ∀ (h : List (LcdWatch 8 4 × IoFsmIn 8)) (x : LcdWatch 8 4), Run (lcdWatched 8 4 2) h x →
      ∀ e ∈ h, AskedAtReady e.1.fsm e.2 → Accepted 2 e.1.fsm e.2 := by
  intro hall
  have hallowed : ∀ e ∈ (lcdWatched 8 4 2).steps dividedByTwo backToBack, e.2.clkEn = true := by
    decide
  have r : Run (lcdWatched 8 4 2) ((lcdWatched 8 4 2).steps dividedByTwo backToBack) _ :=
    (lcdWatched 8 4 2).run_of_steps backToBack (Run.start ⟨_, _, rfl, rfl⟩) hallowed
  have hmem := List.get_mem ((lcdWatched 8 4 2).steps dividedByTwo backToBack) ⟨3, by decide⟩
  have hlatched := (hall _ _ r _ hmem ⟨rfl, rfl, rfl⟩).dataOutR
  exact absurd hlatched (by decide)

/-- A request in each of two turns. -/
def turnAbout : List (IoFsmIn 8) :=
  [⟨false, true, 0, false, false, false⟩, ⟨false, true, 0, false, false, false⟩,
   ⟨false, true, 0x11, true, true, false⟩, ⟨false, true, 0, false, false, false⟩]
    ++ List.replicate 10 ⟨false, true, 0, false, false, false⟩
    ++ [⟨false, true, 0x22, true, true, false⟩]

/-- Both are made at ready, and both are taken. -/
theorem turnAbout_honest :
    Accepted 2 (((lcdWatched 8 4 2).steps dividedByTwo turnAbout).get ⟨2, by decide⟩).1.fsm
      ⟨false, true, 0x11, true, true, false⟩ ∧
    Accepted 2 (((lcdWatched 8 4 2).steps dividedByTwo turnAbout).get ⟨14, by decide⟩).1.fsm
      ⟨false, true, 0x22, true, true, false⟩ := by
  have hallowed : ∀ e ∈ (lcdWatched 8 4 2).steps dividedByTwo turnAbout, e.2.clkEn = true := by
    decide
  have honce : ∀ e ∈ (lcdWatched 8 4 2).steps dividedByTwo turnAbout,
      AskedAtReady e.1.fsm e.2 → e.1.asked = false := by
    unfold AskedAtReady
    decide
  have r : Run (lcdWatched 8 4 2) ((lcdWatched 8 4 2).steps dividedByTwo turnAbout) _ :=
    (lcdWatched 8 4 2).run_of_steps turnAbout (Run.start ⟨_, _, rfl, rfl⟩) hallowed
  have hall := (ready_honest_iff (Nat.le_succ 1) r).mpr honce
  exact ⟨hall _ (List.get_mem _ ⟨2, by decide⟩) ⟨rfl, rfl, rfl⟩,
    hall _ (List.get_mem _ ⟨14, by decide⟩) ⟨rfl, rfl, rfl⟩⟩

/-- With a divider of 1 no turn is long enough for two requests. -/
theorem asked_undivided {h : List (LcdWatch dataWidth lcdIoWidth × IoFsmIn dataWidth)}
    (r : Run (lcdWatched dataWidth lcdIoWidth 1) h x) : x.asked = false := by
  induction r with
  | start hstart =>
      obtain ⟨x₀, i, hr, rfl⟩ := hstart
      exact asked_reset hr
  | @step h y i r _ _ =>
      exact asked_tick (Nat.lt_one_iff.mp (Run.follows (Nat.le_refl 1) r).2.divCnt)

/-- So there, as the display is built, the flag is honest. -/
theorem ready_honest_undivided {h : List (LcdWatch dataWidth lcdIoWidth × IoFsmIn dataWidth)}
    (r : Run (lcdWatched dataWidth lcdIoWidth 1) h x) :
    ∀ e ∈ h, AskedAtReady e.1.fsm e.2 → Accepted 1 e.1.fsm e.2 := by
  intro e he hask
  obtain ⟨h', r', hen, _⟩ := r.of_mem e he
  obtain ⟨hfol, hsound⟩ := Run.follows (Nat.le_refl 1) r'
  rcases hfol hask.2.2 with ⟨hidle, _⟩ | ⟨_, hyes⟩
  · exact accepted_of_idle (Nat.le_refl 1) hsound hidle ⟨hask.1, hen⟩ hask.2.1
  · rw [asked_undivided r'] at hyes
    exact absurd hyes Bool.false_ne_true

end CanBench.Display
