/-
When receive polling makes progress and loses nothing.

With every allocation granted, each turn of the loop takes the frame at the head of the
FIFO and passes it on; the flag the loop tests is set exactly while the FIFO is not
empty, so the loop ends when the FIFO or the quota is used up.  A turn whose allocation
fails counts a dropped frame and leaves the FIFO as it was: the frame is still there on
the next turn, and if allocation goes on failing the loop does not end.

The proof follows the queue through the accesses of one turn.  All but one only let
frames arrive (`Arrives`); reading DW2 removes the head.
-/
import CanBench.XilinxCan.Rx

namespace CanBench.XilinxCan

namespace Rx

variable {env : Env} {s t u : Rx}

/-! ### What an access leaves as it was -/

/-- From `s` to `t` frames may have arrived, and nothing else has happened to the FIFO,
the counters or the frames passed on. -/
structure Arrives (s t : Rx) : Prop where
  new : ∃ new, t.fifo = s.fifo ++ new ∧ t.arrived = s.arrived ++ new
  removed : t.removed = s.removed
  received : t.received = s.received
  rxDropped : t.rxDropped = s.rxDropped
  workDone : t.workDone = s.workDone
  allocs : t.allocs = s.allocs
  underruns : t.underruns = s.underruns

theorem Arrives.trans (h : Arrives s t) (h' : Arrives t u) : Arrives s u := by
  obtain ⟨a, hf, ha⟩ := h.new
  obtain ⟨b, hf', ha'⟩ := h'.new
  refine ⟨⟨a ++ b, ?_, ?_⟩, h'.removed.trans h.removed, h'.received.trans h.received,
    h'.rxDropped.trans h.rxDropped, h'.workDone.trans h.workDone, h'.allocs.trans h.allocs,
    h'.underruns.trans h.underruns⟩
  · rw [hf', hf, List.append_assoc]
  · rw [ha', ha, List.append_assoc]

/-- A frame at the head stays there. -/
theorem Arrives.head {w : FifoWords} {rest : List FifoWords} (h : Arrives s t)
    (hs : s.fifo = w :: rest) : ∃ rest', t.fifo = w :: rest' := by
  obtain ⟨a, hf, -⟩ := h.new
  exact ⟨rest ++ a, by rw [hf, hs, List.cons_append]⟩

theorem raiseRxnemp_arrives (s : Rx) : Arrives s s.raiseRxnemp := by
  unfold raiseRxnemp
  by_cases hf : s.fifo = []
  · rw [if_pos hf]
    exact ⟨⟨[], by simp, by simp⟩, rfl, rfl, rfl, rfl, rfl, rfl⟩
  · rw [if_neg hf]
    exact ⟨⟨[], by simp, by simp⟩, rfl, rfl, rfl, rfl, rfl, rfl⟩

theorem elapse_arrives (env : Env) (s : Rx) : Arrives s (s.elapse env) := by
  refine Arrives.trans ?_ (raiseRxnemp_arrives _)
  exact ⟨⟨env.arrivals s.accesses, rfl, rfl⟩, rfl, rfl, rfl, rfl, rfl, rfl⟩

theorem writeIcr_arrives (env : Env) (mask : BitVec 32) (s : Rx) :
    Arrives s (s.writeIcr env mask) := by
  refine (elapse_arrives env s).trans (Arrives.trans ?_ (raiseRxnemp_arrives _))
  exact ⟨⟨[], by simp, by simp⟩, rfl, rfl, rfl, rfl, rfl, rfl⟩

theorem readIsr_arrives (env : Env) (s : Rx) : Arrives s (s.readIsr env) := by
  refine (elapse_arrives env s).trans ?_
  exact ⟨⟨[], by simp [readIsr], by simp [readIsr]⟩, rfl, rfl, rfl, rfl, rfl, rfl⟩

/-- With a frame at the head, a word of it is read. -/
theorem readFifo_of_cons (word : FifoWords → BitVec 32) {w : FifoWords}
    {rest : List FifoWords} (hs : s.fifo = w :: rest) :
    s.readFifo env word = (word w, s.elapse env) := by
  obtain ⟨rest', hf⟩ := (elapse_arrives env s).head hs
  simp only [readFifo, hf]

theorem readDw2_of_cons (env : Env) {w : FifoWords} {rest : List FifoWords}
    (hs : s.fifo = w :: rest) :
    ∃ rest', (s.elapse env).fifo = w :: rest' ∧ s.readDw2 env =
      (w.dw2, { s.elapse env with fifo := rest', removed := s.removed ++ [w] }) := by
  obtain ⟨rest', hf⟩ := (elapse_arrives env s).head hs
  refine ⟨rest', hf, ?_⟩
  simp only [readDw2, hf, (elapse_arrives env s).removed]

/-! ### The flag -/

theorem rxnemp_eq : xcanIxrRxnempMask = BitVec.twoPow 32 7 := by decide

theorem test_rxnemp (isr : BitVec 32) : test isr xcanIxrRxnempMask = isr.getLsbD 7 := by
  rw [rxnemp_eq, test_twoPow isr (by decide)]

/-- RXNEMP says whether there is a frame to read. -/
def Consistent (s : Rx) : Prop := test s.isrReg xcanIxrRxnempMask = true ↔ s.fifo ≠ []

theorem consistent_of_raise (h : s.fifo = [] → test s.isrReg xcanIxrRxnempMask = false) :
    Consistent s.raiseRxnemp := by
  unfold Consistent raiseRxnemp
  by_cases hf : s.fifo = []
  · simp [hf, h hf]
  · rw [if_neg hf, test_rxnemp]
    simp [hf, rxnemp_eq]

theorem Consistent.elapse (h : Consistent s) : Consistent (s.elapse env) := by
  refine consistent_of_raise fun hf => ?_
  obtain ⟨hs, hnone⟩ := List.append_eq_nil_iff.mp hf
  have hold : test s.isrReg xcanIxrRxnempMask = false := by
    by_contra hc
    exact h.mp (by simpa using hc) hs
  rw [test_rxnemp] at hold ⊢
  have hraised : (env.raised s.accesses &&& ~~~xcanIxrRxnempMask).getLsbD 7 = false := by
    rw [rxnemp_eq]
    simp
  rw [if_pos hnone, BitVec.getLsbD_or, BitVec.getLsbD_or, hold, hraised]
  rfl

/-- Clearing RXNEMP leaves it set exactly if there are frames left. -/
theorem consistent_of_clear (env : Env) (s : Rx) :
    Consistent (s.writeIcr env xcanIxrRxnempMask) := by
  refine consistent_of_raise fun _ => ?_
  rw [test_rxnemp]
  simp [rxnemp_eq]

theorem Consistent.readIsr (h : Consistent s) :
    Consistent (s.readIsr env) ∧ (s.readIsr env).isr = (s.readIsr env).isrReg :=
  ⟨h.elapse, rfl⟩

/-! ### One turn of the loop -/

/-- A turn ends with a fresh look at a consistent flag. -/
theorem pollOnce_consistent (env : Env) (s : Rx) :
    Consistent (s.pollOnce env) ∧ (s.pollOnce env).isr = (s.pollOnce env).isrReg :=
  (consistent_of_clear env _).readIsr

/-- With a frame at the head, its four words are read and it is removed. -/
theorem readFrame_of_cons (env : Env) {w : FifoWords} {rest : List FifoWords}
    (hs : s.fifo = w :: rest) :
    ∃ rest' u, Arrives s u ∧ u.fifo = w :: rest' ∧ (s.readFrame env).1 = w ∧
      (s.readFrame env).2.2 = { u with fifo := rest', removed := s.removed ++ [w] } := by
  have h₁ := elapse_arrives env s
  obtain ⟨r₁, hf₁⟩ := h₁.head hs
  have h₂ := elapse_arrives env (s.elapse env)
  obtain ⟨r₂, hf₂⟩ := h₂.head hf₁
  unfold readFrame
  simp only [readFifo_of_cons _ hs, readFifo_of_cons _ hf₁]
  generalize (s.elapse env).elapse env = a at h₂ hf₂ ⊢
  generalize (xcanTimestamp2ktime a.factors a.refTimepoint (env.ktimeGet a.accesses)
    (xcanGetTimestamp w.dlc)).1 = ref
  have h₃ : Arrives a { a with refTimepoint := ref } :=
    ⟨⟨[], by simp, by simp⟩, rfl, rfl, rfl, rfl, rfl, rfl⟩
  obtain ⟨r₃, hf₃⟩ := h₃.head hf₂
  simp only [readFifo_of_cons _ hf₃]
  have h₄ := elapse_arrives env { a with refTimepoint := ref }
  obtain ⟨r₄, hf₄⟩ := h₄.head hf₃
  obtain ⟨r₅, hf₅, hread⟩ := readDw2_of_cons env hf₄
  have hall := (((h₁.trans h₂).trans h₃).trans h₄)
  refine ⟨r₅, _, hall.trans (elapse_arrives env _), hf₅, ?_, ?_⟩
  · rw [hread]
  · rw [hread, hall.removed]

theorem readFifo_allocs (word : FifoWords → BitVec 32) (s : Rx) :
    (s.readFifo env word).2.allocs = s.allocs := by
  unfold readFifo
  cases hf : (s.elapse env).fifo <;> simp only [hf] <;> exact (elapse_arrives env s).allocs

theorem readFrame_allocs (s : Rx) : (s.readFrame env).2.2.allocs = s.allocs := by
  have hread2 : ∀ b : Rx, (b.readDw2 env).2.allocs = b.allocs := by
    intro b
    unfold readDw2
    cases hf : (b.elapse env).fifo <;> simp only [hf] <;> exact (elapse_arrives env b).allocs
  simp only [readFrame, hread2, readFifo_allocs]

theorem xcanRx_allocs (s : Rx) : (s.xcanRx env).allocs = s.allocs + 1 := by
  unfold xcanRx
  by_cases hok : env.alloc s.allocs = true
  · rw [if_pos hok]
    exact readFrame_allocs _
  · rw [if_neg hok]

theorem pollOnce_eq (env : Env) (s : Rx) : s.pollOnce env
    = (((s.writeIcr env xcanIxrRxokMask).xcanRx env).writeIcr env xcanIxrRxnempMask).readIsr env :=
  rfl

theorem pollOnce_allocs (env : Env) (s : Rx) :
    (s.pollOnce env).allocs = s.allocs + 1 := by
  rw [pollOnce_eq, (readIsr_arrives env _).allocs, (writeIcr_arrives env _ _).allocs,
    xcanRx_allocs, (writeIcr_arrives env _ _).allocs]

/-- A frame has been counted as dropped and is where it was. -/
structure Refuses (s t : Rx) : Prop where
  removed : t.removed = s.removed
  received : t.received = s.received
  rxDropped : t.rxDropped = s.rxDropped + 1
  workDone : t.workDone = s.workDone

/-- The frame `w` at the head has been taken and passed on; others may have arrived. -/
structure Delivers (w : FifoWords) (s t : Rx) : Prop where
  queue : ∃ rest new, s.fifo = w :: rest ∧ t.fifo = rest ++ new ∧ t.arrived = s.arrived ++ new
  removed : t.removed = s.removed ++ [w]
  received : ∃ skb, skb.frame = rxFrame w ∧ t.received = s.received ++ [skb]
  rxDropped : t.rxDropped = s.rxDropped
  workDone : t.workDone = s.workDone + 1
  underruns : t.underruns = s.underruns

theorem Delivers.after {w : FifoWords} {rest : List FifoWords} (h : Arrives s t)
    (h' : Delivers w t u) (hs : s.fifo = w :: rest) : Delivers w s u := by
  obtain ⟨a, hf, ha⟩ := h.new
  obtain ⟨rest', b, ht, hu, hb⟩ := h'.queue
  obtain ⟨skb, hskb, hreceived⟩ := h'.received
  have hrest : rest' = rest ++ a := by
    rw [hf, hs, List.cons_append] at ht
    exact (List.cons.inj ht).2.symm
  refine ⟨⟨rest, a ++ b, hs, ?_, ?_⟩, ?_, ⟨skb, hskb, ?_⟩, ?_, ?_, ?_⟩
  · rw [hu, hrest, List.append_assoc]
  · rw [hb, ha, List.append_assoc]
  · rw [h'.removed, h.removed]
  · rw [hreceived, h.received]
  · rw [h'.rxDropped, h.rxDropped]
  · rw [h'.workDone, h.workDone]
  · rw [h'.underruns, h.underruns]

theorem Delivers.before {w : FifoWords} (h : Delivers w s t) (h' : Arrives t u) :
    Delivers w s u := by
  obtain ⟨rest, a, hs, ht, ha⟩ := h.queue
  obtain ⟨b, hu, hb⟩ := h'.new
  obtain ⟨skb, hskb, hreceived⟩ := h.received
  refine ⟨⟨rest, a ++ b, hs, ?_, ?_⟩, ?_, ⟨skb, hskb, ?_⟩, ?_, ?_, ?_⟩
  · rw [hu, ht, List.append_assoc]
  · rw [hb, ha, List.append_assoc]
  · rw [h'.removed, h.removed]
  · rw [h'.received, hreceived]
  · rw [h'.rxDropped, h.rxDropped]
  · rw [h'.workDone, h.workDone]
  · rw [h'.underruns, h.underruns]

theorem xcanRx_of_granted (env : Env) {w : FifoWords} {rest : List FifoWords}
    (hs : s.fifo = w :: rest)
    (ha : env.alloc s.allocs = true) : Delivers w s (s.xcanRx env) := by
  obtain ⟨rest', u, hu, hfu, hw, hread⟩ :=
    readFrame_of_cons env (s := { s with allocs := s.allocs + 1 }) hs
  have hrx : ∃ skb, skb.frame = rxFrame w ∧ s.xcanRx env =
      netifReceiveSkb skb { u with fifo := rest', removed := s.removed ++ [w] } := by
    unfold xcanRx
    rw [if_pos ha]
    simp only [hw, hread]
    exact ⟨_, rfl, rfl⟩
  obtain ⟨skb, hskb, hrx⟩ := hrx
  obtain ⟨new, hf, harr⟩ := hu.new
  have hrest : rest' = rest ++ new := by
    rw [hfu] at hf
    simp only [hs, List.cons_append, List.cons.injEq, true_and] at hf
    exact hf
  rw [hrx]
  refine ⟨⟨rest, new, hs, hrest, harr⟩, rfl, ⟨skb, hskb, ?_⟩, hu.rxDropped, ?_, hu.underruns⟩
  · show u.received ++ [skb] = _
    rw [hu.received]
  · show u.workDone + 1 = _
    rw [hu.workDone]

/-- Without memory nothing is taken from the FIFO. -/
theorem pollOnce_of_failed (env : Env) (ha : env.alloc s.allocs = false) :
    Refuses s (s.pollOnce env) := by
  have hfirst := writeIcr_arrives env xcanIxrRxokMask s
  have hlast := (writeIcr_arrives env xcanIxrRxnempMask
    ((s.writeIcr env xcanIxrRxokMask).xcanRx env)).trans (readIsr_arrives env _)
  rw [← pollOnce_eq] at hlast
  have hrx : Refuses (s.writeIcr env xcanIxrRxokMask)
      ((s.writeIcr env xcanIxrRxokMask).xcanRx env) := by
    unfold xcanRx
    rw [hfirst.allocs, ha, if_neg (by simp)]
    exact ⟨rfl, rfl, rfl, rfl⟩
  refine ⟨?_, ?_, ?_, ?_⟩
  · rw [hlast.removed, hrx.removed, hfirst.removed]
  · rw [hlast.received, hrx.received, hfirst.received]
  · rw [hlast.rxDropped, hrx.rxDropped, hfirst.rxDropped]
  · rw [hlast.workDone, hrx.workDone, hfirst.workDone]

/-- With memory the frame at the head is taken and passed on. -/
theorem pollOnce_of_granted (env : Env) {w : FifoWords} {rest : List FifoWords}
    (hs : s.fifo = w :: rest)
    (ha : env.alloc s.allocs = true) : Delivers w s (s.pollOnce env) := by
  have hfirst := writeIcr_arrives env xcanIxrRxokMask s
  obtain ⟨rest', hf⟩ := hfirst.head hs
  have hrx := xcanRx_of_granted env hf (hfirst.allocs ▸ ha)
  rw [pollOnce_eq]
  exact (hrx.after hfirst hs).before
    ((writeIcr_arrives env _ _).trans (readIsr_arrives env _))

/-! ### The loop -/

section Loop

variable (env : Env) (quota : Nat) (s : Rx)

/-- The state at the loop's test number `n`, if the loop gets that far. -/
def atTest (n : Nat) : Rx := (pollOnce env)^[n] (s.pollStart env)

/-- The loop makes at least `n` turns. -/
def Turns (n : Nat) : Prop := ∀ k < n, (s.atTest env k).polls quota = true

/-- The loop makes `n` turns and ends. -/
def Ends (n : Nat) : Prop := Turns env quota s n ∧ (s.atTest env n).polls quota = false

/-- What a poll of the FIFO should do. -/
structure LosesNothing : Prop where
  /-- Each turn takes one frame, and passes it on or counts it as dropped. -/
  takesOne : ∀ n, Turns env quota s (n + 1) →
    ∃ w, (s.atTest env (n + 1)).removed = (s.atTest env n).removed ++ [w] ∧
      ((∃ skb, skb.frame = rxFrame w ∧
          (s.atTest env (n + 1)).received = (s.atTest env n).received ++ [skb] ∧
          (s.atTest env (n + 1)).rxDropped = (s.atTest env n).rxDropped) ∨
        ((s.atTest env (n + 1)).received = (s.atTest env n).received ∧
          (s.atTest env (n + 1)).rxDropped = (s.atTest env n).rxDropped + 1))
  /-- Frames are taken in the order of their arrival. -/
  inOrder : ∀ n, Turns env quota s n → s.fifo ++ (s.atTest env n).arrived
    = (s.atTest env n).removed ++ (s.atTest env n).fifo
  neverEmpty : ∀ n, Turns env quota s n → (s.atTest env n).underruns = s.underruns
  /-- The loop ends, within as many turns as there were frames to take. -/
  ends : ∃ n, Ends env quota s n ∧ n ≤ s.fifo.length + (s.atTest env n).arrived.length
  withinQuota : ∀ n, Turns env quota s n →
    (s.atTest env n).received.length ≤ s.received.length + quota
  /-- The last test follows the last read of ISR. -/
  drained : ∀ n, Ends env quota s n → (s.atTest env n).workDone < quota →
    (s.atTest env n).fifo = []

/-- Every call of `alloc_can_skb` the loop makes is granted. -/
def AllGranted : Prop := ∀ n, Turns env quota s (n + 1) → env.alloc (s.allocs + n) = true

theorem atTest_succ (n : Nat) : s.atTest env (n + 1) = (s.atTest env n).pollOnce env :=
  Function.iterate_succ_apply' _ _ _

theorem atTest_allocs (n : Nat) : (s.atTest env n).allocs = s.allocs + n := by
  induction n with
  | zero => exact (readIsr_arrives env _).allocs
  | succ n ih => rw [atTest_succ, pollOnce_allocs, ih, Nat.add_assoc]

theorem pollLoop_eq_some_iff (fuel : Nat) (a t : Rx) :
    a.pollLoop env quota fuel = some t ↔ ∃ n ≤ fuel,
      (∀ k < n, ((pollOnce env)^[k] a).polls quota = true) ∧
        ((pollOnce env)^[n] a).polls quota = false ∧ t = (pollOnce env)^[n] a := by
  have hstop : ∀ (fuel : Nat) (a : Rx), ¬ a.polls quota = true →
      (some a = some t ↔ ∃ n ≤ fuel, (∀ k < n, ((pollOnce env)^[k] a).polls quota = true) ∧
        ((pollOnce env)^[n] a).polls quota = false ∧ t = (pollOnce env)^[n] a) := by
    intro fuel a hp
    refine ⟨fun ht => ⟨0, by omega, by simp, by simpa using hp, (Option.some.inj ht).symm⟩, ?_⟩
    rintro ⟨n, -, hall, -, ht⟩
    cases n with
    | zero => rw [ht]; rfl
    | succ n => exact absurd (hall 0 (by omega)) hp
  induction fuel generalizing a with
  | zero =>
      unfold pollLoop
      by_cases hp : a.polls quota = true
      · rw [if_pos hp]
        refine ⟨fun h => absurd h (by simp), ?_⟩
        rintro ⟨n, hn, -, hend, -⟩
        obtain rfl : n = 0 := by omega
        exact absurd (hp.symm.trans hend) (by simp)
      · rw [if_neg hp]
        exact hstop 0 a hp
  | succ fuel ih =>
      unfold pollLoop
      by_cases hp : a.polls quota = true
      · rw [if_pos hp]
        refine (ih (a.pollOnce env)).trans ⟨?_, ?_⟩
        · rintro ⟨n, hn, hall, hend, ht⟩
          refine ⟨n + 1, by omega, ?_, hend, ht⟩
          intro k hk
          cases k with
          | zero => exact hp
          | succ k => exact hall k (by omega)
        · rintro ⟨n, hn, hall, hend, ht⟩
          cases n with
          | zero => exact absurd (hp.symm.trans hend) (by simp)
          | succ n =>
              exact ⟨n, by omega, fun k hk => hall (k + 1) (by omega), hend, ht⟩
      · rw [if_neg hp]
        exact hstop (fuel + 1) a hp

/-- `xcan_rx_poll` returns what the loop left. -/
theorem xcanRxPoll_eq_some_iff (fuel : Nat) (t : Rx) :
    s.xcanRxPoll env quota fuel = some t ↔
      ∃ n ≤ fuel, Ends env quota s n ∧ t = (s.atTest env n).pollFinish env quota := by
  unfold xcanRxPoll
  rw [Option.map_eq_some_iff]
  simp only [pollLoop_eq_some_iff]
  refine ⟨?_, ?_⟩
  · rintro ⟨_, ⟨n, hn, hall, hend, rfl⟩, rfl⟩
    exact ⟨n, hn, ⟨hall, hend⟩, rfl⟩
  · rintro ⟨n, hn, ⟨hall, hend⟩, rfl⟩
    exact ⟨_, ⟨n, hn, hall, hend, rfl⟩, rfl⟩

/-- The state at test `n` after `n` granted turns. -/
structure Granted (n : Nat) (t : Rx) : Prop where
  flag : Consistent t ∧ t.isr = t.isrReg
  order : s.fifo ++ t.arrived = t.removed ++ t.fifo
  count : t.removed.length = n
  work : t.workDone = n
  quota : n ≤ quota
  received : t.received.length = s.received.length + n
  underruns : t.underruns = s.underruns

variable {env quota s}

theorem granted_start (hs : s.Consistent) : Granted quota s 0 (s.atTest env 0) := by
  have harr := readIsr_arrives env { s with workDone := 0, arrived := [], removed := [] }
  obtain ⟨new, hf, ha⟩ := harr.new
  have hstart : s.atTest env 0
      = { s with workDone := 0, arrived := [], removed := [] }.readIsr env := rfl
  rw [hstart]
  refine ⟨Consistent.readIsr (s := { s with workDone := 0, arrived := [], removed := [] }) hs,
    ?_, ?_, harr.workDone, Nat.zero_le _, ?_, harr.underruns⟩
  · rw [ha, harr.removed, hf]
    rfl
  · rw [harr.removed]
    rfl
  · rw [harr.received]
    rfl

theorem Granted.frame {n : Nat} {t : Rx} (h : Granted quota s n t)
    (hp : t.polls quota = true) : ∃ w rest, t.fifo = w :: rest := by
  simp only [polls, Bool.and_eq_true] at hp
  rw [h.flag.2] at hp
  exact List.exists_cons_of_ne_nil (h.flag.1.mp hp.1)

theorem Granted.next {n : Nat} {t : Rx} {w : FifoWords} (h : Granted quota s n t)
    (hp : t.polls quota = true) (hd : Delivers w t (t.pollOnce env)) :
    Granted quota s (n + 1) (t.pollOnce env) := by
  obtain ⟨rest, new, ht, hf, ha⟩ := hd.queue
  obtain ⟨skb, -, hreceived⟩ := hd.received
  have hquota : t.workDone < quota := by
    simp only [polls, Bool.and_eq_true, decide_eq_true_eq] at hp
    exact hp.2
  refine ⟨pollOnce_consistent env t, ?_, ?_, ?_, ?_, ?_, ?_⟩
  · rw [ha, hd.removed, hf, ← List.append_assoc, h.order, ht]
    simp
  · rw [hd.removed, List.length_append, h.count]
    rfl
  · rw [hd.workDone, h.work]
  · rw [← h.work]
    exact hquota
  · rw [hreceived, List.length_append, h.received]
    rfl
  · rw [hd.underruns, h.underruns]

/-- While allocations are granted, turns are what they should be. -/
theorem granted_of_allGranted (hs : s.Consistent) (hall : AllGranted env quota s) (n : Nat)
    (hn : Turns env quota s n) : Granted quota s n (s.atTest env n) := by
  induction n with
  | zero => exact granted_start hs
  | succ n ih =>
      have hprev := ih fun k hk => hn k (by omega)
      have hp := hn n (by omega)
      obtain ⟨w, rest, hf⟩ := hprev.frame hp
      rw [atTest_succ]
      refine hprev.next hp (pollOnce_of_granted env hf ?_)
      rw [atTest_allocs]
      exact hall n hn

theorem ends_of_allGranted (hs : s.Consistent) (hall : AllGranted env quota s) :
    ∃ n, Ends env quota s n := by
  by_contra hnone
  have hturns : ∀ n, Turns env quota s n := by
    intro n
    induction n with
    | zero => exact fun k hk => absurd hk (by omega)
    | succ n ih =>
        intro k hk
        rcases Nat.lt_or_eq_of_le (Nat.lt_succ_iff.mp hk) with hlt | rfl
        · exact ih k hlt
        · by_contra hp
          exact hnone ⟨k, ih, by simpa using hp⟩
  have := (granted_of_allGranted hs hall _ (hturns (quota + 1))).quota
  omega

end Loop

/-- **A poll of the FIFO takes each frame once, loses none and ends if and only if every
call of `alloc_can_skb` it makes is granted.** -/
theorem rxPoll_losesNothing_iff {env : Env} {quota : Nat} {s : Rx} (hs : s.Consistent) :
    LosesNothing env quota s ↔ AllGranted env quota s := by
  refine ⟨fun h n hn => ?_, fun hall => ⟨fun n hn => ?_, ?_, ?_, ?_, ?_, ?_⟩⟩
  · by_contra hfail
    have hrefused := pollOnce_of_failed env (s := s.atTest env n)
      (by rw [atTest_allocs]; simpa using hfail)
    obtain ⟨w, hremoved, -⟩ := h.takesOne n hn
    rw [atTest_succ, hrefused.removed] at hremoved
    exact absurd hremoved (by simp)
  · have hprev := granted_of_allGranted hs hall n fun k hk => hn k (by omega)
    obtain ⟨w, rest, hf⟩ := hprev.frame (hn n (by omega))
    have hd := pollOnce_of_granted env hf (by rw [atTest_allocs]; exact hall n hn)
    obtain ⟨skb, hskb, hreceived⟩ := hd.received
    rw [atTest_succ]
    exact ⟨w, hd.removed, Or.inl ⟨skb, hskb, hreceived, hd.rxDropped⟩⟩
  · intro n hn
    exact (granted_of_allGranted hs hall n hn).order
  · intro n hn
    exact (granted_of_allGranted hs hall n hn).underruns
  · obtain ⟨n, hn⟩ := ends_of_allGranted hs hall
    have h := granted_of_allGranted hs hall n hn.1
    refine ⟨n, hn, ?_⟩
    have hlen := congrArg List.length h.order
    rw [List.length_append, List.length_append, h.count] at hlen
    omega
  · intro n hn
    have h := granted_of_allGranted hs hall n hn
    rw [h.received]
    exact Nat.add_le_add_left h.quota _
  · intro n hn hleft
    have h := granted_of_allGranted hs hall n hn.1
    by_contra hf
    have hflag := h.flag.1.mpr hf
    have hend := hn.2
    rw [← h.flag.2] at hflag
    simp only [polls, hflag, hleft, Bool.true_and, decide_true] at hend
    exact absurd hend (by simp)

/-! ### A poll with two frames waiting -/

/-- A third frame arrives while the first is being read. -/
def memoryFor (alloc : Nat → Bool) : Env where
  arrivals := fun k =>
    if k = 3 then [{ id := 0x60600000, dlc := 0x10000000, dw1 := 3, dw2 := 0 }] else []
  raised := fun _ => 0#32
  stale := fun _ => 0#32
  alloc := alloc
  ktimeGet := fun k => BitVec.ofNat 64 (k + 1)

def twoWaiting : Rx where
  fifo := [{ id := 0x20200000, dlc := 0x10000000, dw1 := 1, dw2 := 0 },
           { id := 0x40400000, dlc := 0x10000000, dw1 := 2, dw2 := 0 }]
  isrReg := xcanIxrRxnempMask ||| xcanIxrRxokMask
  ierReg := 0#32
  factors := { cantime2nsMul := 50#32, cantime2nsShr := 0#8 }
  refTimepoint := { ktime := 0#64, ts := 0#16 }
  received := []
  rxPackets := 0
  rxBytes := 0
  rxDropped := 0
  napiScheduled := true
  isr := 0#32
  workDone := 0
  accesses := 0
  allocs := 0
  arrived := []
  removed := []
  underruns := 0

theorem twoWaiting_consistent : twoWaiting.Consistent := by
  unfold Consistent
  decide

theorem twoWaiting_losesNothing : LosesNothing (memoryFor fun _ => true) 2 twoWaiting :=
  (rxPoll_losesNothing_iff twoWaiting_consistent).mpr fun _ _ => rfl

/-- Without memory the first turn takes nothing. -/
theorem twoWaiting_refused :
    ¬ ∀ (env : Env) (quota : Nat) (s : Rx), s.Consistent → LosesNothing env quota s := by
  intro hall
  have h := hall (memoryFor fun _ => false) 2 twoWaiting twoWaiting_consistent
  obtain ⟨w, hremoved, -⟩ := h.takesOne 0 fun k hk => by
    obtain rfl : k = 0 := by omega
    decide +kernel
  have hnone : (twoWaiting.atTest (memoryFor fun _ => false) 1).removed = [] := by decide +kernel
  rw [hnone] at hremoved
  exact absurd hremoved (by simp)

end Rx

end CanBench.XilinxCan
