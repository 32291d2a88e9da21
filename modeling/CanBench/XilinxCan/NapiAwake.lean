/-
The receiver does not fall asleep on a frame.

Whoever takes the receive interrupts out of IER leaves somebody behind who puts them back:
the handler that is about to call `napi_schedule`, the poll that is scheduled, or a poll
past `napi_complete`.  `Awake` is that, and of all steps only one can break it, since it
puts the interface to work without looking at IER: `napi_enable`.  So the receiver stays
awake exactly as long as that never finds the interrupts taken out and nobody about to put
them back: `receiver_awake_iff`.

`xcan_open` starts the chip first and enables NAPI then.  A frame that comes in between is
taken by the handler, `napi_schedule` does nothing, and the interrupts stay out.
-/
import CanBench.XilinxCan.Napi
import CanBench.XilinxCan.RxProgress

namespace CanBench.XilinxCan

open Lib

/-! ### What the pieces leave alone -/

namespace Rx

/-- A step of the poll or the controller that does not touch the two flags. -/
structure KeepsGate (s t : Rx) : Prop where
  ierReg : t.ierReg = s.ierReg
  napiScheduled : t.napiScheduled = s.napiScheduled

variable {s t u : Rx} {env : Env}

theorem KeepsGate.trans (h : KeepsGate s t) (h' : KeepsGate t u) : KeepsGate s u :=
  ⟨h'.ierReg.trans h.ierReg, h'.napiScheduled.trans h.napiScheduled⟩

theorem raiseRxnemp_keepsGate (s : Rx) : KeepsGate s s.raiseRxnemp := by
  unfold raiseRxnemp
  by_cases hf : s.fifo = []
  · rw [if_pos hf]
    exact ⟨rfl, rfl⟩
  · rw [if_neg hf]
    exact ⟨rfl, rfl⟩

theorem elapse_keepsGate (env : Env) (s : Rx) : KeepsGate s (s.elapse env) := by
  refine KeepsGate.trans ?_ (raiseRxnemp_keepsGate _)
  exact ⟨rfl, rfl⟩

theorem writeIcr_keepsGate (env : Env) (mask : BitVec 32) (s : Rx) :
    KeepsGate s (s.writeIcr env mask) := by
  refine (elapse_keepsGate env s).trans (KeepsGate.trans ?_ (raiseRxnemp_keepsGate _))
  exact ⟨rfl, rfl⟩

theorem readFifo_keepsGate (word : FifoWords → BitVec 32) (s : Rx) :
    KeepsGate s (s.readFifo env word).2 := by
  unfold readFifo
  rcases hf : (s.elapse env).fifo with _ | ⟨w, rest⟩ <;> simp only [hf] <;>
    exact (elapse_keepsGate env s).trans ⟨rfl, rfl⟩

theorem readDw2_keepsGate (s : Rx) : KeepsGate s (s.readDw2 env).2 := by
  unfold readDw2
  rcases hf : (s.elapse env).fifo with _ | ⟨w, rest⟩ <;> simp only [hf] <;>
    exact (elapse_keepsGate env s).trans ⟨rfl, rfl⟩

theorem readFrame_keepsGate (env : Env) (s : Rx) : KeepsGate s (s.readFrame env).2.2 := by
  refine ⟨?_, ?_⟩
  · simp only [readFrame, (readDw2_keepsGate _).ierReg, (readFifo_keepsGate _ _).ierReg]
  · simp only [readFrame, (readDw2_keepsGate _).napiScheduled,
      (readFifo_keepsGate _ _).napiScheduled]

theorem xcanRx_keepsGate (s : Rx) : KeepsGate s (s.xcanRx env) := by
  unfold xcanRx
  by_cases hok : env.alloc s.allocs = true
  · rw [if_pos hok]
    obtain ⟨hier, hsched⟩ := readFrame_keepsGate env (show Rx from { s with allocs := s.allocs + 1 })
    exact ⟨hier, hsched⟩
  · rw [if_neg hok]
    exact ⟨rfl, rfl⟩

/-! ### The status bit of a frame -/

/-- RXNEMP is up while there are frames. -/
def Announced (s : Rx) : Prop := s.fifo ≠ [] → test s.isrReg xcanIxrRxnempMask = true

theorem announced_raise (s : Rx) : Announced s.raiseRxnemp := by
  unfold Announced raiseRxnemp
  by_cases hf : s.fifo = []
  · simp [hf]
  · rw [if_neg hf, test_rxnemp]
    simp [rxnemp_eq]

theorem announced_elapse (env : Env) (s : Rx) : Announced (s.elapse env) := announced_raise _

theorem announced_writeIcr (env : Env) (mask : BitVec 32) (s : Rx) :
    Announced (s.writeIcr env mask) := announced_raise _

/-- What is left when the frame at the head is removed has been announced with it. -/
theorem announced_readDw2 (s : Rx) : Announced (s.readDw2 env).2 := by
  have hall := announced_elapse env s
  unfold readDw2
  rcases hf : (s.elapse env).fifo with _ | ⟨w, rest⟩ <;> simp only [hf]
  · exact fun hne => absurd rfl hne
  · intro _
    exact hall (by rw [hf]; simp)

theorem announced_xcanRx (h : Announced s) : Announced (s.xcanRx env) := by
  unfold xcanRx
  by_cases hok : env.alloc s.allocs = true
  · rw [if_pos hok]
    have hframe : ∀ t : Rx, Announced (t.readFrame env).2.2 := by
      intro t
      simp only [readFrame]
      exact announced_readDw2 _
    exact hframe (show Rx from { s with allocs := s.allocs + 1 })
  · rw [if_neg hok]
    exact h

end Rx

namespace Receiver

open Rx

variable {env : Env} {quota : Nat} {resetIer : BitVec 32 → BitVec 32} {s : Receiver}

/-- Somebody is about to put the receive interrupts back, or they are in. -/
def relayed (s : Receiver) : Bool :=
  test s.rx.ierReg xcanIxrRxnempMask || !s.tails.isEmpty || decide (s.irq = .schedule)

/-- With the interface at work and the chip on the bus, the interrupts are in, or somebody
will put them back. -/
def Awake (s : Receiver) : Prop :=
  s.napi = .enabled → s.chipOn = true → s.relayed = true ∨ s.rx.napiScheduled = true

/-- The step does not put an interface to work that would sleep. -/
def reenables (s : Receiver) : RxStep → Bool
  | .napiEnable => !s.chipOn || s.relayed
  | _ => true

theorem relayed_of_ier (h : test s.rx.ierReg xcanIxrRxnempMask = true) : s.relayed = true := by
  simp [relayed, h]

/-- A step that leaves NAPI, chip and the poll's flags alone, and from `schedule` does not
move the handler. -/
theorem Awake.of_keeps {t : Receiver} (h : s.Awake) (hnapi : t.napi = s.napi)
    (hchip : t.chipOn = s.chipOn) (hgate : KeepsGate s.rx t.rx)
    (htails : s.tails ≠ [] → t.tails ≠ []) (hirq : s.irq = .schedule → t.irq = .schedule) :
    t.Awake := by
  intro hn hc
  rw [hnapi] at hn
  rw [hchip] at hc
  rcases h hn hc with hrelay | hsched
  · left
    unfold relayed at hrelay ⊢
    rw [Bool.or_eq_true, Bool.or_eq_true] at hrelay ⊢
    rcases hrelay with (hier | htail) | hpc
    · left
      left
      rw [hgate.ierReg]
      exact hier
    · left
      right
      simpa using htails (by simpa using htail)
    · right
      simpa using hirq (by simpa using hpc)
  · right
    rw [hgate.napiScheduled]
    exact hsched

/-- The handler clears its other causes by writes to ICR alone. -/
theorem clearCauses_keeps {Q : Rx → Prop} (hkeeps : ∀ mask rx, Q rx → Q (rx.writeIcr env mask))
    (echoes : Nat) (isr : BitVec 32) {rx : Rx} (h : Q rx) : Q (clearCauses env echoes isr rx) := by
  have hclear : ∀ (cond : Bool) (mask : BitVec 32) (rx : Rx), Q rx →
      Q (if cond then rx.writeIcr env mask else rx) := by
    intro cond mask rx hrx
    cases cond with
    | false => exact hrx
    | true => exact hkeeps mask rx hrx
  have hloop : ∀ (n : Nat) (rx : Rx), Q rx →
      Q ((fun rx => rx.writeIcr env xcanIxrTxokMask)^[n] rx) := by
    intro n
    induction n with
    | zero => exact fun rx hrx => hrx
    | succ n ih =>
        intro rx hrx
        rw [Function.iterate_succ_apply]
        exact ih _ (hkeeps _ rx hrx)
  have htx : ∀ rx : Rx, Q rx → Q (if test isr xcanIxrTxokMask then
      (fun rx => rx.writeIcr env xcanIxrTxokMask)^[echoes] rx else rx) := by
    intro rx hrx
    cases test isr xcanIxrTxokMask with
    | false => exact hrx
    | true => exact hloop echoes rx hrx
  exact hclear _ _ _ (htx _ (hclear _ _ rx h))

theorem clearCauses_keepsGate (echoes : Nat) (isr : BitVec 32) (rx : Rx) :
    KeepsGate rx (clearCauses env echoes isr rx) :=
  clearCauses_keeps (Q := KeepsGate rx) (fun mask t h => h.trans (writeIcr_keepsGate env mask t))
    echoes isr ⟨rfl, rfl⟩

/-- Off the bus there is nothing to sleep on. -/
theorem awake_of_off (h : s.chipOn = false) : s.Awake := by
  intro _ hc
  rw [h] at hc
  exact absurd hc (by simp)

theorem awake_of_napi (h : s.napi ≠ .enabled) : s.Awake := fun hn => absurd hn h

/-- One step of the handler. -/
theorem Awake.irqStep (h : s.Awake) (echoes : Nat) : (s.irqStep env resetIer echoes).Awake := by
  rcases hpc : s.irq with _ | _ | isr | _ | ier | _
  · simp only [Receiver.irqStep, hpc]
    exact h.of_keeps rfl rfl ⟨rfl, rfl⟩ id (by simp [hpc])
  · simp only [Receiver.irqStep, hpc]
    exact h.of_keeps rfl rfl (elapse_keepsGate env s.rx) id (by simp [hpc])
  · simp only [Receiver.irqStep, hpc]
    rcases Bool.eq_false_or_eq_true (test isr (xcanIxrBsoffMask ||| xcanIxrRxoflwMask)) with hr | hr
    · rw [if_pos hr]
      exact awake_of_off rfl
    · rw [if_neg (by simp [hr])]
      exact h.of_keeps rfl rfl (clearCauses_keepsGate echoes isr s.rx) id (by simp [hpc])
  · simp only [Receiver.irqStep, hpc]
    exact h.of_keeps rfl rfl (elapse_keepsGate env s.rx) id (by simp [hpc])
  · simp only [Receiver.irqStep, hpc]
    exact fun _ _ => Or.inl (by simp [relayed])
  · simp only [Receiver.irqStep, hpc]
    intro hn _
    have hn' : s.napi = .enabled := hn
    right
    simp [hn']

/-- One step of the poll: what it gives up it hands to its tail. -/
theorem Awake.pollStep (h : s.Awake) (again : Bool) : (s.pollStep env quota again).Awake := by
  rcases hpc : s.poll with _ | _ | _ | _ | _ | _
  · simp only [Receiver.pollStep, hpc]
    exact h.of_keeps rfl rfl ⟨rfl, rfl⟩ id id
  · simp only [Receiver.pollStep, hpc]
    exact h.of_keeps rfl rfl ((elapse_keepsGate env s.rx).trans ⟨rfl, rfl⟩) id id
  · simp only [Receiver.pollStep, hpc]
    by_cases hpolls : s.rx.polls quota = true
    · rw [if_pos hpolls]
      exact h.of_keeps rfl rfl ⟨rfl, rfl⟩ id id
    · rw [if_neg hpolls]
      by_cases hleft : s.rx.workDone < quota
      · rw [if_pos hleft]
        exact fun _ _ => Or.inl (by simp [relayed])
      · rw [if_neg hleft]
        exact h.of_keeps rfl rfl ⟨rfl, rfl⟩ id id
  · simp only [Receiver.pollStep, hpc]
    exact h.of_keeps rfl rfl (writeIcr_keepsGate env _ s.rx) id id
  · simp only [Receiver.pollStep, hpc]
    exact h.of_keeps rfl rfl (xcanRx_keepsGate s.rx) id id
  · simp only [Receiver.pollStep, hpc]
    exact h.of_keeps rfl rfl (writeIcr_keepsGate env _ s.rx) id id

theorem test_or_rxnemp (ier : BitVec 32) :
    test (ier ||| (xcanIxrRxokMask ||| xcanIxrRxnempMask)) xcanIxrRxnempMask = true := by
  rw [test_rxnemp, BitVec.getLsbD_or, BitVec.getLsbD_or, rxnemp_eq]
  simp

theorem Awake.tailStep (h : s.Awake) (k : Nat) : (s.tailStep env k).Awake := by
  rcases hk : s.tails[k]? with _ | _ | ier
  · simp only [Receiver.tailStep, hk]
    exact h
  · simp only [Receiver.tailStep, hk]
    exact h.of_keeps rfl rfl (elapse_keepsGate env s.rx) (by simp) id
  · simp only [Receiver.tailStep, hk]
    exact fun _ _ => Or.inl (relayed_of_ier (test_or_rxnemp ier))

/-- Every step but two keeps the receiver awake, and those two say when they do. -/
theorem Awake.step (h : s.Awake) {a : RxStep} (ok : s.allows a = true)
    (hgood : s.reenables a = true) : (s.step env quota resetIer a).Awake := by
  rcases a with _ | echoes | again | k | _ | _ | _ | _ | _ | _ | _ | _
  · exact h.of_keeps rfl rfl (elapse_keepsGate env s.rx) id id
  · exact h.irqStep echoes
  · exact h.pollStep again
  · exact h.tailStep k
  · exact awake_of_off rfl
  · intro _ _
    left
    refine relayed_of_ier ?_
    show test xcanIntrAll xcanIxrRxnempMask = true
    decide
  · show s.startFails.Awake
    unfold startFails
    by_cases hp : s.process = .restarting
    · rw [if_pos hp]
      exact h.of_keeps rfl rfl ⟨rfl, rfl⟩ id id
    · rw [if_neg hp]
      exact awake_of_off rfl
  · intro _ hc
    have hc' : s.chipOn = true := hc
    left
    show s.relayed = true
    simpa [reenables, hc'] using hgood
  · exact awake_of_napi (by simp [Receiver.step])
  · exact awake_of_napi (by simp [Receiver.step])
  · exact awake_of_off rfl
  · exact h.of_keeps rfl rfl ⟨rfl, rfl⟩ id id

theorem not_awake_step {a : RxStep} (hbad : s.reenables a = false) :
    ¬ (s.step env quota resetIer a).Awake := by
  intro hawake
  rcases a with _ | echoes | again | k | _ | _ | _ | _ | _ | _ | _ | _
  case napiEnable =>
    simp only [reenables, Bool.or_eq_false_iff, Bool.not_eq_false'] at hbad
    rcases hawake rfl hbad.1 with h | h
    · have hrelay : s.relayed = true := h
      exact absurd hrelay (by simp [hbad.2])
    · exact absurd h (by simp [Receiver.step])
  all_goals exact absurd hbad (by simp [reenables])

/-! ### Somebody to look after a frame -/

/-- RXNEMP is up while there are frames, and NAPI is enabled only while the interface is
open. -/
structure Placed (s : Receiver) : Prop where
  announced : Announced s.rx
  opened : s.napi = .enabled → s.process = .up ∨ s.process = .restarting

theorem announced_clearCauses (echoes : Nat) (isr : BitVec 32) {rx : Rx} (h : Announced rx) :
    Announced (clearCauses env echoes isr rx) :=
  clearCauses_keeps (Q := Announced) (fun mask t _ => announced_writeIcr env mask t) echoes isr h

/-- The handler and the polls do not open or close. -/
theorem irqStep_napi (env : Env) (resetIer : BitVec 32 → BitVec 32) (s : Receiver)
    (echoes : Nat) : (s.irqStep env resetIer echoes).napi = s.napi ∧
    (s.irqStep env resetIer echoes).process = s.process := by
  unfold Receiver.irqStep
  rcases hpc : s.irq with _ | _ | isr | _ | ier | _
  case causes =>
    rcases Bool.eq_false_or_eq_true (test isr (xcanIxrBsoffMask ||| xcanIxrRxoflwMask)) with h | h
    · simp only [h, if_true]
      exact ⟨rfl, rfl⟩
    · simp only [h]
      exact ⟨rfl, rfl⟩
  all_goals exact ⟨rfl, rfl⟩

theorem Placed.irqStep (h : s.Placed) (echoes : Nat) : (s.irqStep env resetIer echoes).Placed := by
  obtain ⟨hnapi, hproc⟩ := irqStep_napi env resetIer s echoes
  refine ⟨?_, ?_⟩
  · rcases hpc : s.irq with _ | _ | isr | _ | ier | _
    · simp only [Receiver.irqStep, hpc]
      exact h.announced
    · simp only [Receiver.irqStep, hpc]
      exact announced_elapse env s.rx
    · simp only [Receiver.irqStep, hpc]
      rcases Bool.eq_false_or_eq_true (test isr (xcanIxrBsoffMask ||| xcanIxrRxoflwMask)) with
        hr | hr
      · rw [if_pos hr]
        exact fun hf => absurd rfl hf
      · rw [if_neg (by simp [hr])]
        exact announced_clearCauses echoes isr h.announced
    · simp only [Receiver.irqStep, hpc]
      exact announced_elapse env s.rx
    · simp only [Receiver.irqStep, hpc]
      exact announced_elapse env s.rx
    · simp only [Receiver.irqStep, hpc]
      by_cases hn : s.napi = .enabled
      · rw [if_pos hn]
        exact h.announced
      · rw [if_neg hn]
        exact h.announced
  · rw [hnapi, hproc]
    exact h.opened

theorem Placed.pollStep (h : s.Placed) (again : Bool) : (s.pollStep env quota again).Placed := by
  rcases hpc : s.poll with _ | _ | _ | _ | _ | _
  · simp only [Receiver.pollStep, hpc]
    exact ⟨h.announced, h.opened⟩
  · simp only [Receiver.pollStep, hpc]
    exact ⟨announced_elapse env s.rx, h.opened⟩
  · simp only [Receiver.pollStep, hpc]
    by_cases hpolls : s.rx.polls quota = true
    · rw [if_pos hpolls]
      exact ⟨h.announced, h.opened⟩
    · rw [if_neg hpolls]
      by_cases hleft : s.rx.workDone < quota
      · rw [if_pos hleft]
        exact ⟨h.announced, h.opened⟩
      · rw [if_neg hleft]
        exact ⟨h.announced, h.opened⟩
  · simp only [Receiver.pollStep, hpc]
    exact ⟨announced_writeIcr env _ s.rx, h.opened⟩
  · simp only [Receiver.pollStep, hpc]
    exact ⟨announced_xcanRx h.announced, h.opened⟩
  · simp only [Receiver.pollStep, hpc]
    exact ⟨announced_writeIcr env _ s.rx, h.opened⟩

theorem Placed.tailStep (h : s.Placed) (k : Nat) : (s.tailStep env k).Placed := by
  rcases hk : s.tails[k]? with _ | _ | ier
  · simp only [Receiver.tailStep, hk]
    exact h
  · simp only [Receiver.tailStep, hk]
    exact ⟨announced_elapse env s.rx, h.opened⟩
  · simp only [Receiver.tailStep, hk]
    exact ⟨announced_elapse env s.rx, h.opened⟩

theorem Placed.step (h : s.Placed) {a : RxStep} (ok : s.allows a = true) :
    (s.step env quota resetIer a).Placed := by
  rcases a with _ | echoes | again | k | _ | _ | _ | _ | _ | _ | _ | _
  · exact ⟨announced_elapse env s.rx, h.opened⟩
  · exact h.irqStep echoes
  · exact h.pollStep again
  · exact h.tailStep k
  · refine ⟨fun hf => absurd rfl hf, ?_⟩
    intro hn
    rcases h.opened hn with hp | hp
    · right
      simp [Receiver.step, hp]
    · simp [allows, hp] at ok
  · refine ⟨announced_elapse env s.rx, ?_⟩
    intro hn
    rcases h.opened hn with hp | hp
    · simp [allows, hp] at ok
    · left
      simp [Receiver.step, Receiver.chipEnable, hp]
  · show s.startFails.Placed
    unfold startFails
    by_cases hp : s.process = .restarting
    · rw [if_pos hp]
      exact ⟨h.announced, fun _ => Or.inl rfl⟩
    · rw [if_neg hp]
      refine ⟨h.announced, ?_⟩
      intro hn
      rcases h.opened hn with hup | hre
      · simp [allows, hup] at ok
      · exact absurd hre hp
  · exact ⟨h.announced, fun _ => Or.inl rfl⟩
  · exact ⟨h.announced, fun hn => absurd hn (by simp [Receiver.step])⟩
  · exact ⟨h.announced, fun hn => absurd hn (by simp [Receiver.step])⟩
  · refine ⟨fun hf => absurd rfl hf, ?_⟩
    intro hn
    simp only [allows, decide_eq_true_eq] at ok
    have hn' : s.napi = .enabled := hn
    rw [ok.2] at hn'
    exact absurd hn' (by simp)
  · refine ⟨h.announced, ?_⟩
    intro hn
    simp only [allows, decide_eq_true_eq] at ok
    rcases h.opened hn with hp | hp <;> rw [ok.1] at hp <;> exact absurd hp (by simp)

/-- With a frame waiting, an awake receiver has somebody who can go on. -/
theorem Awake.attended (h : s.Awake) (hp : s.Placed) (hn : s.napi = .enabled)
    (hc : s.chipOn = true) (hf : s.rx.fifo ≠ []) :
    ∃ a ∈ [RxStep.irq 0, RxStep.poll false, RxStep.tail 0], s.allows a = true := by
  have hup : decide (s.process ≠ .down) = true := by
    rcases hp.opened hn with h | h <;> rw [h] <;> rfl
  rcases h hn hc with hrelay | hsched
  · unfold relayed at hrelay
    rw [Bool.or_eq_true, Bool.or_eq_true] at hrelay
    rcases hrelay with (hier | htail) | hpc
    · refine ⟨.irq 0, by simp, ?_⟩
      -- both the status bit and its enable are set, so the line is up
      have hline : s.line = true := by
        have hisr := hp.announced hf
        rw [test_rxnemp] at hier hisr
        rw [line, bne_iff_ne]
        intro hzero
        have hbit := congrArg (fun w => w.getLsbD 7) hzero
        rw [BitVec.getLsbD_and, hisr, hier] at hbit
        exact absurd hbit (by simp)
      show (decide (s.irq ≠ .idle) || (s.line && decide (s.process ≠ .down))) = true
      rw [hline, hup]
      simp
    · refine ⟨.tail 0, by simp, ?_⟩
      have hlen : 0 < s.tails.length := List.length_pos_iff.mpr (by simpa using htail)
      simpa [allows] using hlen
    · refine ⟨.irq 0, by simp, ?_⟩
      have hirq : s.irq = .schedule := by simpa using hpc
      simp [allows, hirq]
  · refine ⟨.poll false, by simp, ?_⟩
    simp [allows, hsched, hn]

end Receiver

/-! ### A poll that nobody disturbs -/

namespace Receiver

variable {env : Env} {quota : Nat} {resetIer : BitVec 32 → BitVec 32}

/-- One turn of the `while`. -/
theorem pollOnce_steps {s : Receiver} (hpoll : s.poll = .test) (ht : s.rx.polls quota = true) :
    (rxSystem env quota resetIer).runFrom s (List.replicate 5 (.poll false))
      = { s with rx := s.rx.pollOnce env } := by
  obtain ⟨rx, chipOn, napi, irq, poll, tails, process⟩ := s
  obtain rfl : poll = .test := hpoll
  have hfirst : (rxSystem env quota resetIer).next
      ⟨rx, chipOn, napi, irq, .test, tails, process⟩ (.poll false)
      = ⟨rx, chipOn, napi, irq, .rxok, tails, process⟩ := if_pos ht
  show (rxSystem env quota resetIer).runFrom ((rxSystem env quota resetIer).next _ _) _ = _
  rw [hfirst]
  rfl

theorem pollLoop_steps (resetIer : BitVec 32 → BitVec 32) (fuel : Nat) :
    ∀ {s : Receiver} {t : Rx}, s.poll = .test → Rx.pollLoop env quota fuel s.rx = some t →
      t.polls quota = false ∧ ∃ n, (rxSystem env quota resetIer).runFrom s
        (List.replicate n (.poll false)) = { s with rx := t } := by
  induction fuel with
  | zero =>
      intro s t _ hloop
      unfold Rx.pollLoop at hloop
      rcases hpolls : s.rx.polls quota with _ | _
      · rw [hpolls] at hloop
        obtain rfl : s.rx = t := by simpa using hloop
        exact ⟨hpolls, 0, rfl⟩
      · simp [hpolls] at hloop
  | succ fuel ih =>
      intro s t hpoll hloop
      unfold Rx.pollLoop at hloop
      rcases hpolls : s.rx.polls quota with _ | _
      · rw [hpolls] at hloop
        obtain rfl : s.rx = t := by simpa using hloop
        exact ⟨hpolls, 0, rfl⟩
      · rw [if_pos hpolls] at hloop
        obtain ⟨hend, n, hrun⟩ := ih (s := { s with rx := s.rx.pollOnce env }) hpoll hloop
        refine ⟨hend, 5 + n, ?_⟩
        rw [List.replicate_add, System.runFrom_append, pollOnce_steps hpoll hpolls, hrun]

/-- Cut into steps and left alone, the poll is `xcan_rx_poll`. -/
theorem poll_alone {s : Receiver} {fuel : Nat} {t : Rx} (hidle : s.poll = .idle)
    (htails : s.tails = []) (hpoll : Rx.xcanRxPoll env quota fuel s.rx = some t) :
    ∃ l : List RxStep, (∀ a ∈ l, a = .poll false ∨ a = .tail 0) ∧
      (rxSystem env quota resetIer).runFrom s l = { s with rx := t } := by
  obtain ⟨u, hloop, rfl⟩ := Option.map_eq_some_iff.mp hpoll
  obtain ⟨hend, n, hrun⟩ := pollLoop_steps resetIer fuel
    (s := { s with rx := s.rx.pollStart env, poll := .test }) rfl hloop
  have hstart : (rxSystem env quota resetIer).runFrom s (List.replicate 2 (.poll false))
      = { s with rx := s.rx.pollStart env, poll := .test } := by
    obtain ⟨rx, chipOn, napi, irq, poll, tails, process⟩ := s
    obtain rfl : poll = .idle := hidle
    rfl
  by_cases hleft : u.workDone < quota
  · refine ⟨List.replicate 2 (.poll false) ++ List.replicate n (.poll false)
      ++ [.poll false, .tail 0, .tail 0], ?_, ?_⟩
    · intro a ha
      simp only [List.mem_append, List.mem_replicate, List.mem_cons, List.not_mem_nil,
        or_false] at ha
      tauto
    · rw [System.runFrom_append, System.runFrom_append, hstart, hrun]
      have hdone : (rxSystem env quota resetIer).next { s with rx := u, poll := .test }
          (.poll false) = { s with
            rx := { u with napiScheduled := false }, poll := .idle, tails := [none] } := by
        show Receiver.pollStep env quota false { s with rx := u, poll := .test } = _
        simp only [Receiver.pollStep, hend, hleft, htails]
        rfl
      show (rxSystem env quota resetIer).runFrom ((rxSystem env quota resetIer).next
        { s with rx := u, poll := .test } (.poll false)) [.tail 0, .tail 0] = _
      rw [hdone, Rx.pollFinish, if_pos hleft]
      obtain ⟨rx, chipOn, napi, irq, poll, tails, process⟩ := s
      obtain rfl : poll = .idle := hidle
      obtain rfl : tails = [] := htails
      rfl
  · refine ⟨List.replicate 2 (.poll false) ++ List.replicate n (.poll false) ++ [.poll false],
      ?_, ?_⟩
    · intro a ha
      simp only [List.mem_append, List.mem_replicate, List.mem_cons, List.not_mem_nil,
        or_false] at ha
      tauto
    · rw [System.runFrom_append, System.runFrom_append, hstart, hrun]
      show Receiver.pollStep env quota false { s with rx := u, poll := .test } = _
      rw [Rx.pollFinish, if_neg hleft]
      simp only [Receiver.pollStep, hend, hleft, hidle]
      rfl

end Receiver

/-! ### Along a run -/

section Runs

variable {env : Env} {quota : Nat} {resetIer : BitVec 32 → BitVec 32}
  {h : List (Receiver × RxStep)} {s : Receiver}

theorem placed_run (r : Run (rxSystem env quota resetIer) h s) : s.Placed := by
  refine r.invariant ?_ ?_
  · intro x hx
    obtain ⟨-, hn, -, -, -, hf, -⟩ := hx
    exact ⟨fun hne => absurd hf hne, fun h => absurd (hn.symm.trans h) (by simp)⟩
  · intro x a hx ok
    exact hx.step ok

/--
**The receiver stays awake unless it is put to work asleep.**  In every interleaving of the
handler, the polls, the controller and opening, closing and restarting: whenever the
interface is at work the receive interrupt is enabled or somebody is about to see to it, if
and only if this is so each time NAPI is enabled.  As long as it is, with a frame in the FIFO
the handler, a poll or the tail of one can go on.
-/
theorem receiver_awake_iff (r : Run (rxSystem env quota resetIer) h s) :
    ((∀ x, Visits h s x → x.Awake) ↔ ∀ e ∈ h, e.1.reenables e.2 = true) ∧
    ∀ x, Visits h s x → x.Awake → x.napi = .enabled → x.chipOn = true → x.rx.fifo ≠ [] →
      ∃ a ∈ [RxStep.irq 0, RxStep.poll false, RxStep.tail 0], x.allows a = true := by
  refine ⟨?_, ?_⟩
  · refine r.exact (J := Receiver.Awake) (P := Receiver.Awake)
      (G := fun x a => x.reenables a = true) ?_ ?_ (fun _ hx => hx) ?_
    · intro x hx
      exact Receiver.awake_of_off hx.2.2.2.2.2.2
    · intro x a hx ok hgood
      exact hx.step ok hgood
    · intro x a _ _ hbad
      exact Receiver.not_awake_step (by simpa using hbad)
  · intro x hvisit hawake hn hc hf
    refine hawake.attended ?_ hn hc hf
    rcases hvisit with rfl | ⟨a, hmem⟩
    · exact placed_run r
    · obtain ⟨h', r', -, -⟩ := r.of_mem (x, a) hmem
      exact placed_run r'

end Runs

/-- A frame that arrives once NAPI is enabled: it is handed over, received, and the
interrupts are put back. -/
def frameAfterEnable : List RxStep :=
  [.setResetMode, .setResetMode, .chipEnable, .napiEnable, .elapse] ++ List.replicate 6 (.irq 0)
    ++ List.replicate 8 (.poll false) ++ [.tail 0, .tail 0]

/-- The same frame, and NAPI enabled when the handler is through with it. -/
def frameBeforeEnable : List RxStep :=
  [.setResetMode, .setResetMode, .chipEnable, .elapse] ++ List.replicate 6 (.irq 0)
    ++ [.napiEnable]

def downReceiver : Receiver where
  rx := { Rx.twoWaiting with fifo := [], isrReg := 0#32, napiScheduled := false }
  chipOn := false
  napi := .disabled
  irq := .idle
  poll := .idle
  tails := []
  process := .down

/-- The machine of both runs: a reset clears IER. -/
def oneFrame : System Receiver RxStep := rxSystem (Rx.memoryFor fun _ => true) 64 fun _ => 0#32

instance (s : Receiver) (a : RxStep) : Decidable (oneFrame.allowed s a) :=
  inferInstanceAs (Decidable (s.allows a = true))

theorem frameBeforeEnable_not_awake :
    (oneFrame.runFrom downReceiver frameAfterEnable).rx.received.length = 1 ∧
    (∀ x, Visits (oneFrame.steps downReceiver frameAfterEnable)
      (oneFrame.runFrom downReceiver frameAfterEnable) x → x.Awake) ∧
    ¬ ∀ x, Visits (oneFrame.steps downReceiver frameBeforeEnable)
      (oneFrame.runFrom downReceiver frameBeforeEnable) x → x.Awake := by
  have hstart : Run oneFrame [] downReceiver := Run.start ⟨rfl, rfl, rfl, rfl, rfl, rfl, rfl⟩
  have hafter := oneFrame.run_of_steps frameAfterEnable hstart (by decide +kernel)
  have hbefore := oneFrame.run_of_steps frameBeforeEnable hstart (by decide +kernel)
  refine ⟨by decide +kernel, ?_, ?_⟩
  · exact (receiver_awake_iff hafter).1.mpr (by decide +kernel)
  · intro hall
    exact absurd ((receiver_awake_iff hbefore).1.mp hall) (by decide +kernel)

end CanBench.XilinxCan
