/-
The frames that reach the stack are the frames that arrived.

However the handler, the polls and the process come in between each other, a poll takes the
frame at the head of the FIFO whole and passes it on, and without memory it leaves the frame
where it is.  So what has been heard since the last reset is what has been passed on since,
followed by what is in the FIFO: nothing is lost, doubled or reordered.

There is one way to break this.  A poll that has seen RXNEMP reads the FIFO without looking
again.  A reset that falls in between, by the handler on a bus-off or an overflow or by a
restart, has emptied the FIFO, and what the poll then passes on is nothing anybody sent.
-/
import CanBench.Lib.Stream
import CanBench.XilinxCan.NapiAwake

namespace CanBench.XilinxCan

open Lib

namespace Rx

variable {env : Env} {s t u : Rx}

/-! ### Frames come in -/

/-- Frames may have arrived, and none has been taken. -/
structure Hears (s t : Rx) : Prop where
  new : ∃ new, t.fifo = s.fifo ++ new ∧ t.arrived = s.arrived ++ new
  received : t.received = s.received

theorem Arrives.hears (h : Arrives s t) : Hears s t := ⟨h.new, h.received⟩

theorem Hears.refl (s : Rx) : Hears s s := ⟨⟨[], by simp, by simp⟩, rfl⟩

theorem Hears.trans (h : Hears s t) (h' : Hears t u) : Hears s u := by
  obtain ⟨a, hf, ha⟩ := h.new
  obtain ⟨b, hf', ha'⟩ := h'.new
  refine ⟨⟨a ++ b, ?_, ?_⟩, h'.received.trans h.received⟩
  · rw [hf', hf, List.append_assoc]
  · rw [ha', ha, List.append_assoc]

theorem Hears.waiting (h : Hears s t) (hs : s.fifo ≠ []) : t.fifo ≠ [] := by
  obtain ⟨a, hf, -⟩ := h.new
  rw [hf]
  exact List.append_ne_nil_of_left_ne_nil hs a

theorem Consistent.writeIcr (h : Consistent s) (mask : BitVec 32) :
    Consistent (s.writeIcr env mask) := by
  have helapse : (s.elapse env).Consistent := h.elapse
  refine consistent_of_raise fun hempty => ?_
  have hold : test (s.elapse env).isrReg xcanIxrRxnempMask = false := by
    by_contra hset
    exact helapse.mp (by simpa using hset) hempty
  rw [test_rxnemp] at hold ⊢
  rw [BitVec.getLsbD_and, hold, Bool.false_and]

/-- The poll need not notice. -/
structure Quiet (s t : Rx) : Prop where
  hears : Hears s t
  isr : t.isr = s.isr
  workDone : t.workDone = s.workDone
  consistent : Consistent s → Consistent t

theorem Quiet.refl (s : Rx) : Quiet s s := ⟨Hears.refl s, rfl, rfl, id⟩

theorem Quiet.trans (h : Quiet s t) (h' : Quiet t u) : Quiet s u :=
  ⟨h.hears.trans h'.hears, h'.isr.trans h.isr, h'.workDone.trans h.workDone,
    h'.consistent ∘ h.consistent⟩

/-- IER and the scheduling of the poll are none of its business. -/
theorem Quiet.flags (s : Rx) (ier : BitVec 32) (scheduled : Bool) :
    Quiet s { s with ierReg := ier, napiScheduled := scheduled } :=
  ⟨⟨⟨[], by simp, by simp⟩, rfl⟩, rfl, rfl, id⟩

theorem raiseRxnemp_isr (s : Rx) : s.raiseRxnemp.isr = s.isr := by
  unfold raiseRxnemp
  split
  · rfl
  · rfl

theorem elapse_quiet (env : Env) (s : Rx) : Quiet s (s.elapse env) :=
  ⟨(elapse_arrives env s).hears, raiseRxnemp_isr _, (elapse_arrives env s).workDone,
    Consistent.elapse⟩

theorem writeIcr_quiet (env : Env) (mask : BitVec 32) (s : Rx) : Quiet s (s.writeIcr env mask) :=
  ⟨(writeIcr_arrives env mask s).hears, (raiseRxnemp_isr _).trans (raiseRxnemp_isr _),
    (writeIcr_arrives env mask s).workDone, fun h => h.writeIcr mask⟩

/-- Without memory the frame stays where it is. -/
theorem xcanRx_of_refused (ha : env.alloc s.allocs = false) : Hears s (s.xcanRx env) := by
  unfold xcanRx
  rw [ha, if_neg Bool.false_ne_true]
  exact ⟨⟨[], by simp, by simp⟩, rfl⟩

end Rx

namespace Receiver

open Rx

variable {env : Env} {quota : Nat} {resetIer : BitVec 32 → BitVec 32} {s : Receiver}

/-- The poll has seen RXNEMP and not read the frame. -/
def inFrame (quota : Nat) (s : Receiver) : Bool :=
  match s.poll with
  | .test => s.rx.polls quota
  | .rxok | .rx => true
  | _ => false

/-- The step empties the FIFO. -/
def resets (e : Receiver × RxStep) : Bool :=
  match e.2 with
  | .setResetMode | .chipStop => true
  | .irq _ =>
      match e.1.irq with
      | .causes isr => test isr (xcanIxrBsoffMask ||| xcanIxrRxoflwMask)
      | _ => false
  | _ => false

/-- What reaches the FIFO in a step, as the driver decodes it. -/
def heard (env : Env) (quota : Nat) (resetIer : BitVec 32 → BitVec 32)
    (e : Receiver × RxStep) : List CanFrame :=
  ((e.1.step env quota resetIer e.2).rx.arrived.drop e.1.rx.arrived.length).map rxFrame

/-- What a step passes on. -/
def passedOn (env : Env) (quota : Nat) (resetIer : BitVec 32 → BitVec 32)
    (e : Receiver × RxStep) : List CanFrame :=
  ((e.1.step env quota resetIer e.2).rx.received.drop e.1.rx.received.length).map Skb.frame

/-! ### The handler -/

theorem clearCauses_quiet (echoes : Nat) (isr : BitVec 32) (rx : Rx) :
    Quiet rx (clearCauses env echoes isr rx) :=
  clearCauses_keeps (Q := Quiet rx) (fun mask t h => h.trans (writeIcr_quiet env mask t)) echoes isr
    (Quiet.refl rx)

theorem irqStep_poll (echoes : Nat) : (s.irqStep env resetIer echoes).poll = s.poll := by
  unfold Receiver.irqStep
  rcases s.irq with _ | _ | isr | _ | ier | _
  case causes =>
    dsimp only
    split
    · rfl
    · rfl
  all_goals rfl

theorem irqStep_quiet (echoes : Nat) (hreset : resets (s, .irq echoes) = false) :
    Quiet s.rx (s.irqStep env resetIer echoes).rx := by
  unfold Receiver.irqStep
  rcases hpc : s.irq with _ | _ | isr | _ | ier | _
  · exact Quiet.refl s.rx
  · exact elapse_quiet env s.rx
  · have hno : test isr (xcanIxrBsoffMask ||| xcanIxrRxoflwMask) = false := by
      simpa [resets, hpc] using hreset
    simp only [hno, Bool.false_eq_true, if_false]
    exact clearCauses_quiet echoes isr s.rx
  · exact elapse_quiet env s.rx
  · exact (elapse_quiet env s.rx).trans (Quiet.flags _ _ _)
  · dsimp only
    split
    · exact Quiet.flags _ _ _
    · exact Quiet.refl s.rx

theorem tailStep_quiet (k : Nat) : Quiet s.rx (s.tailStep env k).rx := by
  unfold Receiver.tailStep
  rcases s.tails[k]? with _ | _ | ier
  · exact Quiet.refl s.rx
  · exact elapse_quiet env s.rx
  · exact (elapse_quiet env s.rx).trans (Quiet.flags _ _ _)

/-! ### What a reset finds -/

/-- A reset leaves nothing to read, and says so. -/
theorem reset_consistent (s : Receiver) : (s.reset env resetIer).rx.Consistent := by
  unfold Rx.Consistent reset
  simp [test]

/-- RXNEMP can be relied on, but for a poll that has just taken a frame, and one that has
relied on it finds a frame. -/
structure Steady (quota : Nat) (s : Receiver) : Prop where
  idle : s.napi = .disabled → s.poll = .idle
  opened : s.napi ≠ .disabled → s.process = .up ∨ s.process = .restarting ∨ s.process = .closing
  consistent : s.process ≠ .down → s.poll ≠ .rxnemp → s.rx.Consistent
  waiting : s.inFrame quota = true → s.rx.fifo ≠ []

theorem inFrame_eq {t : Receiver} (hpoll : t.poll = s.poll) (hisr : t.rx.isr = s.rx.isr)
    (hdone : t.rx.workDone = s.rx.workDone) : t.inFrame quota = s.inFrame quota := by
  simp only [inFrame, polls, hpoll, hisr, hdone]

theorem Steady.of_quiet {t : Receiver} (h : s.Steady quota) (hrx : Quiet s.rx t.rx)
    (hpoll : t.poll = s.poll) (hidle : t.napi = .disabled → t.poll = .idle)
    (hopened : t.napi ≠ .disabled →
      t.process = .up ∨ t.process = .restarting ∨ t.process = .closing)
    (hdown : t.process ≠ .down → s.process ≠ .down) : t.Steady quota := by
  refine ⟨hidle, hopened, fun hp hr => ?_, fun hf => ?_⟩
  · exact hrx.consistent (h.consistent (hdown hp) (hpoll ▸ hr))
  · rw [inFrame_eq hpoll hrx.isr hrx.workDone] at hf
    exact hrx.hears.waiting (h.waiting hf)

/-- What is in a poll's way is gone after a reset, if there is none in a frame. -/
theorem Steady.of_reset {t : Receiver} (hfifo : t.rx.Consistent)
    (hidle : t.napi = .disabled → t.poll = .idle)
    (hopened : t.napi ≠ .disabled →
      t.process = .up ∨ t.process = .restarting ∨ t.process = .closing)
    (hframe : t.inFrame quota = false) : t.Steady quota :=
  ⟨hidle, hopened, fun _ _ => hfifo, fun hf => absurd (hf.symm.trans hframe) (by simp)⟩

/-- A poll runs only while NAPI is not disabled. -/
theorem Steady.running (h : s.Steady quota) {again : Bool} (ok : s.allows (.poll again) = true) :
    s.napi ≠ .disabled ∧ s.process ≠ .down := by
  have hnapi : s.napi ≠ .disabled := by
    intro hdis
    simp [allows, h.idle hdis, hdis] at ok
  refine ⟨hnapi, fun hdown => ?_⟩
  rcases h.opened hnapi with hp | hp | hp <;> rw [hp] at hdown <;> cases hdown

theorem Steady.pollStep (h : s.Steady quota) {again : Bool} (ok : s.allows (.poll again) = true) :
    (s.pollStep env quota again).Steady quota := by
  obtain ⟨hnapi, hdown⟩ := h.running ok
  have hdis : ∀ {t : Receiver}, t.napi = s.napi → t.napi = .disabled → t.poll = .idle :=
    fun heq hd => absurd (heq.symm.trans hd) hnapi
  rcases hpc : s.poll with _ | _ | _ | _ | _ | _
  · simp only [Receiver.pollStep, hpc]
    exact ⟨hdis rfl, h.opened, fun hp _ => h.consistent hp (by simp [hpc]), by simp [inFrame]⟩
  · simp only [Receiver.pollStep, hpc]
    obtain ⟨hcons, hisr⟩ : (s.rx.readIsr env).Consistent ∧
        (s.rx.readIsr env).isr = (s.rx.readIsr env).isrReg :=
      (h.consistent hdown (by simp [hpc])).readIsr
    refine ⟨hdis rfl, h.opened, fun _ _ => hcons, fun hf => ?_⟩
    simp only [inFrame, polls, Bool.and_eq_true] at hf
    exact hcons.mp (hisr ▸ hf.1)
  · simp only [Receiver.pollStep, hpc]
    split
    · rename_i hpolls
      exact ⟨hdis rfl, h.opened, fun hp _ => h.consistent hp (by simp [hpc]),
        fun _ => h.waiting (by simpa [inFrame, hpc] using hpolls)⟩
    · split
      · exact ⟨fun _ => rfl, h.opened, fun hp _ => h.consistent hp (by simp [hpc]),
          by simp [inFrame]⟩
      · exact ⟨fun _ => rfl, h.opened, fun hp _ => h.consistent hp (by simp [hpc]),
          by simp [inFrame]⟩
  · simp only [Receiver.pollStep, hpc]
    have hclear := writeIcr_quiet env xcanIxrRxokMask s.rx
    refine ⟨hdis rfl, h.opened, fun hp _ => ?_, fun _ => ?_⟩
    · exact hclear.consistent (h.consistent hp (by simp [hpc]))
    · exact hclear.hears.waiting (h.waiting (by simp [inFrame, hpc]))
  · simp only [Receiver.pollStep, hpc]
    exact ⟨hdis rfl, h.opened, fun _ hr => absurd rfl hr, by simp [inFrame]⟩
  · simp only [Receiver.pollStep, hpc]
    exact ⟨hdis rfl, h.opened, fun _ _ => consistent_of_clear env s.rx, by simp [inFrame]⟩

theorem Steady.irqStep (h : s.Steady quota) (echoes : Nat)
    (hsafe : resets (s, .irq echoes) = true → s.inFrame quota = false) :
    (s.irqStep env resetIer echoes).Steady quota := by
  obtain ⟨hnapi, hproc⟩ := irqStep_napi env resetIer s echoes
  have hpoll : (s.irqStep env resetIer echoes).poll = s.poll := irqStep_poll echoes
  cases hreset : resets (s, .irq echoes) with
  | false =>
      refine h.of_quiet (irqStep_quiet echoes hreset) hpoll ?_ ?_ ?_
      · rw [hnapi, hpoll]
        exact h.idle
      · rw [hnapi, hproc]
        exact h.opened
      · rw [hproc]
        exact id
  | true =>
      obtain ⟨isr, hpc⟩ : ∃ isr, s.irq = .causes isr := by
        rcases hpc : s.irq with _ | _ | isr | _ | ier | _
        case causes => exact ⟨isr, rfl⟩
        all_goals simp [resets, hpc] at hreset
      have hcause : test isr (xcanIxrBsoffMask ||| xcanIxrRxoflwMask) = true := by
        simpa [resets, hpc] using hreset
      have hrx : (s.irqStep env resetIer echoes).rx
          = (Receiver.reset env resetIer { s with rx := clearCauses env echoes isr s.rx }).rx := by
        simp [Receiver.irqStep, hpc, hcause]
      have hlook : Quiet s.rx ((clearCauses env echoes isr s.rx).elapse env) :=
        (clearCauses_quiet echoes isr s.rx).trans (elapse_quiet env _)
      refine Steady.of_reset ?_ ?_ ?_ ?_
      · rw [hrx]
        exact reset_consistent _
      · rw [hnapi, hpoll]
        exact h.idle
      · rw [hnapi, hproc]
        exact h.opened
      · rw [inFrame_eq hpoll ((congrArg Rx.isr hrx).trans hlook.isr)
          ((congrArg Rx.workDone hrx).trans hlook.workDone)]
        exact hsafe hreset

theorem Steady.step (h : s.Steady quota) {a : RxStep} (ok : s.allows a = true)
    (hsafe : resets (s, a) = true → s.inFrame quota = false) :
    (s.step env quota resetIer a).Steady quota := by
  rcases a with _ | echoes | again | k | _ | _ | _ | _ | _ | _ | _ | _
  case elapse => exact h.of_quiet (elapse_quiet env s.rx) rfl h.idle h.opened id
  case irq => exact h.irqStep echoes hsafe
  case poll => exact h.pollStep ok
  case tail =>
    have hsame : (s.tailStep env k).poll = s.poll ∧ (s.tailStep env k).napi = s.napi ∧
        (s.tailStep env k).process = s.process := by
      unfold Receiver.tailStep
      rcases s.tails[k]? with _ | _ | ier
      · exact ⟨rfl, rfl, rfl⟩
      · exact ⟨rfl, rfl, rfl⟩
      · exact ⟨rfl, rfl, rfl⟩
    obtain ⟨hpoll, hnapi, hproc⟩ := hsame
    refine h.of_quiet (t := s.tailStep env k) (tailStep_quiet k) hpoll ?_ ?_ ?_
    · rw [hnapi, hpoll]
      exact h.idle
    · rw [hnapi, hproc]
      exact h.opened
    · rw [hproc]
      exact id
  case setResetMode =>
    refine Steady.of_reset (reset_consistent s) h.idle (fun hn => ?_) ?_
    · rcases h.opened hn with hp | hp | hp
      · right
        left
        simp [Receiver.step, hp]
      · simp [allows, hp] at ok
      · simp [allows, hp] at ok
    · have hlook := elapse_quiet env s.rx
      rw [← hsafe rfl]
      exact inFrame_eq rfl hlook.isr hlook.workDone
  case chipEnable =>
    have hrx : Quiet s.rx { s.rx.elapse env with ierReg := xcanIntrAll } :=
      (elapse_quiet env s.rx).trans (Quiet.flags _ _ _)
    refine h.of_quiet (t := s.chipEnable env) hrx rfl h.idle (fun hn => ?_) (fun _ hdown => ?_)
    · rcases h.opened hn with hp | hp | hp
      · simp [allows, hp] at ok
      · left
        simp [Receiver.chipEnable, hp]
      · simp [allows, hp] at ok
    · simp [allows, hdown] at ok
  case startFails =>
    show s.startFails.Steady quota
    unfold startFails
    split
    · rename_i hp
      exact h.of_quiet (Quiet.refl s.rx) rfl h.idle (fun _ => Or.inl rfl) (by simp [hp])
    · rename_i hp
      refine h.of_quiet (Quiet.refl s.rx) rfl h.idle (fun hn => ?_) (fun hd => absurd rfl hd)
      rcases h.opened hn with hup | hre | hcl
      · simp [allows, hup] at ok
      · exact absurd hre hp
      · simp [allows, hcl] at ok
  case napiEnable =>
    have hproc : s.process = .started := by simpa [allows] using ok
    refine h.of_quiet (Quiet.flags _ _ _) rfl (fun hn => ?_)
      (fun _ => Or.inl rfl) (by simp [hproc])
    exact absurd hn (by simp [Receiver.step])
  case closeBegin =>
    have hproc : s.process = .up := by simpa [allows] using ok
    refine h.of_quiet (Quiet.refl s.rx) rfl (fun hn => ?_) (fun _ => Or.inr (Or.inr rfl))
      (by simp [hproc])
    exact absurd hn (by simp [Receiver.step])
  case napiDisable =>
    have hplace : s.process = .closing ∧ s.napi = .disabling ∧ s.poll = .idle := by
      simp only [allows, Bool.and_eq_true, decide_eq_true_eq] at ok
      exact ok.1
    exact h.of_quiet (Quiet.refl s.rx) rfl (fun _ => hplace.2.2) (fun hn => absurd rfl hn) id
  case chipStop =>
    have hplace : s.process = .closing ∧ s.napi = .disabled := by simpa [allows] using ok
    have hidle : s.poll = .idle := h.idle hplace.2
    refine Steady.of_reset (reset_consistent _) (fun _ => hidle)
      (fun hn => absurd hplace.2 hn) ?_
    show (s.chipStop env resetIer).inFrame quota = false
    have hpoll : (s.chipStop env resetIer).poll = .idle := hidle
    simp [inFrame, hpoll]
  case freeIrq =>
    have hplace : s.process = .stopped ∧ s.irq = .idle := by simpa [allows] using ok
    refine h.of_quiet (Quiet.refl s.rx) rfl h.idle (fun hn => ?_) (fun hd => absurd rfl hd)
    rcases h.opened hn with hp | hp | hp <;> rw [hplace.1] at hp <;> cases hp

/-! ### Conservation, step by step -/

/-- What comes in and what goes out make up for what is in the FIFO. -/
def Balanced (s t : Rx) : Prop :=
  s.fifo.map rxFrame ++ (t.arrived.drop s.arrived.length).map rxFrame
    = (t.received.drop s.received.length).map Skb.frame ++ t.fifo.map rxFrame

theorem balanced_of_hears {s t : Rx} (h : Hears s t) : Balanced s t := by
  obtain ⟨new, hfifo, harrived⟩ := h.new
  rw [Balanced, hfifo, harrived, h.received, List.drop_left, List.drop_length]
  simp

theorem balanced_of_delivers {s t : Rx} {w : FifoWords} (h : Delivers w s t) : Balanced s t := by
  obtain ⟨rest, new, hs, ht, harrived⟩ := h.queue
  obtain ⟨skb, hskb, hreceived⟩ := h.received
  rw [Balanced, hs, ht, harrived, hreceived, List.drop_left, List.drop_left]
  simp [hskb]

theorem balanced_pollStep (h : s.Steady quota) (again : Bool) :
    Balanced s.rx (s.pollStep env quota again).rx := by
  rcases hpc : s.poll with _ | _ | _ | _ | _ | _
  · simp only [Receiver.pollStep, hpc, Balanced]
    simp
  · simp only [Receiver.pollStep, hpc]
    exact balanced_of_hears (readIsr_arrives env s.rx).hears
  · simp only [Receiver.pollStep, hpc]
    split
    · exact balanced_of_hears (Hears.refl s.rx)
    · split
      · exact balanced_of_hears (Quiet.flags _ _ _).hears
      · exact balanced_of_hears (Hears.refl s.rx)
  · simp only [Receiver.pollStep, hpc]
    exact balanced_of_hears (writeIcr_arrives env _ s.rx).hears
  · simp only [Receiver.pollStep, hpc]
    cases ha : env.alloc s.rx.allocs with
    | false => exact balanced_of_hears (xcanRx_of_refused ha)
    | true =>
        obtain ⟨w, rest, hfifo⟩ := List.exists_cons_of_ne_nil (h.waiting (by simp [inFrame, hpc]))
        exact balanced_of_delivers (xcanRx_of_granted env hfifo ha)
  · simp only [Receiver.pollStep, hpc]
    exact balanced_of_hears (writeIcr_arrives env _ s.rx).hears

theorem balanced_step (h : s.Steady quota) {a : RxStep} (hstays : resets (s, a) = false) :
    Balanced s.rx (s.step env quota resetIer a).rx := by
  cases a with
  | elapse => exact balanced_of_hears (elapse_quiet env s.rx).hears
  | irq echoes => exact balanced_of_hears (irqStep_quiet echoes hstays).hears
  | poll again => exact balanced_pollStep h again
  | tail k => exact balanced_of_hears (tailStep_quiet k).hears
  | setResetMode => exact absurd hstays (by simp [resets])
  | chipEnable =>
      exact balanced_of_hears ((elapse_quiet env s.rx).trans (Quiet.flags _ _ _)).hears
  | startFails =>
      refine balanced_of_hears ?_
      show Hears s.rx s.startFails.rx
      unfold startFails
      split
      · exact Hears.refl s.rx
      · exact Hears.refl s.rx
  | napiEnable => exact balanced_of_hears (Quiet.flags _ _ _).hears
  | closeBegin => exact balanced_of_hears (Hears.refl s.rx)
  | napiDisable => exact balanced_of_hears (Hears.refl s.rx)
  | chipStop => exact absurd hstays (by simp [resets])
  | freeIrq => exact balanced_of_hears (Hears.refl s.rx)

theorem fifo_of_resets {a : RxStep} (hreset : resets (s, a) = true) :
    (s.step env quota resetIer a).rx.fifo = [] := by
  cases a with
  | irq echoes =>
      show (s.irqStep env resetIer echoes).rx.fifo = []
      rcases hpc : s.irq with _ | _ | isr | _ | ier | _
      case causes =>
        have hcause : test isr (xcanIxrBsoffMask ||| xcanIxrRxoflwMask) = true := by
          simpa [resets, hpc] using hreset
        simp [Receiver.irqStep, hpc, hcause, Receiver.reset]
      all_goals simp [resets, hpc] at hreset
  | setResetMode => rfl
  | chipStop => rfl
  | _ => simp [resets] at hreset

end Receiver

section Runs

variable {env : Env} {quota : Nat} {resetIer : BitVec 32 → BitVec 32}
  {h : List (Receiver × RxStep)} {s : Receiver}

/--
**What has been heard is what has been passed on, and the rest is in the FIFO.**  In every
interleaving of the handler, the polls, their tails and the process, with any frames coming in
and any allocations failing: as long as no reset finds a poll that has seen RXNEMP and not read
the frame, the frames heard since the last reset are the ones passed on since, whole, once and
in order, followed by those in the FIFO.
-/
theorem receiver_streams (r : Run (rxSystem env quota resetIer) h s)
    (hsafe : ∀ e ∈ h, Receiver.resets e = true → e.1.inFrame quota = false) :
    logged Receiver.resets (Receiver.heard env quota resetIer) h
      = logged Receiver.resets (Receiver.passedOn env quota resetIer) h
        ++ s.rx.fifo.map rxFrame := by
  have hrun := r.restrict (G := fun s a =>
    Receiver.resets (s, a) = true → s.inFrame quota = false) hsafe
  refine hrun.conserved (J := Receiver.Steady quota) (fun s => s.rx.fifo.map rxFrame) ?_ ?_ ?_ ?_
  · rintro s ⟨hproc, hnapi, -, hpoll, -, hfifo, -⟩
    refine ⟨⟨fun _ => hpoll, fun hn => absurd hnapi hn, fun hp => absurd hproc hp, ?_⟩, ?_⟩
    · simp [Receiver.inFrame, hpoll]
    · rw [hfifo]
      rfl
  · intro s a hs hok
    exact hs.step hok.1 hok.2
  · intro s a _ _ hreset
    show (s.step env quota resetIer a).rx.fifo.map rxFrame = []
    rw [Receiver.fifo_of_resets hreset]
    rfl
  · intro s a hs _ hstays
    exact Receiver.balanced_step hs hstays

end Runs

/-- The poll has seen RXNEMP when the interface is restarted. -/
def restartInFrame : List RxStep :=
  [.setResetMode, .setResetMode, .chipEnable, .napiEnable, .elapse] ++ List.replicate 6 (.irq 0)
    ++ List.replicate 2 (.poll false) ++ [.setResetMode] ++ List.replicate 3 (.poll false)

theorem oneFrame_run (l : List RxStep)
    (hok : ∀ e ∈ oneFrame.steps downReceiver l, oneFrame.allowed e.1 e.2) :
    Run oneFrame (oneFrame.steps downReceiver l) (oneFrame.runFrom downReceiver l) :=
  oneFrame.run_of_steps l (Run.start ⟨rfl, rfl, rfl, rfl, rfl, rfl, rfl⟩) hok

/-- What one of these runs has heard and passed on since its last reset. -/
def oneFrameHeard (l : List RxStep) : List CanFrame :=
  logged Receiver.resets (Receiver.heard (Rx.memoryFor fun _ => true) 64 fun _ => 0#32)
    (oneFrame.steps downReceiver l)

def oneFramePassedOn (l : List RxStep) : List CanFrame :=
  logged Receiver.resets (Receiver.passedOn (Rx.memoryFor fun _ => true) 64 fun _ => 0#32)
    (oneFrame.steps downReceiver l)

/-- A frame is heard and passed on; and one is passed on that nobody has heard. -/
theorem restartInFrame_invents :
    oneFrameHeard frameAfterEnable = oneFramePassedOn frameAfterEnable
      ++ (oneFrame.runFrom downReceiver frameAfterEnable).rx.fifo.map rxFrame ∧
    (oneFramePassedOn frameAfterEnable).length = 1 ∧
    (oneFrameHeard restartInFrame).length = 0 ∧ (oneFramePassedOn restartInFrame).length = 1 := by
  refine ⟨receiver_streams (oneFrame_run frameAfterEnable (by decide +kernel)) ?_, ?_, ?_, ?_⟩
  · decide +kernel
  · decide +kernel
  · decide +kernel
  · decide +kernel

end CanBench.XilinxCan
