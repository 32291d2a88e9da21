/-
What it means that the test of the CAN interfaces ends, and that it passes.

A receiver takes the frames of its socket in order and closes at its `N`-th, so whatever comes
after that is not looked at, and the loop cannot end with a frame short: the count that
`_check_messages_match` compares is always right when it gets to compare it.  A lost frame is
a loop that does not end.  So is a receiver that expects nothing: it only looks at its count
when a frame arrives, and then its generator has nothing left.

`Counted` is what the handlers keep as long as nothing is raised.
-/
import CanBench.CanTest.Loop

namespace CanBench.CanTest

open Lib

variable {α : Type*} {n : Nat}

/-! ### What a history has brought, sent and called -/

/-- The frames that a step brings to a socket. -/
def arrivesAt (j : Fin n) (e : Loop n α × LoopStep n α) : List α :=
  match e.2 with
  | .arrive k msg => if k = j then [msg] else []
  | _ => []

/-- The frames that a step sends. -/
def sends (e : Loop n α × LoopStep n α) : List α :=
  match e.2 with
  | .send results =>
      if trySend results = some true then e.1.sender.msgs[e.1.sender.i]?.toList else []
  | _ => []

/-- The frames that have reached a socket. -/
def arrived (j : Fin n) (h : List (Loop n α × LoopStep n α)) : List α :=
  logged (fun _ => false) (arrivesAt j) h

/-- The frames that have been sent. -/
def sent (h : List (Loop n α × LoopStep n α)) : List α := logged (fun _ => false) sends h

/-- Calls of a receiver. -/
def callsReceiver (j : Fin n) (e : Loop n α × LoopStep n α) : Bool :=
  match e.2 with
  | .receive k _ => decide (k = j)
  | _ => false

/-- Calls of the sender. -/
def callsSender (e : Loop n α × LoopStep n α) : Bool :=
  match e.2 with
  | .send _ => true
  | _ => false

/-- No handler is ready; the socket of an open sender always is, sooner or later. -/
def Loop.blocked (s : Loop n α) : Prop :=
  s.sender.isOpen = false ∧ ∀ j, (s.recs j).isOpen = true → s.sockets j = []

/-! ### The handlers -/

namespace MessageReceiver

variable {r : MessageReceiver α} {msg : α}

/-- What a receiver of `N` messages keeps. -/
structure Counted (N : Nat) (r : MessageReceiver α) : Prop where
  n : r.n = N
  left : r.messages.length + r.left = N
  closed : r.isOpen = false → r.left = 0 ∧ 0 < N
  opened : r.isOpen = true → r.left = 0 → N = 0

theorem counted_new (N : Nat) : (new N : MessageReceiver α).Counted N where
  n := rfl
  left := Nat.zero_add N
  closed := by
    intro hclosed
    exact absurd hclosed.symm Bool.false_ne_true
  opened := fun _ hleft => hleft

theorem onEvent_some (hleft : 0 < r.left) :
    r.onEvent (some msg) =
      ((if r.messages.length + 1 = r.n then
          { r with messages := r.messages ++ [msg], left := r.left - 1, isOpen := false }
        else { r with messages := r.messages ++ [msg], left := r.left - 1 }), false) := by
  obtain ⟨left, hl⟩ := Nat.exists_eq_succ_of_ne_zero (Nat.pos_iff_ne_zero.mp hleft)
  unfold onEvent
  rw [hl]
  simp [close]

theorem onEvent_none : r.onEvent (none : Option α) = (r.close, true) := by
  unfold onEvent
  cases r.left <;> rfl

theorem onEvent_exhausted (hleft : r.left = 0) (recv : Option α) :
    r.onEvent recv = (r.close, true) := by
  unfold onEvent
  rw [hleft]

/-- A call that does not raise has received one message. -/
theorem onEvent_calm {recv : Option α} (h : (r.onEvent recv).2 = false) :
    0 < r.left ∧ ∃ msg, recv = some msg ∧
      (r.onEvent recv).1.messages = r.messages ++ [msg] := by
  by_cases hleft : r.left = 0
  · rw [onEvent_exhausted hleft] at h
    exact absurd h.symm Bool.false_ne_true
  · have hpos : 0 < r.left := Nat.pos_of_ne_zero hleft
    rcases recv with _ | msg
    · rw [onEvent_none] at h
      exact absurd h.symm Bool.false_ne_true
    · refine ⟨hpos, msg, rfl, ?_⟩
      rw [onEvent_some hpos]
      dsimp only
      split
      · rfl
      · rfl

theorem Counted.onEvent {N : Nat} {recv : Option α} (h : r.Counted N)
    (hcalm : (r.onEvent recv).2 = false) : (r.onEvent recv).1.Counted N := by
  obtain ⟨hpos, msg, rfl, -⟩ := onEvent_calm hcalm
  have hn := h.n
  have hl := h.left
  rw [onEvent_some hpos]
  dsimp only
  split
  · rename_i hlast
    refine ⟨hn, ?_, fun _ => ⟨?_, ?_⟩, fun hopen => absurd hopen Bool.false_ne_true⟩
    · simp only [List.length_append, List.length_singleton]
      omega
    · show r.left - 1 = 0
      omega
    · omega
  · rename_i hmore
    refine ⟨hn, ?_, fun hclosed => ?_, fun _ hzero => ?_⟩
    · simp only [List.length_append, List.length_singleton]
      omega
    · have hleft := (h.closed hclosed).1
      omega
    · have hzero' : r.left - 1 = 0 := hzero
      omega

end MessageReceiver

namespace MessageSender

variable {s : MessageSender α} {results : List SendResult}

/-- What a sender keeps. -/
structure Counted (sentMsgs : List α) (s : MessageSender α) : Prop where
  msgs : s.msgs = sentMsgs
  i : s.i ≤ sentMsgs.length
  closed : s.isOpen = false → s.i = sentMsgs.length

theorem onEvent_done (h : ¬ s.i < s.msgs.length) (results : List SendResult) :
    s.onEvent results = ({ s with isOpen := false }, false) := by
  simp [onEvent, sendMessages, h]

theorem onEvent_sent (h : s.i < s.msgs.length) (hsend : trySend results = some true) :
    s.onEvent results = ({ s with i := s.i + 1 }, false) := by
  simp [onEvent, sendMessages, h, hsend]

/-- A call that raises has sent nothing. -/
theorem onEvent_error (h : s.i < s.msgs.length) (hsend : trySend results ≠ some true) :
    (s.onEvent results).1.msgs = s.msgs ∧ (s.onEvent results).1.i = s.i := by
  rcases hres : trySend results with _ | ok
  · simp [onEvent, sendMessages, h, hres]
  · rcases ok with _ | _
    · simp [onEvent, sendMessages, h, hres]
    · exact absurd hres hsend

/-- A call that returns and does not raise has sent one message, or closed the sender. -/
theorem onEvent_calm (hreturns : (sendMessages s.msgs s.i results).isSome = true)
    (hcalm : (s.onEvent results).2 = false) :
    (s.i < s.msgs.length ∧ trySend results = some true) ∨ ¬ s.i < s.msgs.length := by
  by_cases hlt : s.i < s.msgs.length
  · refine Or.inl ⟨hlt, ?_⟩
    rcases hsend : trySend results with _ | ok
    · simp [sendMessages, hlt, hsend] at hreturns
    · rcases ok with _ | _
      · simp [onEvent, sendMessages, hlt, hsend] at hcalm
      · rfl
  · exact Or.inr hlt

theorem Counted.onEvent {sentMsgs : List α} (h : s.Counted sentMsgs)
    (hreturns : (sendMessages s.msgs s.i results).isSome = true)
    (hcalm : (s.onEvent results).2 = false) : (s.onEvent results).1.Counted sentMsgs := by
  have hlen : s.msgs.length = sentMsgs.length := by rw [h.msgs]
  have hi := h.i
  rcases onEvent_calm hreturns hcalm with ⟨hlt, hsend⟩ | hend
  · rw [onEvent_sent hlt hsend]
    refine ⟨h.msgs, ?_, fun hclosed => ?_⟩
    · show s.i + 1 ≤ sentMsgs.length
      omega
    · have hfull := h.closed hclosed
      omega
  · rw [onEvent_done hend]
    refine ⟨h.msgs, hi, fun _ => ?_⟩
    show s.i = sentMsgs.length
    omega

end MessageSender

/-! ### The loop -/

section Test

variable {rxis : Fin n → CANInterface} {isFd : α → Bool} {sentMsgs : List α}
  {h : List (Loop n α × LoopStep n α)} {s : Loop n α}

/-- What a loop keeps that nothing has left. -/
structure Counted (rxis : Fin n → CANInterface) (isFd : α → Bool) (sentMsgs : List α)
    (s : Loop n α) : Prop where
  recs : ∀ j, (s.recs j).Counted (expected rxis isFd sentMsgs j).length
  sender : s.sender.Counted sentMsgs

theorem allows_receive {j : Fin n} {fails : Bool} (hok : s.allows (.receive j fails) = true) :
    s.raised = false ∧ (s.recs j).isOpen = true ∧ (fails = true ∨ s.sockets j ≠ []) := by
  simpa [Loop.allows, and_assoc] using hok

theorem allows_send {results : List SendResult} (hok : s.allows (.send results) = true) :
    s.raised = false ∧ s.sender.isOpen = true ∧
      (sendMessages s.sender.msgs s.sender.i results).isSome = true := by
  simpa only [Loop.allows, Bool.and_eq_true, Bool.not_eq_true', and_assoc] using hok

theorem Run.counted (r : Run (loopSystem rxis isFd sentMsgs) h s) :
    s.raised = false → Counted rxis isFd sentMsgs s := by
  refine Run.invariant (I := fun s => s.raised = false → Counted rxis isFd sentMsgs s) ?_ ?_ r
  · rintro s rfl _
    refine ⟨fun j => MessageReceiver.counted_new _, rfl, Nat.zero_le _, fun hclosed => ?_⟩
    exact absurd hclosed.symm Bool.false_ne_true
  · intro s a hs hok hcalm
    rcases a with ⟨j, msg⟩ | ⟨j, fails⟩ | results
    · exact ⟨(hs hcalm).recs, (hs hcalm).sender⟩
    · obtain ⟨hraised, -, -⟩ := allows_receive hok
      refine ⟨fun k => ?_, (hs hraised).sender⟩
      by_cases hk : k = j
      · subst hk
        show (Function.update s.recs k _ k).Counted _
        rw [Function.update_self]
        exact ((hs hraised).recs k).onEvent hcalm
      · show (Function.update s.recs j _ k).Counted _
        rw [Function.update_of_ne hk]
        exact (hs hraised).recs k
    · obtain ⟨hraised, -, hreturns⟩ := allows_send hok
      exact ⟨(hs hraised).recs, (hs hraised).sender.onEvent hreturns hcalm⟩

/-- What a receiver reads it takes from its socket. -/
theorem receive_flow (j : Fin n) (fails : Bool) :
    (s.recs j).messages ++ s.sockets j
      = ((s.next (.receive j fails)).recs j).messages ++ (s.next (.receive j fails)).sockets j := by
  by_cases hread : 0 < (s.recs j).left ∧ fails = false
  · obtain ⟨hleft, rfl⟩ := hread
    rcases hsocket : s.sockets j with _ | ⟨msg, rest⟩
    · simp [Loop.next, hsocket, hleft, MessageReceiver.onEvent_none, MessageReceiver.close]
    · simp only [Loop.next, hsocket, hleft, Function.update_self, List.head?_cons, List.tail_cons,
        Bool.false_eq_true, if_false, MessageReceiver.onEvent_some hleft, decide_true,
        Bool.not_false, Bool.and_self, if_true]
      split
      · simp
      · simp
  · have hsame : ((s.recs j).onEvent (if fails then none else (s.sockets j).head?)).1
        = (s.recs j).close := by
      by_cases hleft : (s.recs j).left = 0
      · rw [MessageReceiver.onEvent_exhausted hleft]
      · have hfails : fails = true := by
          by_contra hno
          exact hread ⟨Nat.pos_of_ne_zero hleft, by simpa using hno⟩
        rw [hfails, if_pos rfl, MessageReceiver.onEvent_none]
    have hstill : (decide (0 < (s.recs j).left) && !fails) = false := by
      simpa [not_and, Bool.not_eq_false] using hread
    simp only [Loop.next, Function.update_self, hsame, hstill, Bool.false_eq_true, if_false]
    rfl

theorem Run.arrived_eq (r : Run (loopSystem rxis isFd sentMsgs) h s) (j : Fin n) :
    arrived j h = (s.recs j).messages ++ s.sockets j := by
  refine r.accumulated (J := fun _ => True) (fun s => (s.recs j).messages ++ s.sockets j)
    ?_ (fun _ _ _ _ => trivial) ?_
  · rintro s rfl
    exact ⟨trivial, rfl⟩
  · intro s a _ _
    rcases a with ⟨k, msg⟩ | ⟨k, fails⟩ | results
    · by_cases hk : k = j
      · subst hk
        simp [loopSystem, Loop.next, arrivesAt]
      · have hne : j ≠ k := fun heq => hk heq.symm
        simp [loopSystem, Loop.next, arrivesAt, hk, Function.update_of_ne hne]
    · rw [show arrivesAt j (s, LoopStep.receive k fails) = [] from rfl, List.append_nil]
      by_cases hk : j = k
      · subst hk
        exact receive_flow j fails
      · show _ = (Function.update s.recs k _ j).messages ++ (s.next (.receive k fails)).sockets j
        rw [Function.update_of_ne hk]
        simp only [Loop.next]
        split
        · rw [Function.update_of_ne hk]
        · rfl
    · exact List.append_nil _

/-- What a call of the sender does to its index and to what is sent. -/
theorem send_flow {results : List SendResult} (hmsgs : s.sender.msgs = sentMsgs) :
    (s.sender.onEvent results).1.msgs = sentMsgs ∧
      sentMsgs.take s.sender.i ++ sends (s, LoopStep.send results)
        = sentMsgs.take (s.sender.onEvent results).1.i := by
  by_cases hlt : s.sender.i < s.sender.msgs.length
  · by_cases hsend : trySend results = some true
    · rw [MessageSender.onEvent_sent hlt hsend]
      refine ⟨hmsgs, ?_⟩
      simp only [sends, if_pos hsend, hmsgs]
      exact List.take_add_one.symm
    · obtain ⟨hsame, hi⟩ := MessageSender.onEvent_error hlt hsend
      rw [hsame, hi]
      exact ⟨hmsgs, by simp [sends, hsend]⟩
  · rw [MessageSender.onEvent_done hlt]
    refine ⟨hmsgs, ?_⟩
    have hnone : s.sender.msgs[s.sender.i]? = none := List.getElem?_eq_none (by omega)
    simp [sends, hnone]

theorem Run.sent_eq (r : Run (loopSystem rxis isFd sentMsgs) h s) :
    sent h = sentMsgs.take s.sender.i := by
  refine r.accumulated (J := fun s => s.sender.msgs = sentMsgs)
    (fun s => sentMsgs.take s.sender.i) ?_ ?_ ?_
  · rintro s rfl
    exact ⟨rfl, rfl⟩
  · intro s a hs _
    rcases a with ⟨k, msg⟩ | ⟨k, fails⟩ | results
    · exact hs
    · exact hs
    · exact (send_flow hs).1
  · intro s a hs _
    rcases a with ⟨k, msg⟩ | ⟨k, fails⟩ | results
    · exact List.append_nil _
    · exact List.append_nil _
    · exact (send_flow hs).2

/-- No handler is called in vain. -/
theorem Run.calls (r : Run (loopSystem rxis isFd sentMsgs) h s) :
    s.raised = false →
      (∀ j, h.countP (callsReceiver j) = (s.recs j).messages.length) ∧
      h.countP callsSender = s.sender.i + (!s.sender.isOpen).toNat := by
  induction r with
  | start hs =>
      obtain rfl := hs
      intro _
      exact ⟨fun _ => rfl, rfl⟩
  | @step h s a r hok ih =>
      intro hcalm
      simp only [List.countP_append, List.countP_singleton]
      rcases a with ⟨k, msg⟩ | ⟨k, fails⟩ | results
      · exact ih hcalm
      · obtain ⟨hraised, hopen, -⟩ := allows_receive hok
        obtain ⟨hrecs, hsender⟩ := ih hraised
        refine ⟨fun j => ?_, hsender⟩
        rw [hrecs j]
        by_cases hk : k = j
        · subst hk
          obtain ⟨-, msg, -, hmsgs⟩ := MessageReceiver.onEvent_calm hcalm
          show _ = (Function.update s.recs k _ k).messages.length
          rw [Function.update_self, hmsgs]
          simp [callsReceiver]
        · have hne : j ≠ k := fun heq => hk heq.symm
          show _ = (Function.update s.recs k _ j).messages.length
          rw [Function.update_of_ne hne]
          simp [callsReceiver, hk]
      · obtain ⟨hraised, hopen, hreturns⟩ := allows_send hok
        obtain ⟨hrecs, hsender⟩ := ih hraised
        refine ⟨hrecs, ?_⟩
        rw [hsender, hopen]
        show s.sender.i + 0 + 1 = (s.sender.onEvent results).1.i
          + (!(s.sender.onEvent results).1.isOpen).toNat
        rcases MessageSender.onEvent_calm hreturns hcalm with ⟨hlt, hsend⟩ | hend
        · rw [MessageSender.onEvent_sent hlt hsend, hopen]
          rfl
        · rw [MessageSender.onEvent_done hend]
          rfl

/-! ### The verdict -/

/-- Two lists of messages that the test takes for the same. -/
def Same [BEq α] (received sentTo : List α) : Prop :=
  List.Forall₂ (fun r s => (s == r) = true) received sentTo

theorem checkInterface_pass [BEq α] (rxi : CANInterface) (rms sms : List α) :
    (∀ c ∈ checkInterface rxi rms sms, c.1 = true) ↔ Same rms sms := by
  rw [Same, List.forall₂_iff_zip]
  simp only [checkInterface, List.mem_cons, List.mem_map, forall_eq_or_imp, beq_iff_eq]
  refine and_congr_right fun _ => ⟨fun hall a b hmem => ?_, fun hall c hc => ?_⟩
  · obtain ⟨k, hk⟩ := List.mem_iff_getElem?.mp hmem
    exact hall _ ⟨((a, b), k), List.mk_mem_zipIdx_iff_getElem?.mpr hk, rfl⟩
  · obtain ⟨p, hp, rfl⟩ := hc
    exact hall (List.fst_mem_of_mem_zipIdx hp)

theorem checkMessagesMatch_pass [BEq α] (s : Loop n α) :
    (∀ c ∈ checkMessagesMatch rxis isFd sentMsgs s, c.1 = true) ↔
      ∀ j, Same (s.recs j).messages (expected rxis isFd sentMsgs j) := by
  simp only [checkMessagesMatch, List.mem_flatMap, List.mem_finRange, true_and]
  refine ⟨fun hall j => ?_, fun hall c hc => ?_⟩
  · exact (checkInterface_pass (rxis j) _ _).mp fun c hc => hall c ⟨j, hc⟩
  · obtain ⟨j, hj⟩ := hc
    exact (checkInterface_pass (rxis j) _ _).mpr (hall j) c hj

/-- The loop is done when all handlers are. -/
theorem finished_iff : s.finished = true ↔
    s.sender.isOpen = false ∧ ∀ j, (s.recs j).isOpen = false := by
  simp [Loop.finished]

/--
**The verdict of the test.**  In every order of the events, as long as nothing is raised: when
no handler is ready any more, the loop has ended exactly if every receiver expects something
and has been brought as much; then all messages have been sent, in order, and what the test
expects holds exactly if what came first at each receiver is what it was to get.  Every handler
is called as often as it has messages at most, and the sender once more.
-/
theorem sendMsgsSync_verdict [BEq α] (r : Run (loopSystem rxis isFd sentMsgs) h s)
    (hcalm : s.raised = false) :
    (s.finished = true ↔ s.blocked ∧ ∀ j, 0 < (expected rxis isFd sentMsgs j).length ∧
      (expected rxis isFd sentMsgs j).length ≤ (arrived j h).length) ∧
    (s.finished = true → sent h = sentMsgs ∧
      ((∀ c ∈ checkMessagesMatch rxis isFd sentMsgs s, c.1 = true) ↔
        ∀ j, Same ((arrived j h).take (expected rxis isFd sentMsgs j).length)
          (expected rxis isFd sentMsgs j))) ∧
    (∀ j, h.countP (callsReceiver j) ≤ (expected rxis isFd sentMsgs j).length) ∧
    h.countP callsSender ≤ sentMsgs.length + 1 := by
  obtain ⟨hrecs, hsender⟩ := Run.counted r hcalm
  obtain ⟨hcalls, hcallsSender⟩ := Run.calls r hcalm
  have hlen : ∀ j, (arrived j h).length = (s.recs j).messages.length + (s.sockets j).length := by
    intro j
    rw [Run.arrived_eq r j, List.length_append]
  refine ⟨⟨fun hfin => ?_, ?_⟩, fun hfin => ⟨?_, ?_⟩, fun j => ?_, ?_⟩
  · obtain ⟨hclosed, hall⟩ := finished_iff.mp hfin
    refine ⟨⟨hclosed, fun j hopen => ?_⟩, fun j => ?_⟩
    · exact absurd ((hall j).symm.trans hopen) Bool.false_ne_true
    · obtain ⟨hleft, hpos⟩ := (hrecs j).closed (hall j)
      have hcount := (hrecs j).left
      have := hlen j
      exact ⟨hpos, by omega⟩
  · rintro ⟨⟨hclosed, hempty⟩, henough⟩
    refine finished_iff.mpr ⟨hclosed, fun j => ?_⟩
    by_contra hopen
    have hopen' : (s.recs j).isOpen = true := by simpa using hopen
    obtain ⟨hpos, hle⟩ := henough j
    have hcount := (hrecs j).left
    have hall := hlen j
    rw [hempty j hopen', List.length_nil] at hall
    have hzero := (hrecs j).opened hopen' (by omega)
    omega
  · have hi := hsender.closed (finished_iff.mp hfin).1
    rw [Run.sent_eq r, hi, List.take_length]
  · have htake : ∀ j, (arrived j h).take (expected rxis isFd sentMsgs j).length
        = (s.recs j).messages := by
      intro j
      obtain ⟨hleft, -⟩ := (hrecs j).closed ((finished_iff.mp hfin).2 j)
      have hcount := (hrecs j).left
      rw [Run.arrived_eq r j]
      exact List.take_left' (by omega)
    simp only [htake]
    exact checkMessagesMatch_pass s
  · rw [hcalls j]
    have hcount := (hrecs j).left
    omega
  · rw [hcallsSender]
    have hi := hsender.i
    cases s.sender.isOpen <;> simp <;> omega

end Test

/-! ### Two messages to two interfaces -/

/-- One interface that can do CAN FD and one that cannot. -/
def twoKinds : Fin 2 → CANInterface :=
  fun j => if j.val = 0 then ⟨"can1", true⟩ else ⟨"can2", false⟩

/-- A message by its number, and whether it is CAN FD. -/
def oneOfEach : List (Nat × Bool) := [(1, true), (2, false)]

/-- The second interface is not brought the first message. -/
def twoSent : List (LoopStep 2 (Nat × Bool)) :=
  [.send [.enobufs, .sent], .send [.sent], .arrive 0 (1, true), .send [], .receive 0 false,
    .arrive 1 (2, false), .arrive 0 (2, false), .receive 1 false, .receive 0 false]

/-- The loop before its first event. -/
def twoOpened : Loop 2 (Nat × Bool) where
  recs := fun j => MessageReceiver.new (expected twoKinds Prod.snd oneOfEach j).length
  sockets := fun _ => []
  sender := MessageSender.new oneOfEach
  raised := false

theorem sendMsgsSync_verdict_twoKinds :
    ((loopSystem twoKinds Prod.snd oneOfEach).runFrom twoOpened twoSent).finished = true ∧
      ∀ c ∈ checkMessagesMatch twoKinds Prod.snd oneOfEach
        ((loopSystem twoKinds Prod.snd oneOfEach).runFrom twoOpened twoSent), c.1 = true := by
  have r := (loopSystem twoKinds Prod.snd oneOfEach).run_of_steps twoSent
    (Run.start (M := loopSystem twoKinds Prod.snd oneOfEach) (s := twoOpened) rfl)
    (by unfold loopSystem; decide +kernel)
  obtain ⟨hends, hverdict, -⟩ := sendMsgsSync_verdict r (by decide +kernel)
  have hfin := hends.mpr (by unfold Loop.blocked; decide +kernel)
  refine ⟨hfin, (hverdict hfin).2.mpr fun j => ?_⟩
  rcases j with ⟨_ | _ | j, hj⟩
  · exact List.Forall₂.cons rfl (List.Forall₂.cons rfl List.Forall₂.nil)
  · exact List.Forall₂.cons rfl List.Forall₂.nil
  · omega

end CanBench.CanTest
