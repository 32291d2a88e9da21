/-
What software reads of the knobs and keys.

The bits that come in while a frame is open are a word once it closes.  From there on the
words go two ways: straight into the key field of word 8, and through the filters and the
counters into the bytes of word 9.  `Heard` counts the words at the pins, where the
listener is, and so a read is related to what the board sent and not to a register.
-/
import CanBench.Leds.Frames

namespace CanBench.Leds

open Lib Axi Spi Pwm Encoder

/-! ### Words at the pins -/

/-- The words that have come in: one for each frame that closed. -/
def heard (h : List (WatchedBoard × BoardIn)) : List (BitVec spiDataWidth) :=
  h.filterMap fun e =>
    if closes e.1.enc.spi (ledSystem.next e.1 e.2).enc.spi then
      some (wordOf (e.1.listener.bits.map Prod.snd))
    else none

/-- The SPI master and the encoders in a history. -/
def encSteps (h : List (WatchedBoard × BoardIn)) : List (EncBoard × EncBoardIn) :=
  h.map fun e => (e.1.enc, e.1.board.encIn e.2)

/-- A word that the filters are about to take. -/
def pending (x : WatchedBoard) : List (BitVec spiDataWidth) :=
  if x.enc.spi.transferReady then [x.enc.spi.rxData] else []

theorem heard_concat (h : List (WatchedBoard × BoardIn)) (e : WatchedBoard × BoardIn) :
    heard (h ++ [e]) = heard h ++ heard [e] := List.filterMap_append ..

theorem received_concat (h : List (WatchedBoard × BoardIn)) (e : WatchedBoard × BoardIn) :
    received (encSteps (h ++ [e])) = received (encSteps h) ++ pending e.1 := by
  have hone : received (encSteps [e]) = pending e.1 := by
    unfold received encSteps pending
    rcases hready : e.1.enc.spi.transferReady <;> simp [hready]
  rw [← hone, encSteps, List.map_append]
  exact List.filterMap_append ..

/-- After the stretch `l`, which began with `rx₀` in the register. -/
structure Heard (rx₀ : BitVec spiDataWidth) (l : List (WatchedBoard × BoardIn))
    (x : WatchedBoard) : Prop where
  spi : Spi.Inv x.enc.spi x.listener
  words : received (encSteps l) ++ pending x = heard l
  rxData : x.enc.spi.rxData = (heard l).getLastD rx₀

variable {rx₀ : BitVec spiDataWidth} {l : List (WatchedBoard × BoardIn)} {x x₀ : WatchedBoard}
  {i : BoardIn}

theorem Heard.next (hx : Heard rx₀ l x) (hi : i.axi.aresetn = true) :
    Heard rx₀ (l ++ [(x, i)]) (ledSystem.next x i) := by
  obtain ⟨hr, hen⟩ := spiIn_running (x := x) hi
  obtain ⟨hshown, hinv⟩ : Transfers x.listener x.enc.spi (ledSystem.next x i).enc.spi ∧
      Spi.Inv (ledSystem.next x i).enc.spi (x.listener.next x.enc.spi
        (EncBoard.spiIn (x.board.encIn i)) (ledSystem.next x i).enc.spi) :=
    inv_next (by decide) hx.spi hr hen
  refine ⟨?_, ?_, ?_⟩
  · rw [next_listener hi]
    exact hinv
  · rw [received_concat, heard_concat, hx.words]
    congr 1
    unfold pending heard
    rcases Bool.eq_false_or_eq_true (closes x.enc.spi (ledSystem.next x i).enc.spi) with hc | hc
    · obtain ⟨-, hrx, hready⟩ := hshown.closed hc
      rw [hready, hrx]
      simp [hc]
    · obtain ⟨-, hready⟩ := hshown.quiet hc
      rw [hready]
      simp [hc]
  · rw [heard_concat]
    rcases Bool.eq_false_or_eq_true (closes x.enc.spi (ledSystem.next x i).enc.spi) with hc | hc
    · obtain ⟨-, hrx, -⟩ := hshown.closed hc
      have hone : heard [(x, i)] = [wordOf (x.listener.bits.map Prod.snd)] := by simp [heard, hc]
      rw [hone, List.getLastD_concat]
      exact hrx
    · obtain ⟨hrx, -⟩ := hshown.quiet hc
      have hnone : heard [(x, i)] = [] := by simp [heard, hc]
      rw [hnone, List.append_nil, hrx, hx.rxData]

/-- Along a stretch that begins between frames. -/
theorem heard_run (hspi : Spi.Inv x₀.enc.spi x₀.listener)
    (hbetween : x₀.enc.spi.transferReady = false) (r : Run (ledSystem.startedIn x₀) l x)
    (hreset : ∀ e ∈ l, e.2.axi.aresetn = true) : Heard x₀.enc.spi.rxData l x := by
  induction r with
  | start hs =>
      obtain rfl : _ = x₀ := hs
      refine ⟨hspi, ?_, rfl⟩
      simp [pending, hbetween, encSteps, received, heard]
  | @step l x i _ _ ih =>
      have hbefore := ih fun e he => hreset e (List.mem_append.mpr (Or.inl he))
      exact hbefore.next (hreset (x, i) (by simp))

/-- The filters have taken every word but one that closed with the last clock. -/
theorem received_eq (hspi : Spi.Inv x₀.enc.spi x₀.listener)
    (hbetween : x₀.enc.spi.transferReady = false) (r : Run (ledSystem.startedIn x₀) l x)
    (hreset : ∀ e ∈ l, e.2.axi.aresetn = true) : received (encSteps l) = heard l.dropLast := by
  cases r with
  | start _ => rfl
  | @step l x i r _ =>
      rw [List.dropLast_concat, received_concat]
      exact (heard_run hspi hbetween r fun e he =>
        hreset e (List.mem_append.mpr (Or.inl he))).words

/-! ### The knobs -/

/-- The pairs of encoder `k` in the words heard, after the one that was there. -/
def turned (k : Fin 3) (rx₀ : BitVec spiDataWidth) (words : List (BitVec spiDataWidth))
    (n : Nat) : Bool × Bool :=
  encPair k ((rx₀ :: words).getD n 0)

theorem encByte_of_heard (k : Fin 3) (hspi : Spi.Inv x₀.enc.spi x₀.listener)
    (hbetween : x₀.enc.spi.transferReady = false) (hset : x₀.enc.Settled k)
    (r : Run (ledSystem.startedIn x₀) l x) (hreset : ∀ e ∈ l, e.2.axi.aresetn = true)
    (hturn : Unhurried (turned k x₀.enc.spi.rxData (heard l)) (heard l).length) :
    x.enc.encByte k = x₀.enc.encByte k + BitVec.ofInt 8
      (position (turned k x₀.enc.spi.rxData (heard l))
        ((heard l.dropLast.dropLast).length - 3)) := by
  have hrec := received_eq hspi hbetween r hreset
  have hprefix := (heard_run hspi hbetween r hreset).words
  have renc : Run (encFrom x₀.enc) (encSteps l) x.enc := by
    refine r.project (N := encFrom x₀.enc) (fun x => x.enc) (fun x i => x.board.encIn i)
      ?_ (fun _ _ => rfl) ?_
    · intro s hs
      rw [show s = x₀ from hs]
      rfl
    · intro e he _
      show (!e.2.axi.aresetn) = false
      rw [hreset e he]
      rfl
  have hfew : frames (encSteps l) ≤ (heard l).length := by
    rw [← hprefix, List.length_append]
    exact Nat.le_add_right _ _
  have t := Run.tracks (p := turned k x₀.enc.spi.rxData (heard l)) hset renc rfl ?_
    (hturn.mono hfew)
  · have hlate : frames (encSteps l).dropLast = (heard l.dropLast.dropLast).length := by
      rcases List.eq_nil_or_concat l with rfl | ⟨l', e, rfl⟩
      · rfl
      · rw [List.concat_eq_append] at r hreset ⊢
        obtain ⟨r', -, -⟩ := r.of_concat
        have hbefore := received_eq hspi hbetween r' fun e he =>
          hreset e (List.mem_append.mpr (Or.inl he))
        rw [List.dropLast_concat, frames, ← hbefore, encSteps, List.map_append]
        simp only [List.map_cons, List.map_nil, List.dropLast_concat]
        rfl
    rw [EncBoard.encByte_eq, EncBoard.encByte_eq, t.qcount, hlate]
  · intro m w hw
    have hword : (heard l)[m]? = some w := by
      rw [← hprefix, List.getElem?_append_left]
      · exact hw
      · exact (List.getElem?_eq_some_iff.mp hw).1
    unfold turned
    rw [List.getD_cons_succ, List.getD_eq_getElem?_getD, hword]
    rfl

/-! ### Through the slave -/

/-- What the slave sees of a clock. -/
def busStep (e : WatchedBoard × BoardIn) : Axi.Watched 6 4 × (SlaveIn 6 × Inputs) :=
  (e.1.watch, (e.2.axi, inputs e.1.enc))

def busSteps (h : List (WatchedBoard × BoardIn)) :
    List (Axi.Watched 6 4 × (SlaveIn 6 × Inputs)) := h.map busStep

theorem busSteps_run {h : List (WatchedBoard × BoardIn)} {s : WatchedBoard}
    (r : Run ledSystem h s) : Run bank.watched (busSteps h) s.watch := by
  refine r.project (N := bank.watched) (fun x => x.watch) (fun x i => (i.axi, inputs x.enc))
    ?_ (fun _ _ => rfl) ?_
  · intro x hx
    exact AfterReset.watch hx
  · intro e _ ok
    exact ok

theorem slvReg9_byte (s : EncBoard) (k : Fin 3) :
    (slvReg9 (inputs s)).extractLsb' (8 * (2 - k.val)) 8 = s.encByte k := by
  apply BitVec.eq_of_getLsbD_eq
  intro j hj
  have hlow : 8 * (2 - k.val) + j < 24 := by omega
  rw [EncBoard.encByte, BitVec.getLsbD_extractLsb', BitVec.getLsbD_extractLsb', slvReg9,
    BitVec.getLsbD_append, if_pos hlow]
  rfl

/--
**A read tells the knobs and the keys.**  In every run of the board under a patient master,
take a stretch without reset that begins between frames, and a read taken after it.  In the
next clock word 8 shows keys, buttons and channels as the last frame of the stretch brought
them in.  In word 9, an encoder that was at rest when the stretch began and has been turned
without hurry has moved by exactly the steps of the frames heard, all but the last three, up
to the wrap of its byte.  No write changes any of it.
-/
theorem knobs_read {h : List (WatchedBoard × BoardIn)} {s : WatchedBoard}
    (r : Run ledSystem h s) (hpatient : ∀ e ∈ busSteps h, patient e.1 e.2)
    {e₀ e e' : WatchedBoard × BoardIn} {l : List (WatchedBoard × BoardIn)}
    (hseg : (e₀ :: l) ++ [e, e'] <:+: h) (hreset : ∀ d ∈ e₀ :: l, d.2.axi.aresetn = true)
    (hi : e.2.axi.aresetn = true) (hbetween : e₀.1.enc.spi.transferReady = false)
    (hread : arBeat e.1.watch.bank.axi e.2.axi = true) :
    e'.1.watch.bank.axi.axiRvalid = true ∧
    (locAddr 4 e.2.axi.araddr = 8#4 →
      ∃ w, w = (heard (e₀ :: l)).getLastD e₀.1.enc.spi.rxData ∧
        e'.1.watch.bank.axi.axiRdata
          = 0#7 ++ inEncDirect w ++ 0#12 ++ ~~~(w.extractLsb' 0 4)) ∧
    (locAddr 4 e.2.axi.araddr = 9#4 → ∀ k : Fin 3, e₀.1.enc.Settled k →
      Unhurried (turned k e₀.1.enc.spi.rxData (heard (e₀ :: l))) (heard (e₀ :: l)).length →
      e'.1.watch.bank.axi.axiRdata.extractLsb' (8 * (2 - k.val)) 8
        = e₀.1.enc.encByte k + BitVec.ofInt 8
            (position (turned k e₀.1.enc.spi.rxData (heard (e₀ :: l)))
              ((heard (e₀ :: l).dropLast.dropLast).length - 3))) := by
  have hpair : [e, e'] <:+: h := List.IsInfix.trans ⟨e₀ :: l, [], by simp⟩ hseg
  have htaken : readTaken e.1.watch.bank.axi e.2.axi (inputs e.1.enc)
      = some (e.2.axi.araddr, inputs e.1.enc) := if_pos hread
  have hbus : [busStep e, busStep e'] <:+: busSteps h := hpair.map busStep
  obtain ⟨hvalid, hdata⟩ := read_answered bank (busSteps_run r) hpatient hbus hi htaken
  have hstart : Spi.Inv e₀.1.enc.spi e₀.1.listener := by
    obtain ⟨h', r', -, -⟩ := r.of_mem e₀ (hseg.subset (by simp))
    exact (linked r').spi
  have hstretch : Run (ledSystem.startedIn e₀.1) (e₀ :: l) e.1 := by
    obtain ⟨s', r'⟩ := r.of_infix (l := l ++ [e, e']) hseg
    obtain ⟨s'', r'', rlast⟩ := Run.of_append (p := e₀ :: l) (q := [e, e']) r'
    obtain ⟨rfirst, -, -⟩ := Run.of_concat (h := [e]) rlast
    obtain ⟨rnone, -, -⟩ := Run.of_concat (h := []) rfirst
    rw [show e.1 = s'' from rnone.of_nil]
    exact r''
  refine ⟨hvalid, ?_, ?_⟩
  · intro hloc
    refine ⟨_, rfl, ?_⟩
    rw [← (heard_run hstart hbetween hstretch hreset).rxData]
    refine hdata.trans ?_
    show (if locAddr 4 e.2.axi.araddr = 8#4 then slvReg8 (inputs e.1.enc) else _) = _
    rw [if_pos hloc]
    rfl
  · intro hloc k hset hturn
    rw [← encByte_of_heard k hstart hbetween hset hstretch hreset hturn, ← slvReg9_byte]
    refine (congrArg (BitVec.extractLsb' _ 8) hdata).trans ?_
    show BitVec.extractLsb' _ _ (if locAddr 4 e.2.axi.araddr = 8#4 then _ else
      if locAddr 4 e.2.axi.araddr = 9#4 then slvReg9 (inputs e.1.enc) else _) = _
    rw [if_neg (by rw [hloc]; decide), if_pos hloc]

/-- After a reset with the knobs at rest where the empty word has them. -/
def knobsAtRest : WatchedBoard :=
  { afterReset with
    enc :=
      { spi := SpiFsm.reset spiClkDiv
        enc := fun _ =>
          let filt : Dff3cke := ⟨true, true, true, true, false, false⟩
          { filtCha := filt, filtChb := filt, filtSw := filt
            qcounter := ⟨true, true, true, true, 0⟩ } } }

def knobsIn (spiLedEncin arvalid : Bool) : BoardIn where
  axi := { (writeWord 0 0 false).axi with araddr := 0x24#6, arvalid := arvalid }
  spiLedEncin := spiLedEncin

/-- Channel A of encoder 1 is low from the first frame on; this is one frame. -/
def quarterFrame : List BoardIn :=
  List.replicate 150 (knobsIn false false) ++ List.replicate 20 (knobsIn true false)
    ++ List.replicate 810 (knobsIn false false)

/-- Four such frames and the offer of a read. -/
def quarterInputs : List BoardIn :=
  quarterFrame ++ quarterFrame ++ quarterFrame ++ quarterFrame
    ++ List.replicate 20 (knobsIn false false) ++ [knobsIn false true]

def restStep : WatchedBoard × BoardIn := (knobsAtRest, knobsIn false false)

def quarterSteps : List (WatchedBoard × BoardIn) :=
  ledSystem.steps (ledSystem.next restStep.1 restStep.2) quarterInputs

theorem restStep_quarterSteps :
    restStep :: quarterSteps = ledSystem.steps knobsAtRest (restStep.2 :: quarterInputs) := by
  rw [System.steps_cons]
  rfl

/-- The read is taken. -/
def readStep : WatchedBoard × BoardIn :=
  (ledSystem.runFrom (ledSystem.next restStep.1 restStep.2) quarterInputs, knobsIn false true)

def answerStep : WatchedBoard × BoardIn :=
  (ledSystem.next readStep.1 readStep.2, knobsIn false false)

set_option maxRecDepth 20000 in
theorem knobs_read_quarter :
    answerStep.1.watch.bank.axi.axiRvalid = true ∧
    answerStep.1.watch.bank.axi.axiRdata.extractLsb' 16 8 = knobsAtRest.enc.encByte 0 + 1#8 := by
  have hrun := ledSystem.run_of_steps
    (restStep.2 :: quarterInputs ++ [readStep.2, answerStep.2])
    (Run.start (s := knobsAtRest) ⟨rfl, rfl, rfl, rfl⟩) (by decide +kernel)
  have hpatient : ∀ e ∈ busSteps ([] ++ ledSystem.steps knobsAtRest
      (restStep.2 :: quarterInputs ++ [readStep.2, answerStep.2])), patient e.1 e.2 := by
    intro e he
    obtain ⟨d, hd, rfl⟩ := List.mem_map.mp he
    have htakes : ∀ i ∈ restStep.2 :: quarterInputs ++ [readStep.2, answerStep.2],
        i.axi.bready = true ∧ i.axi.rready = true := by decide +kernel
    obtain ⟨hb, hr⟩ := htakes d.2 (ledSystem.snd_mem_of_mem_steps hd)
    exact fun _ => ⟨fun _ => Or.inl hb, fun _ => Or.inl hr⟩
  have hreset : ∀ d ∈ restStep :: quarterSteps, d.2.axi.aresetn = true := by
    have hout : ∀ i ∈ restStep.2 :: quarterInputs, i.axi.aresetn = true := by decide +kernel
    intro d hd
    rw [restStep_quarterSteps] at hd
    exact hout d.2 (ledSystem.snd_mem_of_mem_steps hd)
  have hseg : (restStep :: quarterSteps) ++ [readStep, answerStep]
      <:+: [] ++ ledSystem.steps knobsAtRest
        (restStep.2 :: quarterInputs ++ [readStep.2, answerStep.2]) := by
    have hthere : ledSystem.runFrom knobsAtRest (restStep.2 :: quarterInputs) = readStep.1 := by
      rw [System.runFrom_cons]
      rfl
    rw [System.steps_append, ← restStep_quarterSteps, hthere, System.steps_cons, System.steps_cons]
    exact ⟨[], [], List.append_nil _⟩
  obtain ⟨hvalid, -, hword⟩ := knobs_read hrun hpatient hseg hreset rfl rfl (by decide +kernel)
  refine ⟨hvalid, ?_⟩
  have hset : restStep.1.enc.Settled 0 := by
    refine ⟨?_, ?_, rfl, rfl⟩
    · decide
    · decide
  have hheard : heard (restStep :: quarterSteps) = [0x40, 0x40, 0x40, 0x40] := by decide +kernel
  have hlate : (heard (restStep :: quarterSteps).dropLast.dropLast).length = 4 := by
    decide +kernel
  have hbyte := hword (by decide) 0 hset
  rw [hheard, hlate] at hbyte
  refine hbyte ⟨?_, ?_⟩
  · decide
  · have honce : ∀ k < 4, turned 0 restStep.1.enc.spi.rxData [0x40, 0x40, 0x40, 0x40] (k + 1)
        ≠ turned 0 restStep.1.enc.spi.rxData [0x40, 0x40, 0x40, 0x40] k → k = 0 := by decide
    have hstays : ∀ j < 5, 1 ≤ j → turned 0 restStep.1.enc.spi.rxData [0x40, 0x40, 0x40, 0x40] j
        = turned 0 restStep.1.enc.spi.rxData [0x40, 0x40, 0x40, 0x40] 1 := by decide
    intro k hk hne j h1 _ h3
    obtain rfl := honce k hk hne
    exact hstays j (Nat.lt_succ_of_le h3) h1

end CanBench.Leds
