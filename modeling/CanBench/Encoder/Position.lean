/-
From the frames received to the position register.

The pair of an encoder is taken in with each frame and comes out of its two filters three
frames later: as long as a new pair stays for three frames, the filters do nothing but
delay, and neither of them overtakes the other.  The counter looks at the filtered pair a
clock after that and turns by as much as the pair does, in both directions and across the
wrap of its upper bits.
-/
import CanBench.Encoder.Counter
import CanBench.Encoder.Filter
import CanBench.Lib.Runs

namespace CanBench.Encoder

open Lib Spi

/-! ### The filter delays -/

namespace Dff3cke

variable {s : Dff3cke} {q : Nat → Bool} {n : Nat}

/-- The filter holds the newest four of a sequence of samples, the oldest at its output. -/
structure Holds (s : Dff3cke) (q : Nat → Bool) (n : Nat) : Prop where
  dr : s.dr = q n
  d2r : s.d2r = q (n - 1)
  d3r : s.d3r = q (n - 2)
  dataS : s.dataS = q (n - 3)

/-- At rest it holds the same sample throughout. -/
theorem Holds.settled (h : ∀ b ∈ [s.dr, s.d2r, s.d3r, s.qO], b = q 0) : s.Holds q 0 :=
  ⟨h _ (by simp), h _ (by simp), h _ (by simp), h s.qO (by simp)⟩

theorem Holds.next_disabled (h : s.Holds q n) (dI : Bool) : (s.next false dI).Holds q n :=
  ⟨h.dr, h.d2r, h.d3r, h.dataS⟩

/-- The output follows if the three samples are equal, or if it does not have to. -/
theorem Holds.next_enabled (h : s.Holds q n)
    (hwindow : (q (n - 2) = q (n - 1) ∧ q (n - 1) = q n) ∨ q (n - 3) = q (n - 2)) :
    (s.next true (q (n + 1))).Holds q (n + 1) := by
  have hout : (s.next true (q (n + 1))).dataS = q (n - 2) := by
    show (s.next true (q (n + 1))).qO = q (n - 2)
    rw [qO_next_enabled, h.d3r, h.d2r, h.dr]
    by_cases hsame : q (n - 2) = q (n - 1) ∧ q (n - 1) = q n
    · rw [if_pos hsame]
    · rw [if_neg hsame]
      exact h.dataS.trans (hwindow.resolve_left hsame)
  obtain ⟨h3, h2, h1⟩ := shift_next (s := s) (q (n + 1))
  exact ⟨h1, h2.trans h.dr, h3.trans h.d2r, hout⟩

theorem Holds.next (h : s.Holds q n) {clkEn dI : Bool} (hnew : clkEn = true → dI = q (n + 1))
    (hwindow : (q (n - 2) = q (n - 1) ∧ q (n - 1) = q n) ∨ q (n - 3) = q (n - 2)) :
    (s.next clkEn dI).Holds q (n + clkEn.toNat) := by
  cases clkEn with
  | false => exact h.next_disabled dI
  | true =>
      rw [hnew rfl]
      exact h.next_enabled hwindow

end Dff3cke

/-! ### Frames -/

/-- The words taken from the SPI master along a run: one per clock with `transfer_ready`. -/
def received (h : List (EncBoard × EncBoardIn)) : List (BitVec spiDataWidth) :=
  h.filterMap fun e => if e.1.spi.transferReady then some e.1.spi.rxData else none

/-- How many there were. -/
def frames (h : List (EncBoard × EncBoardIn)) : Nat := (received h).length

/-- The pair of encoder `i` in a word. -/
def encPair (i : Fin 3) (spiRxData : BitVec spiDataWidth) : Bool × Bool :=
  (encCha spiRxData i, encChb spiRxData i)

/-- The pairs decoded from the word that `rx_data` held at the start and from those that
came after it. -/
def decoded (i : Fin 3) (s₀ : EncBoard) (h : List (EncBoard × EncBoardIn)) (k : Nat) :
    Bool × Bool :=
  encPair i ((s₀.spi.rxData :: received h).getD k 0)

/-- The board from a given state on, without a reset. -/
def encFrom (s₀ : EncBoard) : System EncBoard EncBoardIn where
  init := fun s => s = s₀
  allowed := fun _ i => i.fsmRst = false
  next := EncBoard.next

namespace EncBoard

/-- `(enc_cha_filt(i), enc_chb_filt(i))`. -/
def filtered (i : Fin 3) (s : EncBoard) : Bool × Bool :=
  ((s.enc i).filtCha.qO, (s.enc i).filtChb.qO)

/-- The byte of `in_enc_8bit` that belongs to an encoder. -/
def encByte (i : Fin 3) (s : EncBoard) : BitVec 8 := s.inEnc8bit.extractLsb' (8 * (2 - i.val)) 8

theorem encByte_eq (i : Fin 3) (s : EncBoard) : s.encByte i = (s.enc i).qcounter.qcount := by
  apply BitVec.eq_of_getLsbD_eq
  intro k hk
  have hi := i.isLt
  have hbyte : 2 - (8 * (2 - i.val) + k) / 8 = i.val := by omega
  have hbit : (8 * (2 - i.val) + k) % 8 = k := by omega
  have hlt : 8 * (2 - i.val) + k < 24 := by omega
  rw [encByte, BitVec.getLsbD_extractLsb', decide_eq_true hk, Bool.true_and,
    BitVec.getLsbD_eq_getElem hlt, inEnc8bit, BitVec.getElem_ofFnLE]
  simp only [hbyte, hbit]

/-- Filters and counter of an encoder have come to rest on the pair in `rx_data`. -/
structure Settled (i : Fin 3) (s : EncBoard) : Prop where
  filtCha : ∀ b ∈ [(s.enc i).filtCha.dr, (s.enc i).filtCha.d2r, (s.enc i).filtCha.d3r,
    (s.enc i).filtCha.qO], b = encCha s.spi.rxData i
  filtChb : ∀ b ∈ [(s.enc i).filtChb.dr, (s.enc i).filtChb.d2r, (s.enc i).filtChb.d3r,
    (s.enc i).filtChb.qO], b = encChb s.spi.rxData i
  ab : ((s.enc i).qcounter.a, (s.enc i).qcounter.b) = encPair i s.spi.rxData
  abPrev : ((s.enc i).qcounter.aPrev, (s.enc i).qcounter.bPrev) = encPair i s.spi.rxData

end EncBoard

variable {i : Fin 3} {s₀ s : EncBoard} {h : List (EncBoard × EncBoardIn)}

/-- Where a run has got to: `p` is the sequence of pairs, and the counter is a clock
behind the filters. -/
structure Tracks (i : Fin 3) (p : Nat → Bool × Bool) (s₀ : EncBoard)
    (h : List (EncBoard × EncBoardIn)) (s : EncBoard) : Prop where
  filtCha : (s.enc i).filtCha.Holds (fun k => (p k).1) (frames h)
  filtChb : (s.enc i).filtChb.Holds (fun k => (p k).2) (frames h)
  ab : ((s.enc i).qcounter.a, (s.enc i).qcounter.b) = p (frames h.dropLast - 3)
  qcount : (s.enc i).qcounter.qcount = (s₀.enc i).qcounter.qcount
    + BitVec.ofInt 8 (position p (frames h.dropLast - 3))

/-- The filtered pair is the one of three frames ago. -/
theorem Tracks.filtered {p : Nat → Bool × Bool} (t : Tracks i p s₀ h s) :
    s.filtered i = p (frames h - 3) := by
  show ((s.enc i).filtCha.dataS, (s.enc i).filtChb.dataS) = _
  rw [t.filtCha.dataS, t.filtChb.dataS]

theorem tracks_start {p : Nat → Bool × Bool} (hset : s₀.Settled i)
    (hp : p 0 = encPair i s₀.spi.rxData) : Tracks i p s₀ [] s₀ := by
  have hcha : encCha s₀.spi.rxData i = (p 0).1 := by rw [hp]; rfl
  have hchb : encChb s₀.spi.rxData i = (p 0).2 := by rw [hp]; rfl
  refine ⟨Dff3cke.Holds.settled fun b hb => (hset.filtCha b hb).trans hcha,
    Dff3cke.Holds.settled fun b hb => (hset.filtChb b hb).trans hchb, hset.ab.trans hp.symm, ?_⟩
  show _ = _ + BitVec.ofInt 8 0
  simp

theorem frames_concat (j : EncBoardIn) :
    frames (h ++ [(s, j)]) = frames h + s.spi.transferReady.toNat := by
  unfold frames received
  rw [List.filterMap_append, List.length_append]
  cases hready : s.spi.transferReady with
  | false => simp [hready]
  | true => simp [hready]

/-- At most one frame is taken in a clock. -/
theorem frames_dropLast (h : List (EncBoard × EncBoardIn)) :
    frames h = frames h.dropLast ∨ frames h = frames h.dropLast + 1 := by
  rcases List.eq_nil_or_concat h with rfl | ⟨h', ⟨s, j⟩, rfl⟩
  · exact Or.inl rfl
  · rw [List.concat_eq_append, frames_concat, List.dropLast_concat]
    cases s.spi.transferReady with
    | false => exact Or.inl rfl
    | true => exact Or.inr rfl

/-- Between two clocks the filtered pair makes one step of the sequence or none. -/
theorem position_dropLast {p : Nat → Bool × Bool} (hp : Unhurried p (frames h)) :
    Adjacent (p (frames h.dropLast - 3)) (p (frames h - 3)) ∧
    position p (frames h - 3) = position p (frames h.dropLast - 3)
      + quarter (p (frames h.dropLast - 3)) (p (frames h - 3)) := by
  by_cases hsame : frames h - 3 = frames h.dropLast - 3
  · rw [hsame, quarter_self, add_zero]
    exact ⟨Or.inl rfl, rfl⟩
  · have hone : frames h - 3 = frames h.dropLast - 3 + 1 := by
      have := frames_dropLast h
      omega
    rw [hone]
    exact ⟨hp.adjacent _ (by omega), rfl⟩

/-- One clock: the filters take in what the next frame brings, the counter what the filters
show. -/
theorem Tracks.step {p : Nat → Bool × Bool} {j : EncBoardIn} (t : Tracks i p s₀ h s)
    (hp : Unhurried p (frames h)) (hrst : j.fsmRst = false)
    (hnew : s.spi.transferReady = true → encPair i s.spi.rxData = p (frames h + 1)) :
    Tracks i p s₀ (h ++ [(s, j)]) (s.next j) := by
  obtain ⟨hadj, hpos⟩ := position_dropLast hp
  have hfilt := t.filtered
  refine ⟨?_, ?_, ?_, ?_⟩
  · rw [frames_concat]
    refine t.filtCha.next (fun hready => congrArg Prod.fst (hnew hready)) ?_
    exact hp.window.imp (fun hw => ⟨congrArg Prod.fst hw.1, congrArg Prod.fst hw.2⟩)
      (congrArg Prod.fst)
  · rw [frames_concat]
    refine t.filtChb.next (fun hready => congrArg Prod.snd (hnew hready)) ?_
    exact hp.window.imp (fun hw => ⟨congrArg Prod.snd hw.1, congrArg Prod.snd hw.2⟩)
      (congrArg Prod.snd)
  · rw [List.dropLast_concat]
    exact hfilt
  · rw [List.dropLast_concat, hpos, BitVec.ofInt_add, ← BitVec.add_assoc, ← t.qcount]
    show ((s.enc i).qcounter.next j.fsmRst _ _).qcount = _
    rw [hrst]
    rw [← t.ab, ← hfilt] at hadj ⊢
    exact Qcounter.qcount_next (by omega) hadj

theorem Run.tracks {p : Nat → Bool × Bool} (hset : s₀.Settled i) (r : Run (encFrom s₀) h s)
    (hstart : p 0 = encPair i s₀.spi.rxData)
    (hframes : ∀ k w, (received h)[k]? = some w → p (k + 1) = encPair i w)
    (hp : Unhurried p (frames h)) : Tracks i p s₀ h s := by
  induction r with
  | start hs =>
      obtain rfl : _ = s₀ := hs
      exact tracks_start hset hstart
  | @step h s j r ok ih =>
      have hle : frames h ≤ frames (h ++ [(s, j)]) := by
        rw [frames_concat]
        exact Nat.le_add_right _ _
      have hrec : received (h ++ [(s, j)]) = received h ++ received [(s, j)] :=
        List.filterMap_append ..
      have t := ih (fun k w hw => hframes k w ?_) (hp.mono hle)
      · refine t.step (hp.mono hle) ok fun hready => ?_
        refine (hframes (frames h) s.spi.rxData ?_).symm
        rw [hrec, frames, List.getElem?_append_right (Nat.le_refl _)]
        simp [received, hready]
      · rw [hrec, List.getElem?_append_left]
        · exact hw
        · exact (List.getElem?_eq_some_iff.mp hw).1

/--
**The register follows the encoder.**  From a settled state on, for any number of frames, as
long as the pair decoded moves by a step at a time and stays for three frames: the filtered
pair is the one decoded three frames before, and the byte has moved by the steps the counter
has been shown, one clock behind the filters.  Nothing is asked of the other encoders.
-/
theorem encByte_follows (hset : s₀.Settled i) (r : Run (encFrom s₀) h s)
    (hp : Unhurried (decoded i s₀ h) (frames h)) :
    s.filtered i = decoded i s₀ h (frames h - 3) ∧
    s.encByte i
      = s₀.encByte i + BitVec.ofInt 8 (position (decoded i s₀ h) (frames h.dropLast - 3)) := by
  have t : Tracks i (decoded i s₀ h) s₀ h s := by
    refine Run.tracks hset r rfl (fun k w hw => ?_) hp
    unfold decoded
    rw [List.getD_cons_succ, List.getD_eq_getElem?_getD, hw]
    rfl
  rw [EncBoard.encByte_eq, EncBoard.encByte_eq]
  exact ⟨t.filtered, t.qcount⟩

/-- Encoder 1 at rest on the last quarter of a turn, the end of a frame of ones due. -/
def lastQuarter : EncBoard where
  spi := { (SpiFsm.reset spiClkDiv : SpiFsm spiDataWidth) with
    divCnt := 0, inProgress := true, transferReady := true, rxData := 0x40, shiftReg := -1 }
  enc := fun _ =>
    { filtCha := ⟨false, false, false, false, false, false⟩
      filtChb := ⟨true, true, true, true, false, false⟩
      filtSw := ⟨false, false, false, false, false, false⟩
      qcounter := ⟨false, true, false, true, 0⟩ }

/-- Four frames of ones. -/
def turnOn : List EncBoardIn := List.replicate 2950 ⟨false, true, 0⟩

/-- The pairs they bring. -/
def seen (k : Nat) : Bool × Bool := encPair 0 ([0x40, 0x40, -1, -1, -1, -1].getD k 0)

set_option maxRecDepth 10000 in
/-- The step passes the filters and carries into the upper bits. -/
theorem lastQuarter_turned :
    ((encFrom lastQuarter).runFrom lastQuarter turnOn).filtered 0 = (false, false) ∧
    ((encFrom lastQuarter).runFrom lastQuarter turnOn).encByte 0 = lastQuarter.encByte 0 + 1 := by
  have hsettled : lastQuarter.Settled 0 := by
    refine ⟨?_, ?_, rfl, rfl⟩
    · decide
    · decide
  have hallowed : ∀ e ∈ (encFrom lastQuarter).steps lastQuarter turnOn, e.2.fsmRst = false := by
    decide +kernel
  have hrec : received ((encFrom lastQuarter).steps lastQuarter turnOn)
      = [0x40, -1, -1, -1, -1] := by decide +kernel
  have hlast : frames ((encFrom lastQuarter).steps lastQuarter turnOn).dropLast = 5 := by
    decide +kernel
  have r : Run (encFrom lastQuarter) ((encFrom lastQuarter).steps lastQuarter turnOn) _ :=
    (encFrom lastQuarter).run_of_steps turnOn (Run.start rfl) hallowed
  have hpairs : decoded 0 lastQuarter ((encFrom lastQuarter).steps lastQuarter turnOn)
      = seen := by
    unfold decoded
    rw [hrec]
    rfl
  have hunhurried : Unhurried (decoded 0 lastQuarter
      ((encFrom lastQuarter).steps lastQuarter turnOn))
      (frames ((encFrom lastQuarter).steps lastQuarter turnOn)) := by
    have honce : ∀ k < 5, seen (k + 1) ≠ seen k → k = 1 := by decide
    have hstays : ∀ j < 6, 2 ≤ j → seen j = seen 2 := by decide
    rw [hpairs, frames, hrec]
    refine ⟨by decide, fun k hk hne j h1 _ h3 => ?_⟩
    obtain rfl := honce k hk hne
    exact hstays j (Nat.lt_succ_of_le h3) h1
  have hfollows := encByte_follows hsettled r hunhurried
  rw [hlast, hpairs, frames, hrec] at hfollows
  exact hfollows

end CanBench.Encoder
