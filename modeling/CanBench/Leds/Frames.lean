/-
What one frame carries to the LEDs.

The SPI master takes its word at the end of the frame before, all 48 bits in one clock, and
shifts out what it took.  So the LEDs of a frame are those of one moment, however the
registers are written while the frame is on its way: `frame_untorn`.
-/
import CanBench.Leds.Board

namespace CanBench.Leds

open Lib Axi Spi Pwm Encoder

/-- The word for the LEDs, from the registers and the six RGB signals. -/
def ledWord (slvReg : BitVec 4 → BitVec 32) (rgb : Fin 6 → Bool) : BitVec 48 :=
  let direct : BitVec 8 := (slvReg 6).extractLsb' 0 8
  0#1 ++ BitVec.ofFnLE (fun k : Fin 3 => direct.getLsbD k.val || rgb (Fin.castAdd 3 k)) ++ 0#2
    ++ BitVec.ofBool (direct.getLsbD 7) ++ BitVec.ofBool (direct.getLsbD 6) ++ slvReg 1 ++ 0#1
    ++ ~~~((slvReg 6).extractLsb' 8 4)
    ++ BitVec.ofFnLE (fun k : Fin 3 => direct.getLsbD (k.val + 3) || rgb (Fin.addNat k 3))

theorem spiTxData_eq (b : Board) (i : BoardIn) :
    b.spiTxData i = ledWord b.s00.slvReg (b.pwmRgbSig i) := rfl

/-- The SPI master takes its next word in this clock. -/
def takes (e : WatchedBoard × BoardIn) : Bool :=
  e.2.axi.aresetn && decide (e.1.enc.spi.divCnt = 0) && !e.1.enc.spi.clkPhase
    && decide (e.1.enc.spi.dataCnt = 0)

/-- The word of the frame that is due or on its way. -/
def frameWord (x : WatchedBoard) : Option (BitVec spiDataWidth) :=
  if x.enc.spi.spiCs = false then some x.listener.word
  else if x.enc.spi.dataCnt = spiDataWidth then some x.enc.spi.shiftReg
  else none

/-- The listener hears the SPI master, and what is on its way was taken at the last
occasion. -/
structure Linked (h : List (WatchedBoard × BoardIn)) (x : WatchedBoard) : Prop where
  spi : Spi.Inv x.enc.spi x.listener
  word : ∀ w, frameWord x = some w →
    ∃ e₀ ∈ (h.filter takes).getLast?, w = e₀.1.board.spiTxData e₀.2
  file : x.watch.Agreed

variable {h : List (WatchedBoard × BoardIn)} {x : WatchedBoard} {i : BoardIn}

theorem linked_start (hx : AfterReset x) : Linked [] x := by
  refine ⟨?_, ?_, ?_⟩
  · rw [hx.spi]
    exact inv_reset
  · intro w hw
    simp [frameWord, hx.spi, SpiFsm.reset, spiDataWidth] at hw
  · rw [hx.watch]
    exact Axi.Watched.reset_agreed bank

/-- The SPI master between the two halves of the board. -/
theorem next_spi (x : WatchedBoard) (i : BoardIn) :
    (ledSystem.next x i).enc.spi
      = x.enc.spi.next spiClkDiv (EncBoard.spiIn (x.board.encIn i)) := rfl

theorem next_listener (hi : i.axi.aresetn = true) :
    (ledSystem.next x i).listener = x.listener.next x.enc.spi
      (EncBoard.spiIn (x.board.encIn i)) (ledSystem.next x i).enc.spi := by
  show (if !i.axi.aresetn then deaf else _) = _
  rw [hi]
  rfl

theorem spiIn_running (hi : i.axi.aresetn = true) :
    (EncBoard.spiIn (x.board.encIn i)).resetIn = false ∧
      (EncBoard.spiIn (x.board.encIn i)).clkEn = true := by
  refine ⟨?_, rfl⟩
  show (!i.axi.aresetn) = false
  rw [hi]
  rfl

theorem filter_takes_concat (hno : takes (x, i) = false) :
    (h ++ [(x, i)]).filter takes = h.filter takes := by
  simp [List.filter_append, hno]

/-- A word that stays on its way. -/
theorem Linked.word_kept (hx : Linked h x) (hno : takes (x, i) = false) {y : WatchedBoard}
    (hword : ∀ w, frameWord y = some w → frameWord x = some w) :
    ∀ w, frameWord y = some w → ∃ e₀ ∈ ((h ++ [(x, i)]).filter takes).getLast?,
      w = e₀.1.board.spiTxData e₀.2 := by
  intro w hw
  rw [filter_takes_concat hno]
  exact hx.word w (hword w hw)

theorem linked_reset (hx : x.watch.Agreed) (ok : ledSystem.allowed x i)
    (hi : i.axi.aresetn = false) : Linked (h ++ [(x, i)]) (ledSystem.next x i) := by
  have hspi : (ledSystem.next x i).enc.spi = SpiFsm.reset spiClkDiv := by
    rw [next_spi, SpiFsm.next, if_pos]
    show (!i.axi.aresetn) = true
    rw [hi]
    rfl
  refine ⟨?_, ?_, hx.next bank ok⟩
  · rw [hspi]
    exact inv_reset
  · intro w hw
    simp [frameWord, hspi, SpiFsm.reset, spiDataWidth] at hw

/-- One clock out of reset. -/
theorem Linked.next (hx : Linked h x) (ok : ledSystem.allowed x i)
    (hi : i.axi.aresetn = true) : Linked (h ++ [(x, i)]) (ledSystem.next x i) := by
  obtain ⟨hr, hen⟩ := spiIn_running (x := x) hi
  have hspi : Spi.Inv (ledSystem.next x i).enc.spi (ledSystem.next x i).listener := by
    rw [next_listener hi, next_spi]
    exact (inv_next (by decide) hx.spi hr hen).2
  have hlistener := next_listener (x := x) hi
  refine ⟨hspi, ?_, hx.file.next bank ok⟩
  rcases SpiFsm.next_cases spiClkDiv x.enc.spi hr hen with ⟨hdiv, hs⟩ | ⟨hdiv, hphase, hs⟩ |
    ⟨hdiv, hphase, hcnt, hs⟩ | ⟨hdiv, hphase, hcnt, hs⟩
  · refine hx.word_kept (by simp [takes, hdiv]) ?_
    have hsame : (ledSystem.next x i).listener = x.listener := by
      rw [hlistener, next_spi, hs]
      exact Watch.next_still rfl rfl
    intro w hw
    rwa [frameWord, hsame, next_spi, hs] at hw
  · refine hx.word_kept (by simp [takes, hphase]) ?_
    have hlow : x.enc.spi.spiClk = false := by rw [hx.spi.clk, hphase]; rfl
    have hsame : (ledSystem.next x i).listener.word = x.listener.word := by
      have hrise := Watch.next_rise (w := x.listener) (i := EncBoard.spiIn (x.board.encIn i))
        (show x.enc.spi.spiClk = false from hlow)
        (show (x.enc.spi.rise spiClkDiv (EncBoard.spiIn (x.board.encIn i))).spiClk = true from rfl)
        rfl
      rw [hlistener, next_spi, hs, hrise]
    intro w hw
    rw [frameWord, hsame, next_spi, hs] at hw
    rcases hx.spi.stands with hst | hst | ⟨n, hst⟩
    · simp [SpiFsm.rise, hst.cs, hst.cnt, spiDataWidth] at hw
    · -- the word waiting is not shifted before its frame opens
      simpa [frameWord, SpiFsm.rise, hst.cs, hst.cnt, hst.idle] using hw
    · simpa [frameWord, SpiFsm.rise, hst.cs] using hw
  · intro w hw
    have htakes : takes (x, i) = true := by simp [takes, hi, hdiv, hphase, hcnt]
    rw [frameWord, next_spi, hs] at hw
    refine ⟨(x, i), by simp [List.filter_append, htakes], ?_⟩
    have hword : some (x.board.spiTxData i) = some w := by
      simpa [SpiFsm.fallIdle, EncBoard.spiIn, Board.encIn, spiDataWidth] using hw
    exact (Option.some.inj hword).symm
  · refine hx.word_kept (by simp [takes, hcnt]) ?_
    have hhigh : x.enc.spi.spiClk = true := by rw [hx.spi.clk, hphase]; rfl
    intro w hw
    rw [frameWord, hlistener, next_spi, hs] at hw
    rcases hx.spi.stands with hst | hst | ⟨n, hst⟩
    · exact absurd hst.cnt hcnt
    · rw [Watch.next_open hhigh rfl (by simp [opens, SpiFsm.fallSend, hst.cs]) hst.word] at hw
      simpa [frameWord, SpiFsm.fallSend, hst.cs, hst.cnt] using hw
    · rw [Watch.next_fall hhigh rfl (by simp [opens, SpiFsm.fallSend, hst.cs])] at hw
      simpa [frameWord, SpiFsm.fallSend, hst.cs] using hw

theorem linked {s : WatchedBoard} (r : Run ledSystem h s) : Linked h s := by
  induction r with
  | start hs => exact linked_start hs
  | @step h x i r ok ih =>
      rcases Bool.eq_false_or_eq_true i.axi.aresetn with hi | hi
      · exact ih.next ok hi
      · exact linked_reset ih.file ok hi

/--
**Frames are not torn.**  When a frame closes, in any run and whatever is written while it
is on its way, its 48 rising edges have shown the word made of the registers and the RGB
signals of one single clock, the last one before it at which the SPI master took a word;
and what came in during those edges is in the register it is read from.
-/
theorem frame_untorn {s : WatchedBoard} (r : Run ledSystem h s) (hi : i.axi.aresetn = true)
    (hclose : closes s.enc.spi (ledSystem.next s i).enc.spi = true) :
    s.listener.bits.length = spiDataWidth ∧
    (∃ e₀ ∈ (h.filter takes).getLast?, wordOf (s.listener.bits.map Prod.fst)
      = ledWord e₀.1.watch.served.file (e₀.1.board.pwmRgbSig e₀.2)) ∧
    (ledSystem.next s i).enc.spi.rxData = wordOf (s.listener.bits.map Prod.snd) ∧
    (ledSystem.next s i).enc.spi.transferReady = true := by
  have hs := linked r
  obtain ⟨hr, hen⟩ := spiIn_running (x := s) hi
  obtain ⟨hlen, hrx, hready⟩ := (inv_next (by decide) hs.spi hr hen).1.closed hclose
  have hopen : s.enc.spi.spiCs = false := by
    rw [closes, Bool.and_eq_true] at hclose
    simpa using hclose.1
  have hframe : frameWord s = some s.listener.word := by rw [frameWord, if_pos hopen]
  obtain ⟨e₀, he₀, hword⟩ := hs.word _ hframe
  refine ⟨hlen, ⟨e₀, he₀, ?_⟩, hrx, hready⟩
  have hfile : e₀.1.watch.bank.slvReg = e₀.1.watch.served.file := by
    have hmem : e₀ ∈ h := List.mem_of_mem_filter (List.mem_of_getLast? he₀)
    obtain ⟨h', r', -, -⟩ := r.of_mem e₀ hmem
    exact (linked r').file.file
  rw [← hfile]
  show _ = e₀.1.board.spiTxData e₀.2
  rw [← hword]
  rcases hs.spi.stands with hst | hst | ⟨n, hst⟩
  · rw [hst.cs] at hopen
    exact absurd hopen (by simp)
  · rw [hst.cs] at hopen
    exact absurd hopen (by simp)
  · apply BitVec.eq_of_getLsbD_eq
    intro k hk
    rw [getLsbD_wordOf _ hk]
    exact hst.shown k (by rw [hlen]; exact hk)

/-- The LED line is written before the first word is taken, and again during its frame. -/
def lineInputs : List BoardIn :=
  List.replicate 2 (writeWord 0x04#6 5#32 true) ++ List.replicate 98 (writeWord 0 0 false)
    ++ List.replicate 2 (writeWord 0x04#6 7#32 true) ++ List.replicate 887 (writeWord 0 0 false)

set_option maxRecDepth 10000 in
theorem frame_untorn_line :
    ∃ rgb, wordOf ((ledSystem.runFrom afterReset lineInputs).listener.bits.map Prod.fst)
        = ledWord (fun loc => if loc = 1#4 then 5#32 else 0#32) rgb ∧
      (ledSystem.runFrom afterReset lineInputs).watch.served.file 1#4 = 7#32 := by
  have hrun := ledSystem.run_of_steps lineInputs (Run.start afterReset_init) (by decide +kernel)
  obtain ⟨-, ⟨e₀, he₀, hword⟩, -, -⟩ := frame_untorn hrun
    (show (writeWord 0 0 false).axi.aresetn = true from rfl) (by decide +kernel)
  have hlast : ∀ e ∈ (([] ++ ledSystem.steps afterReset lineInputs).filter takes).getLast?,
      ∀ loc, e.1.watch.served.file loc = if loc = 1#4 then 5#32 else 0#32 := by
    decide +kernel
  refine ⟨e₀.1.board.pwmRgbSig e₀.2, ?_, by decide +kernel⟩
  rw [hword]
  congr 1
  funext loc
  exact hlast e₀ he₀ loc

end CanBench.Leds
