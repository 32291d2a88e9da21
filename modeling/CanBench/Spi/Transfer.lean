/-
What the pins and the ports of the SPI master show of a transfer.

`Watch` is a listener that sees nothing of the state machine but its pins: it notes the
request and the word offered at the last falling edge of `spi_clk`, the word that was
offered at the falling edge before the one that opened the frame, and the two data pins at
each rising edge of the frame.  `Transfers` is what every clock must show it.

The invariant follows the shift register through a frame.  After `n` falling edges the
bits left to send have moved down by `n`, and the bits received stand above them in the
order they came.  When none are left to send the register holds what was received.
-/
import CanBench.Lib.Runs
import CanBench.Spi.SpiFsm

namespace CanBench.Spi

open Lib

variable {dataWidth : Nat}

/-! ### The listener -/

structure Watch (dataWidth : Nat) where
  /-- `trasfer_rq` and `tx_data` at the last falling edge. -/
  lastFall : Option (Bool × BitVec dataWidth)
  /-- The word of the frame. -/
  word : BitVec dataWidth
  /-- `spi_mosi` and `spi_miso` at the rising edges of the frame. -/
  bits : List (Bool × Bool)

def falls (s s' : SpiFsm dataWidth) : Bool := s.spiClk && !s'.spiClk
def rises (s s' : SpiFsm dataWidth) : Bool := !s.spiClk && s'.spiClk
def opens (s s' : SpiFsm dataWidth) : Bool := s.spiCs && !s'.spiCs
def closes (s s' : SpiFsm dataWidth) : Bool := !s.spiCs && s'.spiCs

def Watch.next (w : Watch dataWidth) (s : SpiFsm dataWidth) (i : SpiFsmIn dataWidth)
    (s' : SpiFsm dataWidth) : Watch dataWidth where
  lastFall := if falls s s' then some (i.trasferRq, i.txData) else w.lastFall
  word := if opens s s' then (w.lastFall.map Prod.snd).getD 0 else w.word
  bits :=
    if opens s s' then []
    else if rises s s' && !s.spiCs then w.bits ++ [(s.spiMosi, i.spiMiso)]
    else w.bits

/-- A word of the bits received, the first one lowest. -/
def wordOf (bits : List Bool) : BitVec dataWidth := BitVec.ofFnLE fun k => bits.getD k.val false

theorem getLsbD_wordOf (bits : List Bool) {k : Nat} (hk : k < dataWidth) :
    (wordOf bits : BitVec dataWidth).getLsbD k = bits.getD k false := by
  rw [BitVec.getLsbD_eq_getElem hk]
  simp [wordOf]

/-- What a clock that leads from `s` to `s'` must show. -/
structure Transfers (w : Watch dataWidth) (s s' : SpiFsm dataWidth) : Prop where
  /-- The data pin changes at falling edges only. -/
  stable : s'.spiMosi ≠ s.spiMosi → falls s s' = true
  /-- A frame opens at a falling edge, and at the one before there was a request. -/
  opened : opens s s' = true → falls s s' = true ∧ ∃ word, w.lastFall = some (true, word)
  /-- At a rising edge of the frame the pin has the next bit of its word. -/
  sent : rises s s' = true → s.spiCs = false →
    w.bits.length < dataWidth ∧ s.spiMosi = w.word.getLsbD w.bits.length
  /-- A frame that closes had one rising edge for each bit, and what was received is
  there, announced. -/
  closed : closes s s' = true →
    w.bits.length = dataWidth ∧ s'.rxData = wordOf (w.bits.map Prod.snd) ∧
      s'.transferReady = true
  /-- With the pins looped the word comes back. -/
  looped : closes s s' = true → (∀ b ∈ w.bits, b.2 = b.1) → s'.rxData = w.word
  /-- Nothing is there or announced at any other clock. -/
  quiet : closes s s' = false → s'.rxData = s.rxData ∧ s'.transferReady = false

structure Watched (dataWidth : Nat) where
  fsm : SpiFsm dataWidth
  watch : Watch dataWidth

/-- The state machine from reset on, with any inputs, and the listener. -/
def spiSystem (dataWidth spiClkdiv : Nat) : System (Watched dataWidth) (SpiFsmIn dataWidth) where
  init := fun s => s.fsm = SpiFsm.reset spiClkdiv ∧ s.watch = { lastFall := none, word := 0, bits := [] }
  allowed := fun _ i => i.resetIn = false ∧ i.clkEn = true
  next := fun s i =>
    let fsm := s.fsm.next spiClkdiv i
    { fsm := fsm, watch := s.watch.next s.fsm i fsm }

/-! ### Where a transfer stands -/

/-- Between frames. -/
structure Idle (s : SpiFsm dataWidth) : Prop where
  cs : s.spiCs = true
  idle : s.inProgress = false
  cnt : s.dataCnt = 0

/-- A word has been taken; the next falling edge opens its frame. -/
structure Loaded (s : SpiFsm dataWidth) (w : Watch dataWidth) : Prop where
  cs : s.spiCs = true
  idle : s.inProgress = false
  cnt : s.dataCnt = dataWidth
  word : w.lastFall = some (true, s.shiftReg)

/-- In a frame, `n` bits have been sent; in the low phase the last one is still to be
sampled. -/
structure Sending (n : Nat) (s : SpiFsm dataWidth) (w : Watch dataWidth) : Prop where
  cs : s.spiCs = false
  busy : s.inProgress = true
  begun : 0 < n
  cnt : s.dataCnt + n = dataWidth
  seen : w.bits.length = if s.clkPhase then n - 1 else n
  mosi : s.spiMosi = w.word.getLsbD (n - 1)
  left : ∀ k, k + n < dataWidth → s.shiftReg.getLsbD k = w.word.getLsbD (k + n)
  shown : ∀ m, m < w.bits.length → (w.bits.map Prod.fst).getD m false = w.word.getLsbD m
  received : ∀ m, m < w.bits.length →
    s.shiftReg.getLsbD (dataWidth - n + m) = (w.bits.map Prod.snd).getD m false

inductive Stands (s : SpiFsm dataWidth) (w : Watch dataWidth) : Prop
  | idle (h : Idle s)
  | loaded (h : Loaded s w)
  | sending (n : Nat) (h : Sending n s w)

/-- The clock pin follows the phase. -/
structure Inv (s : SpiFsm dataWidth) (w : Watch dataWidth) : Prop where
  clk : s.spiClk = !s.clkPhase
  stands : Stands s w

variable {spiClkdiv : Nat} {s : SpiFsm dataWidth} {w : Watch dataWidth} {i : SpiFsmIn dataWidth}

theorem inv_reset : Inv (SpiFsm.reset spiClkdiv : SpiFsm dataWidth) w :=
  ⟨rfl, .idle ⟨rfl, rfl, rfl⟩⟩

/-! ### What the listener makes of a clock -/

theorem Watch.next_still {s' : SpiFsm dataWidth} (hclk : s'.spiClk = s.spiClk)
    (hcs : s'.spiCs = s.spiCs) : w.next s i s' = w := by
  simp [Watch.next, falls, rises, opens, hclk, hcs]

theorem Watch.next_rise {s' : SpiFsm dataWidth} (hlow : s.spiClk = false)
    (hhigh : s'.spiClk = true) (hcs : s'.spiCs = s.spiCs) :
    w.next s i s' =
      { w with bits := if s.spiCs then w.bits else w.bits ++ [(s.spiMosi, i.spiMiso)] } := by
  cases hs : s.spiCs <;> simp [Watch.next, falls, rises, opens, hlow, hhigh, hcs, hs]

theorem Watch.next_fall {s' : SpiFsm dataWidth} (hhigh : s.spiClk = true)
    (hlow : s'.spiClk = false) (hcs : opens s s' = false) :
    w.next s i s' = { w with lastFall := some (i.trasferRq, i.txData) } := by
  simp [Watch.next, falls, rises, hlow, hhigh, hcs]

theorem Watch.next_open {s' : SpiFsm dataWidth} {word : BitVec dataWidth}
    (hhigh : s.spiClk = true) (hlow : s'.spiClk = false) (hcs : opens s s' = true)
    (hword : w.lastFall = some (true, word)) :
    w.next s i s' = { lastFall := some (i.trasferRq, i.txData), word := word, bits := [] } := by
  simp [Watch.next, falls, hlow, hhigh, hcs, hword]

/-! ### A clock between ticks -/

/-- Where neither pin of the bus moves, there is nothing to show. -/
theorem transfers_still {s' : SpiFsm dataWidth} (hcs : s'.spiCs = s.spiCs)
    (hmosi : s'.spiMosi = s.spiMosi) (hclk : s'.spiClk = s.spiClk)
    (hrx : s'.rxData = s.rxData) (hready : s'.transferReady = false) : Transfers w s s' where
  stable := fun h => absurd hmosi h
  opened := fun h => by simp [opens, hcs] at h
  sent := fun h => by simp [rises, hclk] at h
  closed := fun h => by simp [closes, hcs] at h
  looped := fun h => by simp [closes, hcs] at h
  quiet := fun _ => ⟨hrx, hready⟩

theorem inv_wait (h : Inv s w) (s' : SpiFsm dataWidth)
    (hs' : s' = { s with transferReady := false, divCnt := s.divCnt - 1 }) :
    Transfers w s s' ∧ Inv s' (w.next s i s') := by
  have hnext : w.next s i s' = w := Watch.next_still (by rw [hs']) (by rw [hs'])
  rw [hnext, hs']
  refine ⟨transfers_still rfl rfl rfl rfl rfl, ?_⟩
  refine ⟨h.clk, ?_⟩
  rcases h.stands with h | h | ⟨n, h⟩
  · exact .idle ⟨h.cs, h.idle, h.cnt⟩
  · exact .loaded ⟨h.cs, h.idle, h.cnt, h.word⟩
  · exact .sending n ⟨h.cs, h.busy, h.begun, h.cnt, h.seen, h.mosi, h.left, h.shown,
      h.received⟩

/-! ### A rising edge -/

theorem Sending.rise {n : Nat} (h : Sending n s w) (hphase : s.clkPhase = true) :
    Sending n (s.rise spiClkdiv i) { w with bits := w.bits ++ [(s.spiMosi, i.spiMiso)] } := by
  have hseen := h.seen
  rw [hphase, if_pos rfl] at hseen
  have hbegun := h.begun
  have hcnt := h.cnt
  have hreg : (s.rise spiClkdiv i).shiftReg = setTop s.shiftReg i.spiMiso := by
    simp [SpiFsm.rise, h.busy]
  refine ⟨h.cs, h.busy, hbegun, hcnt, ?_, h.mosi, ?_, ?_, ?_⟩
  · show (w.bits ++ [(s.spiMosi, i.spiMiso)]).length = n
    rw [List.length_append, List.length_singleton]
    omega
  · intro k hk
    rw [hreg, getLsbD_setTop _ _ (by omega), if_neg (by omega)]
    exact h.left k hk
  · intro m hm
    rw [List.length_append, List.length_singleton] at hm
    rw [List.map_append]
    by_cases hlast : m = w.bits.length
    · rw [List.getD_append_right _ _ _ _ (by simp [hlast])]
      have hbit : n - 1 = m := by omega
      simp [hlast, ← hseen, h.mosi]
    · rw [List.getD_append _ _ _ _ (by simp; omega)]
      exact h.shown m (by omega)
  · intro m hm
    rw [List.length_append, List.length_singleton] at hm
    rw [hreg, getLsbD_setTop _ _ (by omega), List.map_append]
    by_cases hlast : m = w.bits.length
    · rw [if_pos (by omega), List.getD_append_right _ _ _ _ (by simp [hlast])]
      simp [hlast]
    · rw [if_neg (by omega), List.getD_append _ _ _ _ (by simp; omega)]
      exact h.received m (by omega)

theorem inv_rise (h : Inv s w) (hphase : s.clkPhase = true) :
    Transfers w s (s.rise spiClkdiv i) ∧
      Inv (s.rise spiClkdiv i) (w.next s i (s.rise spiClkdiv i)) := by
  have hlow : s.spiClk = false := by rw [h.clk, hphase]; rfl
  have hnext : w.next s i (s.rise spiClkdiv i) = { w with
      bits := if s.spiCs then w.bits else w.bits ++ [(s.spiMosi, i.spiMiso)] } :=
    Watch.next_rise hlow rfl rfl
  constructor
  · refine ⟨fun hm => absurd rfl hm, fun ho => ?_, fun _ hcs => ?_, fun hc => ?_,
      fun hc => ?_, fun _ => ⟨rfl, rfl⟩⟩
    · simp [opens, SpiFsm.rise] at ho
    · rcases h.stands with h | h | ⟨n, h⟩
      · rw [h.cs] at hcs; exact absurd hcs (by simp)
      · rw [h.cs] at hcs; exact absurd hcs (by simp)
      · have hseen := h.seen
        rw [hphase, if_pos rfl] at hseen
        have hbegun := h.begun
        have hcnt := h.cnt
        rw [hseen]
        exact ⟨by omega, h.mosi⟩
    · simp [closes, SpiFsm.rise] at hc
    · simp [closes, SpiFsm.rise] at hc
  · rw [hnext]
    refine ⟨rfl, ?_⟩
    rcases h.stands with h | h | ⟨n, h⟩
    · exact .idle ⟨h.cs, h.idle, h.cnt⟩
    · rw [h.cs, if_pos rfl]
      refine .loaded ⟨h.cs, h.idle, h.cnt, ?_⟩
      simp [SpiFsm.rise, h.idle, h.word]
    · rw [h.cs]
      exact .sending n (h.rise hphase)

/-! ### A falling edge -/

theorem Sending.closed {n : Nat} (spiClkdiv : Nat) (i : SpiFsmIn dataWidth)
    (h : Sending n s w) (hphase : s.clkPhase = false) (hcnt : s.dataCnt = 0) :
    w.bits.length = dataWidth ∧
      (s.fallIdle spiClkdiv i).rxData = wordOf (w.bits.map Prod.snd) ∧
      (s.fallIdle spiClkdiv i).transferReady = true := by
  have hseen := h.seen
  rw [hphase] at hseen
  have hn : n = dataWidth := by have := h.cnt; omega
  have hlen : w.bits.length = dataWidth := hseen.trans hn
  refine ⟨hlen, ?_, h.busy⟩
  have hrx : (s.fallIdle spiClkdiv i).rxData = s.shiftReg := by simp [SpiFsm.fallIdle, h.busy]
  rw [hrx]
  apply BitVec.eq_of_getLsbD_eq
  intro k hk
  have hbit := h.received k (by omega)
  rw [hn, Nat.sub_self, Nat.zero_add] at hbit
  rw [hbit, getLsbD_wordOf _ hk]

theorem Sending.looped {n : Nat} (h : Sending n s w) (hphase : s.clkPhase = false)
    (hcnt : s.dataCnt = 0) (hloop : ∀ b ∈ w.bits, b.2 = b.1) :
    (s.fallIdle spiClkdiv i).rxData = w.word := by
  obtain ⟨hlen, hrx, -⟩ := h.closed spiClkdiv i hphase hcnt
  rw [hrx, List.map_congr_left hloop]
  apply BitVec.eq_of_getLsbD_eq
  intro k hk
  rw [getLsbD_wordOf _ hk, h.shown k (by omega)]

theorem inv_fallIdle (hwidth : 0 < dataWidth) (h : Inv s w) (hphase : s.clkPhase = false)
    (hcnt : s.dataCnt = 0) :
    Transfers w s (s.fallIdle spiClkdiv i) ∧
      Inv (s.fallIdle spiClkdiv i) (w.next s i (s.fallIdle spiClkdiv i)) := by
  have hhigh : s.spiClk = true := by rw [h.clk, hphase]; rfl
  have hfalls : falls s (s.fallIdle spiClkdiv i) = true := by
    simp [falls, hhigh, SpiFsm.fallIdle]
  have hopens : opens s (s.fallIdle spiClkdiv i) = false := by simp [opens, SpiFsm.fallIdle]
  constructor
  · refine ⟨fun _ => hfalls, fun ho => ?_, fun hr => ?_, fun hc => ?_, fun hc => ?_,
      fun hq => ?_⟩
    · rw [hopens] at ho; exact absurd ho (by simp)
    · simp [rises, hhigh] at hr
    · rcases h.stands with h | h | ⟨n, h⟩
      · simp [closes, h.cs, SpiFsm.fallIdle] at hc
      · have := h.cnt
        omega
      · exact h.closed spiClkdiv i hphase hcnt
    · rcases h.stands with h | h | ⟨n, h⟩
      · simp [closes, h.cs, SpiFsm.fallIdle] at hc
      · have := h.cnt
        omega
      · exact h.looped hphase hcnt
    · rcases h.stands with h | h | ⟨n, h⟩
      · simp [SpiFsm.fallIdle, h.idle]
      · simp [SpiFsm.fallIdle, h.idle]
      · simp [closes, h.cs, SpiFsm.fallIdle] at hq
  · rw [Watch.next_fall hhigh rfl hopens]
    refine ⟨rfl, ?_⟩
    cases hrq : i.trasferRq with
    | true => exact .loaded ⟨rfl, rfl, by simp [SpiFsm.fallIdle, hrq], by simp [SpiFsm.fallIdle, hrq]⟩
    | false => exact .idle ⟨rfl, rfl, by simp [SpiFsm.fallIdle, hrq, hcnt]⟩

/-- The first bit of a word. -/
theorem Loaded.send (h : Loaded s w) (hcnt : s.dataCnt ≠ 0) (last : Option (Bool × BitVec dataWidth)) :
    Sending 1 (s.fallSend spiClkdiv) { lastFall := last, word := s.shiftReg, bits := [] } := by
  have hwidth := h.cnt
  refine ⟨rfl, rfl, Nat.one_pos, ?_, rfl, rfl, ?_, ?_, ?_⟩
  · show s.dataCnt - 1 + 1 = dataWidth
    omega
  · intro k _
    show (s.shiftReg >>> 1).getLsbD k = s.shiftReg.getLsbD (k + 1)
    rw [BitVec.getLsbD_ushiftRight, Nat.add_comm]
  · intro m hm
    simp at hm
  · intro m hm
    simp at hm

/-- The next bit of a word. -/
theorem Sending.send {n : Nat} (h : Sending n s w) (hphase : s.clkPhase = false)
    (hcnt : s.dataCnt ≠ 0) (last : Option (Bool × BitVec dataWidth)) :
    Sending (n + 1) (s.fallSend spiClkdiv) { w with lastFall := last } := by
  have hseen := h.seen
  rw [hphase] at hseen
  have hwidth := h.cnt
  refine ⟨rfl, rfl, Nat.succ_pos n, ?_, hseen, ?_, ?_, h.shown, ?_⟩
  · show s.dataCnt - 1 + (n + 1) = dataWidth
    omega
  · show s.shiftReg.getLsbD 0 = w.word.getLsbD n
    have hbit := h.left 0 (by omega)
    rwa [Nat.zero_add] at hbit
  · intro k hk
    show (s.shiftReg >>> 1).getLsbD k = w.word.getLsbD (k + (n + 1))
    rw [BitVec.getLsbD_ushiftRight, Nat.add_comm 1 k, h.left (k + 1) (by omega)]
    congr 1
    omega
  · intro m hm
    show (s.shiftReg >>> 1).getLsbD (dataWidth - (n + 1) + m) = _
    rw [BitVec.getLsbD_ushiftRight, ← h.received m hm]
    congr 1
    omega

theorem inv_fallSend (h : Inv s w) (hphase : s.clkPhase = false) (hcnt : s.dataCnt ≠ 0) :
    Transfers w s (s.fallSend spiClkdiv) ∧
      Inv (s.fallSend spiClkdiv) (w.next s i (s.fallSend spiClkdiv)) := by
  have hhigh : s.spiClk = true := by rw [h.clk, hphase]; rfl
  have hfalls : falls s (s.fallSend spiClkdiv) = true := by
    simp [falls, hhigh, SpiFsm.fallSend]
  have hopens : opens s (s.fallSend spiClkdiv) = s.spiCs := by simp [opens, SpiFsm.fallSend]
  constructor
  · refine ⟨fun _ => hfalls, fun ho => ⟨hfalls, ?_⟩, fun hr => ?_, fun hc => ?_,
      fun hc => ?_, fun _ => ⟨rfl, rfl⟩⟩
    · rcases h.stands with h | h | ⟨n, h⟩
      · exact absurd h.cnt hcnt
      · exact ⟨s.shiftReg, h.word⟩
      · rw [hopens, h.cs] at ho; exact absurd ho (by simp)
    · simp [rises, hhigh] at hr
    · simp [closes, SpiFsm.fallSend] at hc
    · simp [closes, SpiFsm.fallSend] at hc
  · rcases h.stands with h | h | ⟨n, h⟩
    · exact absurd h.cnt hcnt
    · rw [Watch.next_open hhigh rfl (by rw [hopens, h.cs]) h.word]
      exact ⟨rfl, .sending 1 (h.send hcnt _)⟩
    · rw [Watch.next_fall hhigh rfl (by rw [hopens, h.cs])]
      exact ⟨rfl, .sending (n + 1) (h.send hphase hcnt _)⟩

theorem inv_next (hwidth : 0 < dataWidth) (h : Inv s w) (hr : i.resetIn = false)
    (hen : i.clkEn = true) :
    Transfers w s (s.next spiClkdiv i) ∧
      Inv (s.next spiClkdiv i) (w.next s i (s.next spiClkdiv i)) := by
  rcases SpiFsm.next_cases spiClkdiv s hr hen with ⟨-, hs⟩ | ⟨-, hphase, hs⟩ |
    ⟨-, hphase, hcnt, hs⟩ | ⟨-, hphase, hcnt, hs⟩
  · exact inv_wait h _ hs
  · rw [hs]
    exact inv_rise h hphase
  · rw [hs]
    exact inv_fallIdle hwidth h hphase hcnt
  · rw [hs]
    exact inv_fallSend h hphase hcnt

/--
**A full-duplex transfer.**  From reset on, with any words, requests and bits offered at
any time: each frame has one rising edge of `spi_clk` for each bit, the pins show the word
that was offered at the falling edge before the frame, bit by bit from the lowest, and the
frame ends with the word received, in the same order, there and announced for one clock.
-/
theorem spi_transfers {spiClkdiv : Nat} (hwidth : 1 ≤ dataWidth)
    {h : List (Watched dataWidth × SpiFsmIn dataWidth)} {s : Watched dataWidth}
    (r : Run (spiSystem dataWidth spiClkdiv) h s) :
    ∀ e ∈ h, Transfers e.1.watch e.1.fsm ((spiSystem dataWidth spiClkdiv).next e.1 e.2).fsm := by
  intro e he
  obtain ⟨h', r', ⟨hr, hen⟩, -⟩ := r.of_mem e he
  have hinv : Inv e.1.fsm e.1.watch := by
    refine r'.invariant (I := fun s => Inv s.fsm s.watch) ?_ ?_
    · intro s hs
      obtain ⟨hfsm, -⟩ := hs
      rw [hfsm]
      exact inv_reset
    · intro s i hs hok
      exact (inv_next hwidth hs hok.1 hok.2).2
  exact (inv_next hwidth hinv hr hen).1

/-! ### Two bits each way -/

/-- A request for the word, with the bit on `spi_miso`. -/
def offer (miso : Bool) (word : Nat) : SpiFsmIn 2 :=
  { resetIn := false, clkEn := true, spiMiso := miso, txData := BitVec.ofNat 2 word, trasferRq := true }

/-- Sends 01 while 10 comes in. -/
def twoBits : List (SpiFsmIn 2) :=
  [offer true 1, offer true 2, offer true 2, offer false 3, offer true 0, offer true 1, offer false 3]

def fromReset : Watched 2 :=
  { fsm := SpiFsm.reset 1, watch := { lastFall := none, word := 0, bits := [] } }

instance (s : Watched dataWidth) (i : SpiFsmIn dataWidth) :
    Decidable ((spiSystem dataWidth spiClkdiv).allowed s i) := inferInstanceAs (Decidable (_ ∧ _))

theorem twoBits_transferred :
    ((spiSystem 2 1).runFrom fromReset twoBits).fsm.rxData = 2#2 ∧
      ∀ e ∈ (spiSystem 2 1).steps fromReset twoBits,
        Transfers e.1.watch e.1.fsm ((spiSystem 2 1).next e.1 e.2).fsm :=
  ⟨by decide, spi_transfers (by decide)
    (System.run_of_steps _ twoBits (Run.start (M := spiSystem 2 1) (s := fromReset) ⟨rfl, rfl⟩)
      (by decide))⟩

end CanBench.Spi
