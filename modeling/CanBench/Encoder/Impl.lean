/-
The rotary encoders of `spi_leds_and_enc_v1_0`: filters, counters and their wiring.

Each encoder has a `dff3cke` on either channel, clocked in by `transfer_ready` of the SPI
master, and a `qcounter_nbit` that looks at the filtered channels in every clock.  The
third filter is on the button.  The channels are active low and lie in different places
of the word received.
-/
import CanBench.Lib.Quadrature
import CanBench.Spi.SpiFsm

namespace CanBench.Encoder

open Lib Spi

/-! ### `dff3cke` -/

structure Dff3cke where
  d3r : Bool
  d2r : Bool
  dr : Bool
  dataS : Bool
  chO : Bool
  ch1ckO : Bool
deriving DecidableEq

namespace Dff3cke

/-- `q_o`. -/
def qO (s : Dff3cke) : Bool := s.dataS

/-- One rising edge of `clk_i`. -/
def next (clkEn dI : Bool) (s : Dff3cke) : Dff3cke :=
  if clkEn then
    let t := if s.d3r = s.d2r ∧ s.d2r = s.dr then
        { s with ch1ckO := s.dataS != s.d3r, chO := s.dataS != s.d3r, dataS := s.d3r }
      else { s with ch1ckO := false, chO := false }
    { t with d3r := s.d2r, d2r := s.dr, dr := dI }
  else { s with ch1ckO := false }

end Dff3cke

/-! ### `qcounter_nbit` -/

structure Qcounter (bitwidth : Nat) where
  a : Bool
  b : Bool
  aPrev : Bool
  bPrev : Bool
  countPrev : BitVec (bitwidth - 2)
deriving DecidableEq

namespace Qcounter

variable {bitwidth : Nat}

/-- The process `comb_count`. -/
def count (s : Qcounter bitwidth) : BitVec (bitwidth - 2) :=
  if s.aPrev = false ∧ s.bPrev = true ∧ s.a = false ∧ s.b = false then s.countPrev + 1
  else if s.aPrev = false ∧ s.bPrev = false ∧ s.a = false ∧ s.b = true then s.countPrev - 1
  else s.countPrev

/-- `qcount`. -/
def qcount (s : Qcounter bitwidth) : BitVec bitwidth :=
  BitVec.ofFnLE fun k =>
    if k.val = 0 then s.a ^^ s.b else if k.val = 1 then s.b else s.count.getLsbD (k.val - 2)

/-- `ab_error`: both channels changed. -/
def abError (s : Qcounter bitwidth) : Bool := (s.a ^^ s.aPrev) && (s.b ^^ s.bPrev)

/-- One rising edge of `clock`, with that of the two `dff`s on the inputs. -/
def next (reset a0 b0 : Bool) (s : Qcounter bitwidth) : Qcounter bitwidth where
  a := a0
  b := b0
  aPrev := s.a
  bPrev := s.b
  countPrev := if reset then 0 else s.count

end Qcounter

/-! ### The wiring -/

def spiDataWidth : Nat := 48
def spiClkDiv : Nat := 10

/-- `enc_cha(i + 1)`. -/
def encCha (spiRxData : BitVec spiDataWidth) : Fin 3 → Bool
  | 0 => !spiRxData.getLsbD 6
  | 1 => !spiRxData.getLsbD 13
  | 2 => !spiRxData.getLsbD 10

/-- `enc_chb(i + 1)`. -/
def encChb (spiRxData : BitVec spiDataWidth) : Fin 3 → Bool
  | 0 => !spiRxData.getLsbD 4
  | 1 => !spiRxData.getLsbD 11
  | 2 => !spiRxData.getLsbD 8

/-- `enc_sw(i + 1)`. -/
def encSw (spiRxData : BitVec spiDataWidth) : Fin 3 → Bool
  | 0 => !spiRxData.getLsbD 5
  | 1 => !spiRxData.getLsbD 12
  | 2 => !spiRxData.getLsbD 9

/-- One turn of the `irc_block`. -/
structure IrcBlock where
  filtCha : Dff3cke
  filtChb : Dff3cke
  filtSw : Dff3cke
  qcounter : Qcounter 8
deriving DecidableEq

/-- The SPI master and the encoders; `enc i` is the source's encoder `i + 1`. -/
structure EncBoard where
  spi : SpiFsm spiDataWidth
  enc : Fin 3 → IrcBlock

/-- What comes from outside in a clock. -/
structure EncBoardIn where
  fsmRst : Bool
  spiLedEncin : Bool
  spiTxData : BitVec spiDataWidth

namespace EncBoard

def spiIn (i : EncBoardIn) : SpiFsmIn spiDataWidth where
  resetIn := i.fsmRst
  clkEn := true
  spiMiso := i.spiLedEncin
  txData := i.spiTxData
  trasferRq := true

/-- One rising edge of `fsm_clk`. -/
def next (s : EncBoard) (i : EncBoardIn) : EncBoard where
  spi := s.spi.next spiClkDiv (spiIn i)
  enc := fun k =>
    let e := s.enc k
    { filtCha := e.filtCha.next s.spi.transferReady (encCha s.spi.rxData k)
      filtChb := e.filtChb.next s.spi.transferReady (encChb s.spi.rxData k)
      filtSw := e.filtSw.next s.spi.transferReady (encSw s.spi.rxData k)
      qcounter := e.qcounter.next i.fsmRst e.filtCha.qO e.filtChb.qO }

/-- `in_enc_8bit`, whose byte `3 - i` is the `qcount` of encoder `i`. -/
def inEnc8bit (s : EncBoard) : BitVec 24 :=
  BitVec.ofFnLE fun k => (s.enc ⟨2 - k.val / 8, by omega⟩).qcounter.qcount.getLsbD (k.val % 8)

end EncBoard

end CanBench.Encoder
