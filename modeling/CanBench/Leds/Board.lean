/-
The LED and encoder board as a whole: `spi_leds_and_enc_v1_0.vhd` with its `S00_AXI`.

One SPI frame after another carries the LEDs out and the encoders and keys in.  The LEDs are
words that software writes, except that the brightness of the two RGB LEDs is a pulse width
counted in frames: the bank of six pulse generators is enabled by `transfer_ready`.  What
came in is read back in words 8 and 9, which cannot be written.

`Board.next` wires the pieces the other files are about; `ledSystem` puts a master in front
of the slave and a listener on the SPI pins.
-/
import CanBench.Axi.Atomic
import CanBench.Encoder.Position
import CanBench.Pwm.Bank
import CanBench.Spi.Transfer

namespace CanBench.Leds

open Lib Axi Spi Pwm Encoder

/-! ### The registers -/

/-- The inputs of the slave that can be read. -/
structure Inputs where
  inEncDirect : BitVec 9
  inKbdDirect : BitVec 4
  inEnc8bit : BitVec 24
  inEncButtons : BitVec 3

def slvReg8 (p : Inputs) : BitVec 32 := 0#7 ++ p.inEncDirect ++ 0#12 ++ p.inKbdDirect

def slvReg9 (p : Inputs) : BitVec 32 := 0#5 ++ p.inEncButtons ++ p.inEnc8bit

def bank : RegBank 6 4 Inputs where
  resetReg := fun _ => 0#32
  resetAraddr := BitVec.allOnes 6
  writable := fun loc => loc != 8#4 && loc != 9#4
  tick := id
  read := fun regs p loc =>
    if loc = 8#4 then slvReg8 p else if loc = 9#4 then slvReg9 p else regs loc

/-! ### The wiring -/

structure Board where
  s00 : BankState 6 4
  enc : EncBoard
  pwm : PwmBank 6 8 8
  spiLedReset : Bool

structure BoardIn where
  axi : SlaveIn 6
  spiLedEncin : Bool

/-- `2 ** pwm_width - 1`. -/
def pwmRatio : BitVec 8 := 255#8

/-- The button of encoder 3 is the lowest. -/
def inEncButtons (s : EncBoard) : BitVec 3 :=
  BitVec.ofFnLE fun k => (s.enc ⟨2 - k.val, by omega⟩).filtSw.qO

/-- Switch and channels of each encoder, that of encoder 3 lowest. -/
def inEncDirect (spiRxData : BitVec spiDataWidth) : BitVec 9 :=
  BitVec.ofFnLE fun k =>
    let i : Fin 3 := ⟨2 - k.val / 3, by omega⟩
    if k.val % 3 = 0 then encCha spiRxData i
    else if k.val % 3 = 1 then encChb spiRxData i
    else encSw spiRxData i

def inputs (s : EncBoard) : Inputs where
  inEncDirect := inEncDirect s.spi.rxData
  inKbdDirect := ~~~(s.spi.rxData.extractLsb' 0 4)
  inEnc8bit := s.inEnc8bit
  inEncButtons := inEncButtons s

namespace Board

variable (b : Board) (i : BoardIn)

def outputLedLine : BitVec 32 := b.s00.slvReg 1
def outputLedRgb1 : BitVec 24 := (b.s00.slvReg 4).extractLsb' 0 24
def outputLedRgb2 : BitVec 24 := (b.s00.slvReg 5).extractLsb' 0 24
def outputLedDirect : BitVec 8 := (b.s00.slvReg 6).extractLsb' 0 8
def outputKbdDirect : BitVec 4 := (b.s00.slvReg 6).extractLsb' 8 4

/-- The two `pwm_rgb` blocks: channels 0 to 2 are RGB 1, channels 3 to 5 are RGB 2. -/
def rgbDuty (k : Fin 6) : BitVec 8 :=
  if k.val < 3 then b.outputLedRgb1.extractLsb' (k.val * 8) 8
  else b.outputLedRgb2.extractLsb' ((k.val - 3) * 8) 8

def pwmIn : PwmBankIn 6 8 8 where
  reset := !i.axi.aresetn
  en := b.enc.spi.transferReady
  ratio := pwmRatio
  duration := b.rgbDuty

/-- `pwm_rgb1_sig` and `pwm_rgb2_sig`. -/
def pwmRgbSig (k : Fin 6) : Bool := b.pwm.qOut (b.pwmIn i) k

/-- `output_led_direct(2 downto 0) or pwm_rgb1_sig`. -/
def spiOutRgb1 : BitVec 3 :=
  BitVec.ofFnLE fun k => b.outputLedDirect.getLsbD k.val || b.pwmRgbSig i ⟨k.val, by omega⟩

/-- `output_led_direct(5 downto 3) or pwm_rgb2_sig`. -/
def spiOutRgb2 : BitVec 3 :=
  BitVec.ofFnLE fun k =>
    b.outputLedDirect.getLsbD (k.val + 3) || b.pwmRgbSig i ⟨k.val + 3, by omega⟩

def spiTxData : BitVec spiDataWidth :=
  0#1 ++ b.spiOutRgb1 i ++ 0#2 ++ BitVec.ofBool (b.outputLedDirect.getLsbD 7)
    ++ BitVec.ofBool (b.outputLedDirect.getLsbD 6) ++ b.outputLedLine ++ 0#1
    ++ ~~~b.outputKbdDirect ++ b.spiOutRgb2 i

def encIn : EncBoardIn where
  fsmRst := !i.axi.aresetn
  spiLedEncin := i.spiLedEncin
  spiTxData := b.spiTxData i

/-- The process `data_logic_process`. -/
def nextSpiLedReset : Bool :=
  if !i.axi.aresetn then true
  else if b.enc.spi.transferReady then false
  else b.spiLedReset

/-- One rising edge of the clock. -/
def next : Board where
  s00 := bank.next b.s00 i.axi (inputs b.enc)
  enc := b.enc.next (b.encIn i)
  pwm := b.pwm.next (b.pwmIn i)
  spiLedReset := b.nextSpiLedReset i

end Board

/-! ### Watched on both buses -/

structure WatchedBoard where
  watch : Axi.Watched 6 4
  enc : EncBoard
  pwm : PwmBank 6 8 8
  spiLedReset : Bool
  listener : Watch spiDataWidth

def WatchedBoard.board (x : WatchedBoard) : Board where
  s00 := x.watch.bank
  enc := x.enc
  pwm := x.pwm
  spiLedReset := x.spiLedReset

/-- A listener that has heard nothing. -/
def deaf : Watch spiDataWidth := { lastFall := none, word := 0, bits := [] }

/-- After a reset; what it does not reach is arbitrary. -/
structure AfterReset (x : WatchedBoard) : Prop where
  watch : x.watch = Axi.Watched.reset bank
  spi : x.enc.spi = SpiFsm.reset spiClkDiv
  spiLedReset : x.spiLedReset = true
  listener : x.listener = deaf

def ledSystem : System WatchedBoard BoardIn where
  init := AfterReset
  allowed := fun x i => x.watch.allows i.axi
  next := fun x i =>
    let enc := x.enc.next (x.board.encIn i)
    { watch := Axi.Watched.next bank x.watch (i.axi, inputs x.enc)
      enc := enc
      pwm := x.pwm.next (x.board.pwmIn i)
      spiLedReset := x.board.nextSpiLedReset i
      listener :=
        if !i.axi.aresetn then deaf
        else x.listener.next x.enc.spi (EncBoard.spiIn (x.board.encIn i)) enc.spi }

instance (x : WatchedBoard) (i : BoardIn) : Decidable (ledSystem.allowed x i) :=
  inferInstanceAs (Decidable (x.watch.allows i.axi))

/-- What is watched is the board. -/
theorem board_next (x : WatchedBoard) (i : BoardIn) :
    (ledSystem.next x i).board = x.board.next i := by
  have hbank : (Axi.Watched.next bank x.watch (i.axi, inputs x.enc)).bank
      = bank.next x.watch.bank i.axi (inputs x.enc) := by
    unfold Axi.Watched.next RegBank.next
    by_cases hi : i.axi.aresetn = true
    · simp [hi]
    · simp [hi, Axi.Watched.reset]
  show Board.mk (Axi.Watched.next bank x.watch (i.axi, inputs x.enc)).bank _ _ _ = _
  rw [hbank]
  rfl

/-! ### A run to look at -/

/-- A master that takes every answer at once and writes a word; nothing turns. -/
def writeWord (awaddr : BitVec 6) (wdata : BitVec 32) (valid : Bool) : BoardIn where
  axi :=
    { aresetn := true, awaddr := awaddr, awvalid := valid, wdata := wdata, wstrb := 0xf#4
      wvalid := valid, bready := true, araddr := 0#6, arvalid := false, rready := true }
  spiLedEncin := true

def afterReset : WatchedBoard where
  watch := Axi.Watched.reset bank
  enc :=
    { spi := SpiFsm.reset spiClkDiv
      enc := fun _ =>
        let filt : Dff3cke := ⟨false, false, false, false, false, false⟩
        { filtCha := filt, filtChb := filt, filtSw := filt
          qcounter := ⟨false, false, false, false, 0⟩ } }
  pwm := { cntDiv := zero, pulseGen := fun _ => zero, held := fun _ => false }
  spiLedReset := true
  listener := deaf

theorem afterReset_init : AfterReset afterReset := ⟨rfl, rfl, rfl, rfl⟩

end CanBench.Leds
