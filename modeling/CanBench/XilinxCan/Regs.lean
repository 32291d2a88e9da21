/-
Register bits and frame formats of `xilinx_can.c`.

The masks the driver tests, a CAN frame as the kernel has it, the words the controller
has it in, and the two conversions: what `xcan_start_xmit` writes to the TX FIFO and what
`xcan_rx` makes of the words it reads.
-/
import Mathlib

namespace CanBench.XilinxCan

/-! ### Masks -/

def xcanSrrCenMask : BitVec 32 := 0x00000002
def xcanSrrResetMask : BitVec 32 := 0x00000001
def xcanSrEstatMask : BitVec 32 := 0x00000180
def xcanSrErrwrnMask : BitVec 32 := 0x00000040
def xcanSrNormalMask : BitVec 32 := 0x00000008
def xcanSrLbackMask : BitVec 32 := 0x00000002
def xcanSrConfigMask : BitVec 32 := 0x00000001
def xcanIxrWkupMask : BitVec 32 := 0x00000800
def xcanIxrSlpMask : BitVec 32 := 0x00000400
def xcanIxrBsoffMask : BitVec 32 := 0x00000200
def xcanIxrErrorMask : BitVec 32 := 0x00000100
def xcanIxrRxnempMask : BitVec 32 := 0x00000080
def xcanIxrRxoflwMask : BitVec 32 := 0x00000040
def xcanIxrRxokMask : BitVec 32 := 0x00000010
def xcanIxrTxokMask : BitVec 32 := 0x00000002
def xcanIxrArblstMask : BitVec 32 := 0x00000001
def xcanIdrId1Mask : BitVec 32 := 0xFFE00000
def xcanIdrSrrMask : BitVec 32 := 0x00100000
def xcanIdrIdeMask : BitVec 32 := 0x00080000
def xcanIdrId2Mask : BitVec 32 := 0x0007FFFE
def xcanIdrRtrMask : BitVec 32 := 0x00000001
def xcanMsrLbackMask : BitVec 32 := 0x00000002
def xcanMsrSleepMask : BitVec 32 := 0x00000001
def xcanEcrRecMask : BitVec 32 := 0x0000FF00
def xcanEcrTecMask : BitVec 32 := 0x000000FF
def xcanEsrAckerMask : BitVec 32 := 0x00000010
def xcanEsrBerrMask : BitVec 32 := 0x00000008
def xcanEsrSterMask : BitVec 32 := 0x00000004
def xcanEsrFmerMask : BitVec 32 := 0x00000002
def xcanEsrCrcerMask : BitVec 32 := 0x00000001

def xcanIntrAll : BitVec 32 :=
  xcanIxrTxokMask ||| xcanIxrBsoffMask ||| xcanIxrWkupMask ||| xcanIxrSlpMask |||
    xcanIxrRxnempMask ||| xcanIxrErrorMask ||| xcanIxrArblstMask ||| xcanIxrRxokMask

def canEffFlag : BitVec 32 := 0x80000000
def canRtrFlag : BitVec 32 := 0x40000000
def canSffMask : BitVec 32 := 0x000007FF
def canEffMask : BitVec 32 := 0x1FFFFFFF

/-- `reg & mask`, as a condition. -/
def test (reg mask : BitVec 32) : Bool := reg &&& mask != 0#32

/-- A mask of one bit tests that bit. -/
theorem test_twoPow (reg : BitVec 32) {k : Nat} (hk : k < 32) :
    test reg (BitVec.twoPow 32 k) = reg.getLsbD k := by
  unfold test
  rw [BitVec.and_twoPow]
  cases reg.getLsbD k with
  | false => simp
  | true =>
      have hne : BitVec.twoPow 32 k ≠ 0#32 := by
        intro h
        have := congrArg (fun v => v.getLsbD k) h
        simp [hk] at this
      simpa using hne

theorem test_or (reg a b : BitVec 32) : test reg (a ||| b) = (test reg a || test reg b) := by
  unfold test
  rw [BitVec.and_or_distrib_left, Bool.eq_iff_iff]
  simp only [bne_iff_ne, ne_eq, BitVec.or_eq_zero_iff, Bool.or_eq_true]
  tauto

/-! ### Frames -/

/-- `struct can_frame`. -/
structure CanFrame where
  canId : BitVec 32
  canDlc : BitVec 8
  data : Fin 8 → BitVec 8
deriving DecidableEq

/-- The frame as it stands in a FIFO of the controller. -/
structure FifoWords where
  id : BitVec 32
  dlc : BitVec 32
  dw1 : BitVec 32
  dw2 : BitVec 32
deriving DecidableEq

/-- Byte `k` of a word stored big-endian. -/
def beByte (w : BitVec 32) (k : Nat) : BitVec 8 := w.extractLsb' (8 * (3 - k)) 8

/-- `*(__be32 *)(cf->data + off) = cpu_to_be32(w)`. -/
def storeBe32 (data : Fin 8 → BitVec 8) (off : Nat) (w : BitVec 32) : Fin 8 → BitVec 8 :=
  fun k => if off ≤ k.val ∧ k.val < off + 4 then beByte w (k.val - off) else data k

/-- `be32_to_cpup((__be32 *)(cf->data + off))`, for `off` 0 or 4. -/
def loadBe32 (data : Fin 8 → BitVec 8) (off : Fin 5) : BitVec 32 :=
  data ⟨off, by omega⟩ ++ data ⟨off + 1, by omega⟩ ++ data ⟨off + 2, by omega⟩ ++
    data ⟨off + 3, by omega⟩

/-- `get_can_dlc`, a minimum of two `__u8`. -/
def getCanDlc (dlc : BitVec 32) : BitVec 8 :=
  if 8 < (dlc.setWidth 8).toNat then 8#8 else dlc.setWidth 8

/-! ### To the TX FIFO -/

/-- The `id` of `xcan_start_xmit`. -/
def txId (canId : BitVec 32) : BitVec 32 :=
  if test canId canEffFlag then
    let id := ((canId &&& canEffMask) <<< 1) &&& xcanIdrId2Mask
    let id := id ||| (((canId &&& canEffMask) >>> 18) <<< 21) &&& xcanIdrId1Mask
    let id := id ||| (xcanIdrIdeMask ||| xcanIdrSrrMask)
    if test canId canRtrFlag then id ||| xcanIdrRtrMask else id
  else
    let id := ((canId &&& canSffMask) <<< 21) &&& xcanIdrId1Mask
    if test canId canRtrFlag then id ||| xcanIdrSrrMask else id

/-- The words of `xcan_start_xmit`; a remote frame's data words are not written. -/
def txWords (cf : CanFrame) : FifoWords where
  id := txId cf.canId
  dlc := cf.canDlc.setWidth 32 <<< 28
  dw1 := if 0 < cf.canDlc.toNat then loadBe32 cf.data 0 else 0#32
  dw2 := if 4 < cf.canDlc.toNat then loadBe32 cf.data 4 else 0#32

/-! ### From the RX FIFO -/

/-- The `can_id` of `xcan_rx`. -/
def rxCanId (idXcan : BitVec 32) : BitVec 32 :=
  if test idXcan xcanIdrIdeMask then
    let canId := (idXcan &&& xcanIdrId1Mask) >>> 3
    let canId := canId ||| (idXcan &&& xcanIdrId2Mask) >>> 1
    let canId := canId ||| canEffFlag
    if test idXcan xcanIdrRtrMask then canId ||| canRtrFlag else canId
  else
    let canId := (idXcan &&& xcanIdrId1Mask) >>> 21
    if test idXcan xcanIdrSrrMask then canId ||| canRtrFlag else canId

/-- The frame `xcan_rx` builds; `alloc_can_skb` has zeroed the data. -/
def rxFrame (w : FifoWords) : CanFrame :=
  let canId := rxCanId w.id
  let canDlc := getCanDlc (w.dlc >>> 28)
  let data := if !test canId canRtrFlag && decide (0 < canDlc.toNat) then
      storeBe32 (fun _ => 0#8) 0 w.dw1 else fun _ => 0#8
  let data := if !test canId canRtrFlag && decide (4 < canDlc.toNat) then
      storeBe32 data 4 w.dw2 else data
  { canId := canId, canDlc := canDlc, data := data }

end CanBench.XilinxCan
