/-
A frame that is sent and received is the same frame.

`xcan_start_xmit` and `xcan_rx` are two hand-written translations between the kernel's
frame and the controller's words.  The identifier is spread over two fields with a gap
between them, and the remote flag is in the gap for a standard frame and below the fields
for an extended one.  The words are compared bit by bit: `getLsbD_txId_*` says where each
bit goes, `getLsbD_rxCanId_*` where it is looked for.

The DLC word comes back with a timestamp in its low 28 bits, and the data words of a remote
frame, which are not written, with whatever was there.
-/
import CanBench.Lib.BitFields
import CanBench.XilinxCan.Regs

namespace CanBench.XilinxCan

open Lib

/-! ### The masks as fields -/

theorem xcanIdrId1Mask_bits : xcanIdrId1Mask = bits 32 21 11 := by decide
theorem xcanIdrId2Mask_bits : xcanIdrId2Mask = bits 32 1 18 := by decide
theorem canSffMask_bits : canSffMask = bits 32 0 11 := by decide
theorem canEffMask_bits : canEffMask = bits 32 0 29 := by decide
theorem xcanIdrIdeMask_bits : xcanIdrIdeMask = bits 32 19 1 := by decide
theorem xcanIdrSrrMask_bits : xcanIdrSrrMask = bits 32 20 1 := by decide
theorem xcanIdrRtrMask_bits : xcanIdrRtrMask = bits 32 0 1 := by decide
theorem canEffFlag_bits : canEffFlag = bits 32 31 1 := by decide
theorem canRtrFlag_bits : canRtrFlag = bits 32 30 1 := by decide

theorem test_canEffFlag (c : BitVec 32) : test c canEffFlag = c.getLsbD 31 :=
  test_twoPow c (k := 31) (by norm_num)

theorem test_canRtrFlag (c : BitVec 32) : test c canRtrFlag = c.getLsbD 30 :=
  test_twoPow c (k := 30) (by norm_num)

theorem test_xcanIdrIdeMask (c : BitVec 32) : test c xcanIdrIdeMask = c.getLsbD 19 :=
  test_twoPow c (k := 19) (by norm_num)

theorem test_xcanIdrSrrMask (c : BitVec 32) : test c xcanIdrSrrMask = c.getLsbD 20 :=
  test_twoPow c (k := 20) (by norm_num)

theorem test_xcanIdrRtrMask (c : BitVec 32) : test c xcanIdrRtrMask = c.getLsbD 0 :=
  test_twoPow c (k := 0) (by norm_num)

/-! ### The identifier -/

/-- The extended identifier word, bit by bit. -/
theorem getLsbD_txId_eff {c : BitVec 32} (heff : test c canEffFlag = true) (i : Nat) :
    (txId c).getLsbD i =
      if i = 0 then test c canRtrFlag
      else if i < 19 then c.getLsbD (i - 1)
      else if i < 21 then true
      else decide (i < 32) && c.getLsbD (i - 3) := by
  unfold txId
  rw [if_pos heff]
  cases test c canRtrFlag <;>
  · simp only [xcanIdrId1Mask_bits, xcanIdrId2Mask_bits, canEffMask_bits, xcanIdrIdeMask_bits,
      xcanIdrSrrMask_bits, xcanIdrRtrMask_bits, BitVec.getLsbD_or, BitVec.getLsbD_and,
      BitVec.getLsbD_shiftLeft, BitVec.getLsbD_ushiftRight, getLsbD_bits,
      Bool.false_eq_true, reduceIte]
    rw [Bool.eq_iff_iff]
    grind

theorem getLsbD_txId_sff {c : BitVec 32} (heff : test c canEffFlag = false) (i : Nat) :
    (txId c).getLsbD i =
      if i < 20 then false
      else if i = 20 then test c canRtrFlag
      else decide (i < 32) && c.getLsbD (i - 21) := by
  unfold txId
  rw [heff]
  cases test c canRtrFlag <;>
  · simp only [xcanIdrId1Mask_bits, canSffMask_bits,
      xcanIdrSrrMask_bits, BitVec.getLsbD_or, BitVec.getLsbD_and,
      BitVec.getLsbD_shiftLeft, getLsbD_bits, Bool.false_eq_true, reduceIte]
    rw [Bool.eq_iff_iff]
    grind

/-- What is read back as an extended identifier, bit by bit. -/
theorem getLsbD_rxCanId_ext {id : BitVec 32} (hide : test id xcanIdrIdeMask = true) (i : Nat) :
    (rxCanId id).getLsbD i =
      if i < 18 then id.getLsbD (i + 1)
      else if i < 29 then id.getLsbD (i + 3)
      else if i = 30 then test id xcanIdrRtrMask
      else decide (i = 31) := by
  unfold rxCanId
  rw [if_pos hide]
  cases test id xcanIdrRtrMask <;>
  · simp only [xcanIdrId1Mask_bits, xcanIdrId2Mask_bits, canEffFlag_bits, canRtrFlag_bits,
      BitVec.getLsbD_or, BitVec.getLsbD_and, BitVec.getLsbD_ushiftRight, getLsbD_bits,
      Bool.false_eq_true, reduceIte, Nat.add_comm 1 i, Nat.add_comm 3 i]
    rw [Bool.eq_iff_iff]
    grind

theorem getLsbD_rxCanId_std {id : BitVec 32} (hide : test id xcanIdrIdeMask = false) (i : Nat) :
    (rxCanId id).getLsbD i =
      if i < 11 then id.getLsbD (i + 21)
      else decide (i = 30) && test id xcanIdrSrrMask := by
  unfold rxCanId
  rw [hide]
  cases test id xcanIdrSrrMask <;>
  · simp only [xcanIdrId1Mask_bits, canRtrFlag_bits, BitVec.getLsbD_or, BitVec.getLsbD_and,
      BitVec.getLsbD_ushiftRight, getLsbD_bits, Bool.false_eq_true, reduceIte,
      Nat.add_comm 21 i]
    rw [Bool.eq_iff_iff]
    grind

theorem getLsbD_mask (c : BitVec 32) (len i : Nat) :
    ((c &&& bits 32 0 len) ||| (c &&& (canEffFlag ||| canRtrFlag))).getLsbD i =
      (c.getLsbD i && decide (i < len ∨ i = 30 ∨ i = 31)) := by
  simp only [canEffFlag_bits, canRtrFlag_bits, BitVec.getLsbD_or, BitVec.getLsbD_and, getLsbD_bits]
  rw [Bool.eq_iff_iff]
  grind

/-- **The identifier survives**: the bits its format has room for, and the two flags. -/
theorem rxCanId_txId (c : BitVec 32) :
    rxCanId (txId c) = (c &&& (if test c canEffFlag then canEffMask else canSffMask))
      ||| (c &&& (canEffFlag ||| canRtrFlag)) := by
  apply BitVec.eq_of_getLsbD_eq
  intro i hi
  have h31 : c.getLsbD 31 = test c canEffFlag := (test_canEffFlag c).symm
  have h30 : c.getLsbD 30 = test c canRtrFlag := (test_canRtrFlag c).symm
  cases heff : test c canEffFlag with
  | false =>
      have hide : test (txId c) xcanIdrIdeMask = false := by
        rw [test_xcanIdrIdeMask, getLsbD_txId_sff heff]
        rfl
      have hsrr : test (txId c) xcanIdrSrrMask = test c canRtrFlag := by
        rw [test_xcanIdrSrrMask, getLsbD_txId_sff heff]
        rfl
      rw [getLsbD_rxCanId_std hide, hsrr, getLsbD_txId_sff heff, canSffMask_bits]
      simp only [Bool.false_eq_true, reduceIte, getLsbD_mask]
      grind
  | true =>
      have hide : test (txId c) xcanIdrIdeMask = true := by
        rw [test_xcanIdrIdeMask, getLsbD_txId_eff heff]
        rfl
      have hrtr : test (txId c) xcanIdrRtrMask = test c canRtrFlag := by
        rw [test_xcanIdrRtrMask, getLsbD_txId_eff heff]
        rfl
      rw [getLsbD_rxCanId_ext hide, hrtr, getLsbD_txId_eff heff, getLsbD_txId_eff heff, if_pos rfl,
        canEffMask_bits, getLsbD_mask]
      grind

/-! ### Length and data -/

theorem getCanDlc_nibble {dlc : BitVec 8} (hdlc : dlc.toNat ≤ 8) (stamp : BitVec 28) :
    getCanDlc (((dlc.setWidth 32 <<< 28).extractLsb' 28 4 ++ stamp) >>> 28) = dlc := by
  have hnibble : ((dlc.setWidth 32 <<< 28).extractLsb' 28 4).setWidth 8 = dlc := by
    apply BitVec.eq_of_toNat_eq
    rw [BitVec.toNat_setWidth, BitVec.extractLsb'_toNat, BitVec.toNat_shiftLeft,
      BitVec.toNat_setWidth, Nat.shiftLeft_eq, Nat.shiftRight_eq_div_pow]
    omega
  rw [append_ushiftRight]
  unfold getCanDlc
  rw [BitVec.setWidth_setWidth_of_le _ (by norm_num), hnibble, if_neg (by omega)]

/-- Storing a word where it was loaded from gives the bytes back. -/
theorem storeBe32_loadBe32 (old data : Fin 8 → BitVec 8) (off : Fin 5) {k : Fin 8}
    (hlo : off.val ≤ k.val) (hhi : k.val < off.val + 4) :
    storeBe32 old off (loadBe32 data off) k = data k := by
  unfold storeBe32
  rw [if_pos ⟨hlo, hhi⟩]
  obtain ⟨j, hj⟩ : ∃ j, k.val = off.val + j := ⟨k.val - off.val, by omega⟩
  have hk : k = ⟨off.val + j, by omega⟩ := Fin.ext hj
  rw [hj, Nat.add_sub_cancel_left]
  unfold beByte loadBe32
  apply BitVec.eq_of_getLsbD_eq
  intro i hi
  have hcases : j = 0 ∨ j = 1 ∨ j = 2 ∨ j = 3 := by omega
  simp only [hk, BitVec.getLsbD_extractLsb', BitVec.getLsbD_append, decide_eq_true hi,
    Bool.true_and]
  rcases hcases with rfl | rfl | rfl | rfl
  · rw [if_neg (by omega), if_neg (by omega), if_neg (by omega)]
    congr 1
    omega
  · rw [if_neg (by omega), if_neg (by omega), if_pos (by omega)]
    congr 1
    omega
  · rw [if_neg (by omega), if_pos (by omega)]
    congr 1
    omega
  · rw [if_pos (by omega)]
    congr 1
    omega

/-- A store elsewhere leaves the byte. -/
theorem storeBe32_of_lt (old : Fin 8 → BitVec 8) {off : Nat} (w : BitVec 32) {k : Fin 8}
    (hk : k.val < off) : storeBe32 old off w k = old k := by
  unfold storeBe32
  rw [if_neg (by omega)]

/-- The words as the receiver finds them: a timestamp under the length, and in a remote
frame any data words. -/
def onTheWire (cf : CanFrame) (stamp : BitVec 28) (dw1 dw2 : BitVec 32) : FifoWords :=
  let sent := txWords cf
  { id := sent.id
    dlc := sent.dlc.extractLsb' 28 4 ++ stamp
    dw1 := if test cf.canId canRtrFlag then dw1 else sent.dw1
    dw2 := if test cf.canId canRtrFlag then dw2 else sent.dw2 }

/--
**Encoding and decoding agree.**  A frame of at most eight bytes comes back with the
identifier bits of its format, its flags and its length, and a data frame with its data.
-/
theorem rxFrame_onTheWire (cf : CanFrame) (hdlc : cf.canDlc.toNat ≤ 8) (stamp : BitVec 28)
    (dw1 dw2 : BitVec 32) :
    (rxFrame (onTheWire cf stamp dw1 dw2)).canId
        = (cf.canId &&& (if test cf.canId canEffFlag then canEffMask else canSffMask))
          ||| (cf.canId &&& (canEffFlag ||| canRtrFlag)) ∧
    (rxFrame (onTheWire cf stamp dw1 dw2)).canDlc = cf.canDlc ∧
    (test cf.canId canRtrFlag = false → ∀ k : Fin 8, k.val < cf.canDlc.toNat →
      (rxFrame (onTheWire cf stamp dw1 dw2)).data k = cf.data k) := by
  have hid : rxCanId (onTheWire cf stamp dw1 dw2).id
      = (cf.canId &&& (if test cf.canId canEffFlag then canEffMask else canSffMask))
          ||| (cf.canId &&& (canEffFlag ||| canRtrFlag)) := rxCanId_txId cf.canId
  have hlen : getCanDlc ((onTheWire cf stamp dw1 dw2).dlc >>> 28) = cf.canDlc :=
    getCanDlc_nibble hdlc stamp
  refine ⟨hid, hlen, ?_⟩
  intro hdata k hk
  have hrtr : test (rxCanId (onTheWire cf stamp dw1 dw2).id) canRtrFlag = false := by
    rw [hid, test_canRtrFlag]
    rw [test_canRtrFlag] at hdata
    simp only [BitVec.getLsbD_or, BitVec.getLsbD_and, hdata, Bool.false_and, Bool.or_self]
  have hdw1 : (onTheWire cf stamp dw1 dw2).dw1 = loadBe32 cf.data 0 := by
    show (if test cf.canId canRtrFlag then dw1 else (txWords cf).dw1) = _
    rw [hdata]
    exact if_pos (show 0 < cf.canDlc.toNat by omega)
  have hpos : decide (0 < cf.canDlc.toNat) = true := decide_eq_true (by omega)
  unfold rxFrame
  simp only [hlen, hrtr, hpos, hdw1, Bool.not_false, Bool.true_and, if_true]
  by_cases hlow : k.val < 4
  · -- the byte is in the first word, whether or not there is a second
    have hfirst : storeBe32 (fun _ => 0#8) 0 (loadBe32 cf.data 0) k = cf.data k :=
      storeBe32_loadBe32 _ _ 0 (Nat.zero_le _) hlow
    split
    · rw [storeBe32_of_lt _ _ hlow, hfirst]
    · exact hfirst
  · have hsecond : 4 < cf.canDlc.toNat := by omega
    have hdw2 : (onTheWire cf stamp dw1 dw2).dw2 = loadBe32 cf.data 4 := by
      show (if test cf.canId canRtrFlag then dw2 else (txWords cf).dw2) = _
      rw [hdata]
      exact if_pos hsecond
    rw [if_pos (decide_eq_true hsecond), hdw2]
    exact storeBe32_loadBe32 _ _ 4 (by omega) (by omega)

/-- An extended data frame of six bytes. -/
def sixBytes : CanFrame where
  canId := 0x9ABCDEF1#32
  canDlc := 6#8
  data := fun k => BitVec.ofNat 8 (0x10 * k.val + 7)

theorem sixBytes_received :
    (rxFrame (onTheWire sixBytes 0xABCDEF5#28 0#32 0#32)).canId = 0x9ABCDEF1#32 ∧
      (rxFrame (onTheWire sixBytes 0xABCDEF5#28 0#32 0#32)).data 5 = 0x57#8 :=
  ⟨(rxFrame_onTheWire sixBytes (by decide) _ _ _).1,
    (rxFrame_onTheWire sixBytes (by decide) _ _ _).2.2 (by decide) 5 (by decide)⟩

end CanBench.XilinxCan
