/-
The crossbar behind its APB register: `can_crossbar.vhd`.

The two clocked processes are functions of the reset level, of whether this activation
is a rising clock edge, and of the bus signals, exactly as their `if arstn = '0' …
elsif rising_edge(aclk)` reads: a reset acts without a clock.  A run is a sequence of
such activations.

The bus master is on the other side of the comparison.  `Master` watches the bus as the
two-phase protocol describes it — a setup cycle, then one access cycle with the same
transfer — and knows nothing of registers: it says which signals may come next and lists
the transfers seen since the last reset.  `configWord` is the word those transfers
describe.  The result is that register, read data and pins are functions of that word
alone.

Both processes act at the end of the *setup* cycle, so that is when a transfer joins the
list; in the access cycle the write has already taken effect.
-/
import CanBench.Lib.Runs
import CanBench.Lib.ByteLanes
import CanBench.Crossbar.Routing

namespace CanBench.Crossbar

open Lib

/-! ### The entity -/

/-- The APB input ports; `pprot` is not read. -/
structure ApbBus where
  paddr : BitVec 32
  psel : Bool
  penable : Bool
  pwrite : Bool
  pstrb : BitVec 4
  pwdata : BitVec 32
deriving DecidableEq

/-- The two registers of `can_crossbar_apb`. -/
structure ApbRegs where
  slvReg0 : BitVec 32
  apbPrdataReg : BitVec 32
deriving DecidableEq

/-- `reg_addr <= s_apb_paddr(reg_addr'left+2 downto 2)`. -/
def ApbBus.regAddr (bus : ApbBus) : BitVec 8 := bus.paddr.extractLsb' 2 8

/-- `apply_be`; the loop runs over `be'range`, that is 3 downto 0. -/
def applyBe (reg wrsignal : BitVec 32) (be : BitVec 4) : BitVec 32 :=
  writeLanes [3, 2, 1, 0] reg wrsignal be

/-- Process `p_write`. -/
def pWrite (arstn edge : Bool) (bus : ApbBus) (r : ApbRegs) : BitVec 32 :=
  if !arstn then 0#32
  else if edge then
    if bus.psel && !bus.penable && bus.pwrite then
      if bus.regAddr = 0x00#8 then applyBe r.slvReg0 bus.pwdata bus.pstrb else r.slvReg0
    else r.slvReg0
  else r.slvReg0

/-- Process `p_read`. -/
def pRead (arstn edge : Bool) (bus : ApbBus) (r : ApbRegs) : BitVec 32 :=
  if !arstn then 0#32
  else if edge then
    if bus.psel && !bus.penable && !bus.pwrite then
      if bus.regAddr = 0x00#8 then r.slvReg0 else 0#32
    else r.apbPrdataReg
  else r.apbPrdataReg

/-- One activation of the two processes. -/
structure Activation where
  arstn : Bool
  edge : Bool
  bus : ApbBus

def ApbRegs.next (r : ApbRegs) (a : Activation) : ApbRegs where
  slvReg0 := pWrite a.arstn a.edge a.bus r
  apbPrdataReg := pRead a.arstn a.edge a.bus r

/-- Instance `i_xbar` with the port map of the three register fields. -/
def ApbRegs.xbar (r : ApbRegs) (controllerTx : BitVec 8) (busRx : BitVec 4) : Ports 8 4 2 where
  controllerTx := controllerTx
  busRx := busRx
  selControllerLine := r.slvReg0.extractLsb' 0 16
  selBusLine := r.slvReg0.extractLsb' 16 8
  busOe := r.slvReg0.extractLsb' 24 4

theorem applyBe_eq_mergeBytes (reg wrsignal : BitVec 32) (be : BitVec 4) :
    applyBe reg wrsignal be = mergeBytes reg wrsignal be := by
  refine writeLanes_eq_mergeBytes (fun k hk => ?_) reg wrsignal be
  have hlane : k / 8 < 4 := by omega
  interval_cases k / 8 <;> simp

/-! ### The bus master -/

/-- What one APB transfer is about. -/
structure Transfer where
  write : Bool
  addr : BitVec 32
  wdata : BitVec 32
  strb : BitVec 4
deriving DecidableEq

/-- Address bits 9..2 are zero. -/
def Transfer.selectsReg0 (t : Transfer) : Prop := t.addr.toNat / 4 % 256 = 0

instance (t : Transfer) : Decidable t.selectsReg0 :=
  inferInstanceAs (Decidable (t.addr.toNat / 4 % 256 = 0))

def ApbBus.transfer (bus : ApbBus) : Transfer :=
  ⟨bus.pwrite, bus.paddr, bus.pwdata, bus.pstrb⟩

/-- Where the master is between clock edges.  After a reset it may drop the transfer it
was in the middle of, or carry it to its access cycle. -/
inductive Phase
  | idle
  | access (t : Transfer) (droppable : Bool)
deriving DecidableEq

/-- The bus as the protocol sees it: the phase, and the transfers since the last reset. -/
structure Master where
  phase : Phase
  transfers : List Transfer
deriving DecidableEq

namespace ApbBus

/-- The cycle ending at this edge is a setup cycle. -/
def setup (bus : ApbBus) : Bool := bus.psel && !bus.penable

/-- The cycle ending at this edge is the access cycle of `t`. -/
def accessOf (bus : ApbBus) (t : Transfer) : Bool :=
  bus.psel && bus.penable && decide (bus.transfer = t)

end ApbBus

/-- Signals that do not continue a transfer: a deselected cycle or a setup cycle. -/
def ApbBus.fresh (bus : ApbBus) : Bool := !(bus.psel && bus.penable)

namespace Master

/-- What the two-phase protocol allows the master to show at the next clock edge. -/
def follows (m : Master) (bus : ApbBus) : Bool :=
  match m.phase with
  | .idle => bus.fresh
  | .access t droppable => bus.accessOf t || (droppable && bus.fresh)

/-- The phase after a clock edge. -/
def phaseAfter (bus : ApbBus) (droppable : Bool) : Phase :=
  if bus.setup then .access bus.transfer droppable else .idle

def next (m : Master) (a : Activation) : Master :=
  if a.edge then
    { phase := phaseAfter a.bus (!a.arstn)
      transfers :=
        if !a.arstn then []
        else if a.bus.setup then m.transfers ++ [a.bus.transfer] else m.transfers }
  else if !a.arstn then
    { phase := match m.phase with
        | .idle => .idle
        | .access t _ => .access t true
      transfers := [] }
  else m

end Master

/-- What one transfer does to the configuration word. -/
def Transfer.apply (word : BitVec 32) (t : Transfer) : BitVec 32 :=
  if t.write = true ∧ t.selectsReg0 then mergeBytes word t.wdata t.strb else word

/-- The word `R`: zero, then every write transfer to register 0 merged in, in order. -/
def configWord (transfers : List Transfer) : BitVec 32 :=
  transfers.foldl Transfer.apply 0#32

/-- The routing that the configuration word describes. -/
def configRouting (word : BitVec 32) : Routing 8 4 where
  controllerLine := fun c => word.toNat / 2 ^ (2 * c.val) % 4
  busLine := fun b => word.toNat / 2 ^ (16 + 2 * b.val) % 4
  oe := fun b => word.getLsbD (24 + b.val)

/-- The entity and the master watching its bus. -/
structure ApbState where
  regs : ApbRegs
  master : Master

/-- Runs from a reset, driven by any master that follows the protocol. -/
def apbSystem : System ApbState Activation where
  init := fun s => s = ⟨⟨0#32, 0#32⟩, ⟨.idle, []⟩⟩
  allowed := fun s a => a.edge = true → s.master.follows a.bus = true
  next := fun s a => ⟨s.regs.next a, s.master.next a⟩

instance (s : ApbState) (a : Activation) : Decidable (apbSystem.allowed s a) :=
  inferInstanceAs (Decidable (a.edge = true → s.master.follows a.bus = true))

/-! ### The two processes in the master's words -/

theorem regAddr_eq_zero_iff (bus : ApbBus) :
    bus.regAddr = 0x00#8 ↔ bus.transfer.selectsReg0 := by
  rw [← BitVec.toNat_inj]
  simp [ApbBus.regAddr, Transfer.selectsReg0, ApbBus.transfer, BitVec.extractLsb'_toNat,
    Nat.shiftRight_eq_div_pow]

/-- Outside reset the write process applies the transfer of a setup cycle, and nothing else. -/
theorem slvReg0_next (r : ApbRegs) {a : Activation} (ha : a.arstn = true) :
    (r.next a).slvReg0
      = if a.edge = true ∧ a.bus.setup = true then a.bus.transfer.apply r.slvReg0
        else r.slvReg0 := by
  show pWrite a.arstn a.edge a.bus r = _
  unfold pWrite Transfer.apply
  simp only [regAddr_eq_zero_iff, applyBe_eq_mergeBytes, ha]
  cases a.edge <;> cases hp : a.bus.psel <;> cases he : a.bus.penable <;>
    cases hw : a.bus.pwrite <;> simp [ApbBus.setup, ApbBus.transfer, hp, he, hw]

/-- At the end of the setup cycle of a read the read process fetches the word. -/
theorem apbPrdataReg_next_read (r : ApbRegs) {a : Activation} (ha : a.arstn = true)
    (hedge : a.edge = true) (hsetup : a.bus.setup = true)
    (hread : a.bus.transfer.write = false) :
    (r.next a).apbPrdataReg = if a.bus.transfer.selectsReg0 then r.slvReg0 else 0#32 := by
  obtain ⟨hp, he⟩ : a.bus.psel = true ∧ a.bus.penable = false := by
    simpa [ApbBus.setup] using hsetup
  have hw : a.bus.pwrite = false := hread
  show pRead a.arstn a.edge a.bus r = _
  unfold pRead
  simp only [regAddr_eq_zero_iff]
  simp [ha, hedge, hp, he, hw]

@[simp] theorem next_of_reset (r : ApbRegs) {a : Activation} (ha : a.arstn = false) :
    r.next a = ⟨0#32, 0#32⟩ := by
  simp [ApbRegs.next, pWrite, pRead, ha]

@[simp] theorem next_of_settled (r : ApbRegs) {a : Activation} (ha : a.arstn = true)
    (hedge : a.edge = false) : r.next a = r := by
  simp [ApbRegs.next, pWrite, pRead, ha, hedge]

theorem configWord_append (ts : List Transfer) (t : Transfer) :
    configWord (ts ++ [t]) = t.apply (configWord ts) := by
  simp [configWord]

/-- What ties the registers to the transfers seen on the bus. -/
structure ApbInv (s : ApbState) : Prop where
  word : s.regs.slvReg0 = configWord s.master.transfers
  /-- In the access cycle of a read the fetched word is still the current one. -/
  read : ∀ t d, s.master.phase = .access t d → t.write = false →
    s.regs.apbPrdataReg = if t.selectsReg0 then configWord s.master.transfers else 0#32

theorem apbInv_init {s : ApbState} (hs : apbSystem.init s) : ApbInv s := by
  subst hs
  exact ⟨rfl, fun t d ht => by simp at ht⟩

theorem apbInv_of_reset (s : ApbState) {a : Activation} (ha : a.arstn = false) :
    ApbInv (apbSystem.next s a) := by
  have hregs : (apbSystem.next s a).regs = ⟨0#32, 0#32⟩ := next_of_reset s.regs ha
  have htransfers : (apbSystem.next s a).master.transfers = [] := by
    show (s.master.next a).transfers = []
    cases hedge : a.edge <;> simp [Master.next, ha, hedge]
  refine ⟨by rw [hregs, htransfers]; rfl, fun t d _ _ => ?_⟩
  rw [hregs, htransfers]
  simp [configWord]

/-- A cycle that is no setup cycle leaves the word alone and ends what was going on. -/
theorem ApbInv.next_quiet {s : ApbState} {a : Activation} (hs : ApbInv s)
    (ha : a.arstn = true) (hedge : a.edge = true) (hsetup : a.bus.setup = false) :
    ApbInv (apbSystem.next s a) := by
  have hmaster : (apbSystem.next s a).master = ⟨.idle, s.master.transfers⟩ := by
    show s.master.next a = _
    simp [Master.next, Master.phaseAfter, ha, hedge, hsetup]
  refine ⟨?_, fun t d ht => by simp [hmaster] at ht⟩
  rw [hmaster, ← hs.word]
  show (s.regs.next a).slvReg0 = s.regs.slvReg0
  rw [slvReg0_next s.regs ha, if_neg (by simp [hsetup])]

theorem ApbInv.next_setup {s : ApbState} {a : Activation} (hs : ApbInv s)
    (ha : a.arstn = true) (hedge : a.edge = true) (hsetup : a.bus.setup = true) :
    ApbInv (apbSystem.next s a) := by
  have hmaster : (apbSystem.next s a).master
      = ⟨.access a.bus.transfer false, s.master.transfers ++ [a.bus.transfer]⟩ := by
    show s.master.next a = _
    simp [Master.next, Master.phaseAfter, ha, hedge, hsetup]
  refine ⟨?_, fun t d ht hread => ?_⟩
  · rw [hmaster, configWord_append, ← hs.word]
    show (s.regs.next a).slvReg0 = a.bus.transfer.apply s.regs.slvReg0
    rw [slvReg0_next s.regs ha, if_pos ⟨hedge, hsetup⟩]
  · rw [hmaster] at ht
    obtain ⟨rfl, -⟩ : a.bus.transfer = t ∧ false = d := by simpa using ht
    rw [hmaster, configWord_append]
    -- a read leaves the word alone, so the fetched value is the word after it, too
    have happly : a.bus.transfer.apply (configWord s.master.transfers)
        = configWord s.master.transfers := by simp [Transfer.apply, hread]
    rw [happly, ← hs.word]
    exact apbPrdataReg_next_read s.regs ha hedge hsetup hread

theorem apbInv_next {s : ApbState} {a : Activation} (hs : ApbInv s) :
    ApbInv (apbSystem.next s a) := by
  cases ha : a.arstn with
  | false => exact apbInv_of_reset s ha
  | true =>
      cases hedge : a.edge with
      | false =>
          have hnext : apbSystem.next s a = s := by
            show (⟨s.regs.next a, s.master.next a⟩ : ApbState) = s
            rw [next_of_settled s.regs ha hedge]
            simp [Master.next, ha, hedge]
          rw [hnext]
          exact hs
      | true =>
          cases hsetup : a.bus.setup with
          | false => exact hs.next_quiet ha hedge hsetup
          | true => exact hs.next_setup ha hedge hsetup

/-! ### The pins -/

/-- The port map decodes the register the way the configuration word is described. -/
theorem xbar_routing (r : ApbRegs) (controllerTx : BitVec 8) (busRx : BitVec 4) :
    (r.xbar controllerTx busRx).routing = configRouting r.slvReg0 := by
  have hc : ∀ c : Fin 8, @lineOf 8 2 (r.slvReg0.extractLsb' 0 16) c
      = r.slvReg0.toNat / 2 ^ (2 * c.val) % 4 := by
    intro c
    simp only [lineOf, BitVec.extractLsb'_toNat, Nat.shiftRight_zero]
    fin_cases c <;> simp <;> omega
  have hb : ∀ b : Fin 4, @lineOf 4 2 (r.slvReg0.extractLsb' 16 8) b
      = r.slvReg0.toNat / 2 ^ (16 + 2 * b.val) % 4 := by
    intro b
    simp only [lineOf, BitVec.extractLsb'_toNat, Nat.shiftRight_eq_div_pow]
    fin_cases b <;> simp <;> omega
  have hoe : ∀ b : Fin 4,
      (r.slvReg0.extractLsb' 24 4).getLsb b = r.slvReg0.getLsbD (24 + b.val) := by
    intro b
    simp
  simp only [Ports.routing, ApbRegs.xbar, configRouting, Routing.mk.injEq]
  exact ⟨funext hc, funext hb, funext hoe⟩

/--
**The crossbar as software sees it.**  In every state of every run of the entity under a
protocol-abiding master the register is the configuration word of the write transfers
since the last reset, the access cycle of a read shows that word at register 0 and zero
elsewhere, and the pins are the wired-AND crossbar under the routing the word describes.
Outside reset the register changes at the end of a setup cycle only, by that one transfer.
-/
theorem apb_configWord {h : List (ApbState × Activation)} {s : ApbState}
    (r : Run apbSystem h s) :
    (s.regs.slvReg0 = configWord s.master.transfers ∧
      ∀ e ∈ h, e.2.arstn = true → (e.1.regs.next e.2).slvReg0
        = if e.2.edge = true ∧ e.2.bus.setup = true
          then e.2.bus.transfer.apply e.1.regs.slvReg0 else e.1.regs.slvReg0) ∧
    (∀ t d, s.master.phase = .access t d → t.write = false →
      s.regs.apbPrdataReg = if t.selectsReg0 then configWord s.master.transfers else 0#32) ∧
    ∀ (controllerTx : BitVec 8) (busRx : BitVec 4),
      (∀ b, (s.regs.xbar controllerTx busRx).busTx.getLsb b
        = (configRouting (configWord s.master.transfers)).busTx controllerTx.getLsb b) ∧
      (∀ c, (s.regs.xbar controllerTx busRx).controllerRx.getLsb c
        = (configRouting (configWord s.master.transfers)).controllerRx
            controllerTx.getLsb busRx.getLsb c) := by
  have inv : ApbInv s := r.invariant (fun _ => apbInv_init) fun _ _ hs _ => apbInv_next hs
  refine ⟨⟨inv.word, fun e _ ha => slvReg0_next e.1.regs ha⟩, inv.read,
    fun controllerTx busRx => ?_⟩
  obtain ⟨hbus, hctrl⟩ := canCrossbar_routing (s.regs.xbar controllerTx busRx)
  rw [xbar_routing, inv.word] at hbus hctrl
  exact ⟨hbus, hctrl⟩

/-- A two-byte write of `0xdeadbeef` at address 0, then a read at `0x400`, which decodes
to the same register: the access cycle of the read shows the two bytes. -/
theorem apb_configWord_readback :
    let write : ApbBus := ⟨0x000#32, true, false, true, 0b0011#4, 0xdeadbeef#32⟩
    let read : ApbBus := ⟨0x400#32, true, false, false, 0#4, 0#32⟩
    (apbSystem.runFrom ⟨⟨0#32, 0#32⟩, ⟨.idle, []⟩⟩
      [⟨true, true, write⟩, ⟨true, true, { write with penable := true }⟩,
        ⟨true, true, read⟩]).regs.apbPrdataReg = 0x0000beef#32 := by
  intro write read
  have r := apbSystem.run_of_steps
    [⟨true, true, write⟩, ⟨true, true, { write with penable := true }⟩, ⟨true, true, read⟩]
    (Run.start (M := apbSystem) (s := ⟨⟨0#32, 0#32⟩, ⟨.idle, []⟩⟩) rfl) (by decide)
  exact ((apb_configWord r).2.1 read.transfer false (by decide) rfl).trans (by decide +kernel)

end CanBench.Crossbar
