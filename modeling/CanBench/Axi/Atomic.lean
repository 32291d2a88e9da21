/-
The slave serves its bank as if every access were one step.

An access goes through three clocks: it is offered, the ready pulse takes it, its answer
appears.  What makes the slave look atomic is `Agreed`: the two write readies pulse
together, and only over a beat that is still the one the address register was loaded from.
So the write that reaches the bank is the one on the pins, and the word a read returns is
the one the bank held when the read was taken.

The ready pulses do not look at `axi_bvalid` and `axi_rvalid`.  A master that has the next
access taken while an answer is still on the bus gets no answer for it, and from there on
the answers no longer belong to the accesses: `slave_atomic_iff` says that this is the
only way to fall out of step.  `patient_in_step` names the masters to which it never
happens.
-/
import CanBench.Axi.RegBank

namespace CanBench.Axi

open Lib

namespace Watched

variable {addrWidth locWidth : Nat} {ρ : Type} (B : RegBank addrWidth locWidth ρ)

/-- What the handshake keeps whatever the master does: the readies of a write come as one
pulse, and an address register loaded under its ready still shows what is on offer. -/
structure Agreed (x : Watched addrWidth locWidth) : Prop where
  file : x.bank.slvReg = x.served.file
  ready : x.bank.axi.axiWready = x.bank.axi.axiAwready
  write : x.bank.axi.axiAwready = true → x.aw = some x.bank.axi.axiAwaddr ∧ x.w.isSome
  read : x.bank.axi.axiArready = true → x.ar = some x.bank.axi.axiAraddr

theorem reset_agreed : (reset B : Watched addrWidth locWidth).Agreed := by
  refine ⟨rfl, rfl, ?_, ?_⟩ <;> intro h <;> exact absurd h (by simp [reset, RegBank.reset,
    SlaveRegs.reset])

theorem reset_inStep : (reset B : Watched addrWidth locWidth).InStep :=
  ⟨rfl, rfl, rfl⟩

variable {x : Watched addrWidth locWidth} {i : SlaveIn addrWidth} {port : ρ}

theorem next_of_reset (hi : i.aresetn = false) : next B x (i, port) = reset B := by
  simp [next, hi]

/-- A write ready over a beat of an obedient master takes both beats. -/
theorem Agreed.beats (hx : x.Agreed) (hi : i.aresetn = true) (ok : x.allows i) :
    awBeat x.bank.axi i = x.bank.axi.axiAwready ∧ wBeat x.bank.axi i = x.bank.axi.axiAwready ∧
      (x.bank.axi.axiAwready = true → i.awaddr = x.bank.axi.axiAwaddr) := by
  obtain ⟨hokaw, hokw, -⟩ := ok hi
  by_cases hready : x.bank.axi.axiAwready = true
  · obtain ⟨haw, hw⟩ := hx.write hready
    obtain ⟨p, hp⟩ := Option.isSome_iff_exists.mp hw
    obtain ⟨hawvalid, hawaddr⟩ := hokaw _ haw
    obtain ⟨hwvalid, -⟩ := hokw p hp
    have hwready : x.bank.axi.axiWready = true := by rw [hx.ready, hready]
    exact ⟨by rw [awBeat, hready, hawvalid]; rfl, by rw [wBeat, hwready, hwvalid, hready]; rfl,
      fun _ => hawaddr⟩
  · have hready' : x.bank.axi.axiAwready = false := by simpa using hready
    have hwready : x.bank.axi.axiWready = false := by rw [hx.ready, hready']
    exact ⟨by rw [awBeat, hready']; rfl, by rw [wBeat, hwready, hready']; rfl,
      fun h => absurd h hready⟩

/-- The same for the read channel. -/
theorem Agreed.arBeat_eq (hx : x.Agreed) (hi : i.aresetn = true) (ok : x.allows i) :
    arBeat x.bank.axi i = x.bank.axi.axiArready ∧
      (x.bank.axi.axiArready = true → i.araddr = x.bank.axi.axiAraddr) := by
  obtain ⟨-, -, hokar⟩ := ok hi
  by_cases hready : x.bank.axi.axiArready = true
  · obtain ⟨harvalid, haraddr⟩ := hokar _ (hx.read hready)
    exact ⟨by rw [arBeat, hready, harvalid]; rfl, fun _ => haraddr⟩
  · have hready' : x.bank.axi.axiArready = false := by simpa using hready
    exact ⟨by rw [arBeat, hready']; rfl, fun h => absurd h hready⟩

theorem Agreed.slvRegWren (hx : x.Agreed) (hi : i.aresetn = true) (ok : x.allows i) :
    x.bank.axi.slvRegWren i = x.bank.axi.axiAwready := by
  obtain ⟨haw, hw, -⟩ := hx.beats hi ok
  have hwren : x.bank.axi.slvRegWren i = (wBeat x.bank.axi i && awBeat x.bank.axi i) := by
    simp [SlaveRegs.slvRegWren, awBeat, wBeat, Bool.and_assoc]
  rw [hwren, haw, hw, Bool.and_self]

theorem Agreed.writeTaken_eq (hx : x.Agreed) (hi : i.aresetn = true) (ok : x.allows i) :
    writeTaken x.bank.axi i
      = if x.bank.axi.axiAwready then some (x.bank.axi.axiAwaddr, i.wdata, i.wstrb)
        else none := by
  obtain ⟨haw, hw, haddr⟩ := hx.beats hi ok
  rw [writeTaken, haw, hw, Bool.and_self]
  by_cases hready : x.bank.axi.axiAwready = true
  · rw [if_pos hready, if_pos hready, haddr hready]
  · rw [if_neg hready, if_neg hready]

theorem Agreed.readTaken_eq (hx : x.Agreed) (hi : i.aresetn = true) (ok : x.allows i) :
    readTaken x.bank.axi i port
      = if x.bank.axi.axiArready then some (x.bank.axi.axiAraddr, port) else none := by
  obtain ⟨har, haddr⟩ := hx.arBeat_eq hi ok
  rw [readTaken, har]
  by_cases hready : x.bank.axi.axiArready = true
  · rw [if_pos hready, if_pos hready, haddr hready]
  · rw [if_neg hready, if_neg hready]

/-- The register process applies the write that the pins show. -/
theorem Agreed.next_slvReg (hx : x.Agreed) (hi : i.aresetn = true) (ok : x.allows i) :
    (B.next x.bank i port).slvReg
      = B.file.updated x.bank.slvReg (writeTaken x.bank.axi i) := by
  have hnext : (B.next x.bank i port).slvReg
      = if x.bank.axi.slvRegWren i then
          B.writeReg (locAddr locWidth x.bank.axi.axiAwaddr) i.wdata i.wstrb
            (B.tick x.bank.slvReg)
        else B.tick x.bank.slvReg := by
    simp [RegBank.next, hi]
  rw [hnext, hx.slvRegWren hi ok, hx.writeTaken_eq hi ok]
  by_cases hready : x.bank.axi.axiAwready = true
  · rw [if_pos hready, if_pos hready]
    rfl
  · rw [if_neg hready, if_neg hready]
    rfl

/-- One clock keeps the agreement. -/
theorem Agreed.next (hx : x.Agreed) (ok : x.allows i) : (Watched.next B x (i, port)).Agreed := by
  by_cases hi : i.aresetn = true
  · have hnext : Watched.next B x (i, port) =
        { bank := B.next x.bank i port
          aw := Held.next i.awvalid x.bank.axi.axiAwready i.awaddr
          w := Held.next i.wvalid x.bank.axi.axiWready (i.wdata, i.wstrb)
          ar := Held.next i.arvalid x.bank.axi.axiArready i.araddr
          served := B.file.serve x.served (writeTaken x.bank.axi i)
            (readTaken x.bank.axi i port) (bDone x.bank.axi i) (rDone x.bank.axi i) } := by
      simp [Watched.next, hi]
    have hbank : (B.next x.bank i port).axi
        = x.bank.axi.next true
            (B.read x.bank.slvReg port (locAddr locWidth x.bank.axi.axiAraddr)) i := by
      simp [RegBank.next, hi]
    rw [hnext]
    refine ⟨?_, ?_, ?_, ?_⟩
    · show (B.next x.bank i port).slvReg
        = B.file.updated x.served.file (writeTaken x.bank.axi i)
      rw [hx.next_slvReg B hi ok, hx.file]
    · show (B.next x.bank i port).axi.axiWready = (B.next x.bank i port).axi.axiAwready
      rw [hbank, SlaveRegs.next_axiWready _ _ _ hi, SlaveRegs.next_axiAwready _ _ _ hi, hx.ready,
        Bool.and_true, Bool.and_assoc, Bool.and_assoc, Bool.and_comm i.wvalid]
    · show (B.next x.bank i port).axi.axiAwready = true → _ = some (B.next x.bank i port).axi.axiAwaddr
        ∧ _
      rw [hbank, SlaveRegs.next_axiAwready _ _ _ hi, SlaveRegs.next_axiAwaddr _ _ _ hi]
      intro hready
      have haccept : x.bank.axi.awAccept i = true := hready
      simp only [Bool.and_eq_true, Bool.not_eq_true'] at hready
      obtain ⟨⟨hlow, haw⟩, hw⟩ := hready
      rw [if_pos haccept, hlow, hx.ready, hlow, haw, hw]
      exact ⟨rfl, rfl⟩
    · show (B.next x.bank i port).axi.axiArready = true → _ = some (B.next x.bank i port).axi.axiAraddr
      rw [hbank, SlaveRegs.next_axiArready _ _ _ hi, SlaveRegs.next_axiAraddr _ _ _ hi]
      intro hready
      rw [if_pos hready]
      simp only [Bool.and_eq_true, Bool.not_eq_true'] at hready
      rw [hready.1, hready.2]
      rfl
  · rw [next_of_reset B (by simpa using hi)]
    exact reset_agreed B

/-! ### Answers -/

/-- Without an overlap every answer is on the bus for as long as it is owed. -/
theorem InStep.next (hs : x.InStep) (hx : x.Agreed) (ok : x.allows i)
    (hover : overlaps x.bank.axi i = false) : (Watched.next B x (i, port)).InStep := by
  by_cases hi : i.aresetn = true
  · have hbank : (B.next x.bank i port).axi
        = x.bank.axi.next true
            (B.read x.bank.slvReg port (locAddr locWidth x.bank.axi.axiAraddr)) i := by
      simp [RegBank.next, hi]
    have hserved : (Watched.next B x (i, port)).served
        = B.file.serve x.served (writeTaken x.bank.axi i) (readTaken x.bank.axi i port)
            (bDone x.bank.axi i) (rDone x.bank.axi i) := by
      simp [Watched.next, hi]
    have hbank' : (Watched.next B x (i, port)).bank = B.next x.bank i port := by
      simp [Watched.next, hi]
    obtain ⟨haw, hw, -⟩ := hx.beats hi ok
    obtain ⟨har, -⟩ := hx.arBeat_eq hi ok
    rw [overlaps, hi, haw, hw, har, Bool.and_self, Bool.true_and, Bool.or_eq_false_iff,
      Bool.and_eq_false_imp, Bool.and_eq_false_imp] at hover
    refine ⟨(hx.next B ok).file, ?_, ?_⟩
    · rw [hserved, hbank', hbank, SlaveRegs.next_axiBvalid _ _ _ hi, hx.slvRegWren hi ok]
      show x.served.writes + (writeTaken x.bank.axi i).isSome.toNat
        - (bDone x.bank.axi i).toNat = _
      rw [hs.writes, hx.writeTaken_eq hi ok, bDone]
      by_cases hready : x.bank.axi.axiAwready = true
      · rw [hover.1 hready, hready]
        rfl
      · rw [show x.bank.axi.axiAwready = false by simpa using hready]
        rcases Bool.eq_false_or_eq_true x.bank.axi.axiBvalid with hb | hb <;>
          rcases Bool.eq_false_or_eq_true i.bready with hr | hr <;> rw [hb, hr] <;> rfl
    · rw [hserved, hbank', hbank, SlaveRegs.next_axiRvalid _ _ _ hi,
        SlaveRegs.next_axiRdata _ _ _ hi]
      have hrden : x.bank.axi.slvRegRden i = (x.bank.axi.axiArready && !x.bank.axi.axiRvalid) := by
        rw [← har]
        rfl
      rw [hrden]
      show (if rDone x.bank.axi i then x.served.reads.tail else x.served.reads)
        ++ ((readTaken x.bank.axi i port).map (B.file.read · x.served.file)).toList = _
      rw [hs.reads, hx.readTaken_eq hi ok, rDone]
      by_cases hready : x.bank.axi.axiArready = true
      · rw [hover.2 hready, hready, ← hx.file]
        rfl
      · rw [show x.bank.axi.axiArready = false by simpa using hready]
        rcases Bool.eq_false_or_eq_true x.bank.axi.axiRvalid with hb | hb <;>
          rcases Bool.eq_false_or_eq_true i.rready with hr | hr <;> rw [hb, hr] <;> rfl
  · rw [next_of_reset B (by simpa using hi)]
    exact reset_inStep B

/-- An overlap leaves more owed than one channel can show. -/
theorem InStep.not_next (hs : x.InStep) (hx : x.Agreed) (ok : x.allows i)
    (hover : overlaps x.bank.axi i = true) : ¬ (Watched.next B x (i, port)).InStep := by
  intro hbad
  have hi : i.aresetn = true := by
    rw [overlaps, Bool.and_eq_true] at hover
    exact hover.1
  have hserved : (Watched.next B x (i, port)).served
      = B.file.serve x.served (writeTaken x.bank.axi i) (readTaken x.bank.axi i port)
          (bDone x.bank.axi i) (rDone x.bank.axi i) := by
    simp [Watched.next, hi]
  have hbank : (Watched.next B x (i, port)).bank.axi
      = x.bank.axi.next true
          (B.read x.bank.slvReg port (locAddr locWidth x.bank.axi.axiAraddr)) i := by
    simp [Watched.next, RegBank.next, hi]
  obtain ⟨haw, hw, -⟩ := hx.beats hi ok
  obtain ⟨har, -⟩ := hx.arBeat_eq hi ok
  rw [overlaps, hi, haw, hw, har, Bool.and_self, Bool.true_and, Bool.or_eq_true,
    Bool.and_eq_true, Bool.and_eq_true] at hover
  rcases hover with ⟨hready, hb⟩ | ⟨hready, hr⟩
  · have hcount := hbad.writes
    rw [hserved, hbank, SlaveRegs.next_axiBvalid _ _ _ hi, hx.slvRegWren hi ok, hready, hb] at hcount
    have howed : (B.file.serve x.served (writeTaken x.bank.axi i) (readTaken x.bank.axi i port)
        (bDone x.bank.axi i) (rDone x.bank.axi i)).writes = 2 - i.bready.toNat := by
      show x.served.writes + (writeTaken x.bank.axi i).isSome.toNat
        - (bDone x.bank.axi i).toNat = _
      rw [hs.writes, hx.writeTaken_eq hi ok, bDone, hready, hb]
      rfl
    rw [howed] at hcount
    rcases Bool.eq_false_or_eq_true i.bready with h | h <;> rw [h] at hcount <;>
      exact absurd hcount (by simp)
  · have hqueue := congrArg List.length hbad.reads
    rw [hserved, hbank, SlaveRegs.next_axiRvalid _ _ _ hi] at hqueue
    have hrden : x.bank.axi.slvRegRden i = false := by
      simp [SlaveRegs.slvRegRden, hr]
    have howed : (B.file.serve x.served (writeTaken x.bank.axi i) (readTaken x.bank.axi i port)
        (bDone x.bank.axi i) (rDone x.bank.axi i)).reads.length = 2 - i.rready.toNat := by
      show ((if rDone x.bank.axi i then x.served.reads.tail else x.served.reads)
        ++ ((readTaken x.bank.axi i port).map (B.file.read · x.served.file)).toList).length = _
      rw [hs.reads, hx.readTaken_eq hi ok, rDone, hready, hr]
      rcases Bool.eq_false_or_eq_true i.rready with h | h <;> rw [h] <;> rfl
    rw [howed, hrden, hr] at hqueue
    rcases Bool.eq_false_or_eq_true i.rready with h | h <;> rw [h] at hqueue <;>
      exact absurd hqueue (by simp)

end Watched

variable {addrWidth locWidth : Nat} {ρ : Type} (B : RegBank addrWidth locWidth ρ)
  {h : List (Watched addrWidth locWidth × (SlaveIn addrWidth × ρ))}
  {s : Watched addrWidth locWidth}

/--
**The slave is its register file.**  Under any master that keeps what it offers, the words
of the bank are those of the register file, the answers on offer are exactly those owed,
and a read returns the word of the moment it was taken: throughout the run, if and only if
no access is taken while an answer of its own channel is on the bus.
-/
theorem slave_atomic_iff (r : Run B.watched h s) :
    (∀ x, Visits h s x → x.InStep) ↔ ∀ e ∈ h, overlaps e.1.bank.axi e.2.1 = false := by
  have hboth := r.exact (J := fun x => x.Agreed ∧ x.InStep) (P := Watched.InStep)
    (G := fun x e => overlaps x.bank.axi e.1 = false) ?_ ?_ ?_ ?_
  · exact hboth
  · intro x hx
    rw [show x = Watched.reset B from hx]
    exact ⟨Watched.reset_agreed B, Watched.reset_inStep B⟩
  · intro x e hx ok hover
    exact ⟨hx.1.next B ok, hx.2.next B hx.1 ok hover⟩
  · intro x hx
    exact hx.2
  · intro x e hx ok hover
    exact hx.2.not_next B hx.1 ok (by simpa using hover)

/-- A master that writes word 4 and is slow to take the answer. -/
def slowWrite : SlaveIn 5 where
  aresetn := true
  awaddr := 0x10#5
  awvalid := true
  wdata := 0x1234#32
  wstrb := 0xf#4
  wvalid := true
  bready := false
  araddr := 0#5
  arvalid := false
  rready := false

/-- Word 4 is written twice with the first answer left on the bus. -/
theorem slave_atomic_second_write_unanswered :
    ¬ ∀ x, Visits ((RegBank.plain 5 3).watched.steps (Watched.reset (.plain 5 3))
        (List.replicate 4 (slowWrite, ())))
      ((RegBank.plain 5 3).watched.runFrom (Watched.reset (.plain 5 3))
        (List.replicate 4 (slowWrite, ()))) x → x.InStep := by
  intro h
  have hrun := System.run_of_steps (RegBank.plain 5 3).watched (List.replicate 4 (slowWrite, ()))
    (Run.start rfl) (by decide)
  exact absurd ((slave_atomic_iff _ hrun).mp h) (by decide)

/-! ### Masters that stay in step -/

/-- While an answer is on the bus the master takes it or offers no further access on that
channel. -/
def patient (x : Watched addrWidth locWidth) (e : SlaveIn addrWidth × ρ) : Prop :=
  e.1.aresetn = true →
    (x.bank.axi.axiBvalid = true →
      e.1.bready = true ∨ e.1.awvalid = false ∨ e.1.wvalid = false) ∧
    (x.bank.axi.axiRvalid = true → e.1.rready = true ∨ e.1.arvalid = false)

instance (x : Watched addrWidth locWidth) (e : SlaveIn addrWidth × ρ) : Decidable (patient x e) :=
  inferInstanceAs (Decidable (_ → _ ∧ _))

/-- No ready pulse while an answer is on the bus. -/
structure Watched.Apart (x : Watched addrWidth locWidth) : Prop where
  write : x.bank.axi.axiBvalid = true → x.bank.axi.axiAwready = false
  read : x.bank.axi.axiRvalid = true → x.bank.axi.axiArready = false

theorem Watched.Apart.overlaps {x : Watched addrWidth locWidth} {i : SlaveIn addrWidth}
    (hx : x.Apart) : overlaps x.bank.axi i = false := by
  unfold Axi.overlaps awBeat arBeat
  rcases Bool.eq_false_or_eq_true x.bank.axi.axiBvalid with hb | hb <;>
    rcases Bool.eq_false_or_eq_true x.bank.axi.axiRvalid with hr | hr <;>
    simp [hb, hr, hx.write, hx.read]

theorem Watched.Agreed.next_apart {x : Watched addrWidth locWidth} {i : SlaveIn addrWidth}
    {port : ρ} (hg : x.Agreed) (ok : x.allows i) (hpatient : patient x (i, port)) :
    (Watched.next B x (i, port)).Apart := by
  by_cases hi : i.aresetn = true
  · have hbank : (Watched.next B x (i, port)).bank.axi
        = x.bank.axi.next true
            (B.read x.bank.slvReg port (locAddr locWidth x.bank.axi.axiAraddr)) i := by
      simp [Watched.next, RegBank.next, hi]
    obtain ⟨hb, hr⟩ :
        (x.bank.axi.axiBvalid = true → i.bready = true ∨ i.awvalid = false ∨ i.wvalid = false) ∧
        (x.bank.axi.axiRvalid = true → i.rready = true ∨ i.arvalid = false) := hpatient hi
    refine ⟨?_, ?_⟩
    · rw [hbank, SlaveRegs.next_axiBvalid _ _ _ hi, SlaveRegs.next_axiAwready _ _ _ hi,
        hg.slvRegWren hi ok]
      rcases Bool.eq_false_or_eq_true x.bank.axi.axiAwready with hready | hready
      · simp [hready]
      -- without a ready pulse an answer on the bus is an old one, and the master was patient
      · intro hbvalid
        have hold : i.bready = false ∧ x.bank.axi.axiBvalid = true := by
          rcases Bool.eq_false_or_eq_true i.bready with h | h <;>
            simp_all
        rcases hb hold.2 with h | h | h
        · exact absurd h (by simp [hold.1])
        · simp [h]
        · simp [h]
    · rw [hbank, SlaveRegs.next_axiRvalid _ _ _ hi, SlaveRegs.next_axiArready _ _ _ hi]
      rcases Bool.eq_false_or_eq_true x.bank.axi.axiArready with hready | hready
      · simp [hready]
      · intro hrvalid
        have hold : i.rready = false ∧ x.bank.axi.axiRvalid = true := by
          rcases Bool.eq_false_or_eq_true i.rready with h | h <;>
            simp_all [SlaveRegs.slvRegRden]
        rcases hr hold.2 with h | h
        · exact absurd h (by simp [hold.1])
        · simp [h]
  · rw [Watched.next_of_reset B (by simpa using hi)]
    exact ⟨fun h => absurd h (by simp [Watched.reset, RegBank.reset, SlaveRegs.reset]),
      fun h => absurd h (by simp [Watched.reset, RegBank.reset, SlaveRegs.reset])⟩

theorem patient_apart (r : Run B.watched h s) (hpatient : ∀ e ∈ h, patient e.1 e.2) :
    ∀ x, Visits h s x → x.Agreed ∧ x.Apart := by
  refine r.visits_of_good ?_ ?_ hpatient
  · intro x hx
    rw [show x = Watched.reset B from hx]
    exact ⟨Watched.reset_agreed B,
      ⟨fun h => absurd h (by simp [Watched.reset, RegBank.reset, SlaveRegs.reset]),
        fun h => absurd h (by simp [Watched.reset, RegBank.reset, SlaveRegs.reset])⟩⟩
  · intro x e hx ok hp
    exact ⟨hx.1.next B ok, hx.1.next_apart B ok hp⟩

theorem Watched.Agreed.slvRegRden {x : Watched addrWidth locWidth} {i : SlaveIn addrWidth}
    (hx : x.Agreed) (hapart : x.Apart) (hi : i.aresetn = true) (ok : x.allows i)
    (hready : x.bank.axi.axiArready = true) : x.bank.axi.slvRegRden i = true := by
  have hfree : x.bank.axi.axiRvalid = false := by
    by_contra hbusy
    exact absurd (hapart.read (by simpa using hbusy)) (by simp [hready])
  have har := (hx.arBeat_eq hi ok).1
  rw [hready] at har
  rw [SlaveRegs.slvRegRden, hfree, Bool.not_false, Bool.and_true]
  exact har

/-- The master of an access on offer lets the answer before it go first, so the ready that
answers the offer finds the channel free. -/
theorem Watched.Agreed.answer {x : Watched addrWidth locWidth} {i : SlaveIn addrWidth}
    (port : ρ) (hx : x.Agreed) (hapart : x.Apart) (hi : i.aresetn = true) (ok : x.allows i) :
    (x.bank.axi.axiAwready = true → (Watched.next B x (i, port)).bank.axi.axiBvalid = true) ∧
    (x.bank.axi.axiArready = true → (Watched.next B x (i, port)).bank.axi.axiRvalid = true) := by
  have hbank : (Watched.next B x (i, port)).bank.axi
      = x.bank.axi.next true
          (B.read x.bank.slvReg port (locAddr locWidth x.bank.axi.axiAraddr)) i := by
    simp [Watched.next, RegBank.next, hi]
  rw [hbank, SlaveRegs.next_axiBvalid _ _ _ hi, SlaveRegs.next_axiRvalid _ _ _ hi,
    hx.slvRegWren hi ok]
  refine ⟨?_, ?_⟩
  · intro hready
    have hfree : x.bank.axi.axiBvalid = false := by
      rcases Bool.eq_false_or_eq_true x.bank.axi.axiBvalid with hb | hb
      · exact absurd (hapart.write hb) (by simp [hready])
      · exact hb
    rw [hready, hfree]
    rfl
  · intro hready
    rw [hx.slvRegRden hapart hi ok hready]
    rfl

/--
**Patient masters get an atomic register file, and answers.**  A master that waits for each
answer, and one that takes every answer at once, never falls out of step; and what it offers
is answered one or two clocks later.
-/
theorem patient_served (r : Run B.watched h s) (hpatient : ∀ e ∈ h, patient e.1 e.2) :
    (∀ x, Visits h s x → x.InStep) ∧
    ∀ e₀ e₁ e₂, [e₀, e₁, e₂] <:+: h → e₀.2.1.aresetn = true → e₁.2.1.aresetn = true →
      (e₀.2.1.awvalid = true → e₀.2.1.wvalid = true →
        e₁.1.bank.axi.axiBvalid = true ∨ e₂.1.bank.axi.axiBvalid = true) ∧
      (e₀.2.1.arvalid = true →
        e₁.1.bank.axi.axiRvalid = true ∨ e₂.1.bank.axi.axiRvalid = true) := by
  have hapart := patient_apart B r hpatient
  refine ⟨(slave_atomic_iff B r).mpr ?_, ?_⟩
  · intro e he
    exact (hapart e.1 (Or.inr ⟨e.2, he⟩)).2.overlaps
  · intro e₀ e₁ e₂ hseg hi₀ hi₁
    have hmem₀ : e₀ ∈ h := hseg.subset (by simp)
    have hmem₁ : e₁ ∈ h := hseg.subset (by simp)
    have h01 : e₁.1 = Watched.next B e₀.1 e₀.2 :=
      r.next_of_pair (List.IsInfix.trans ⟨[], [e₂], rfl⟩ hseg)
    have h12 : e₂.1 = Watched.next B e₁.1 e₁.2 :=
      r.next_of_pair (List.IsInfix.trans ⟨[e₀], [], rfl⟩ hseg)
    obtain ⟨hx₀, hap₀⟩ := hapart e₀.1 (Or.inr ⟨e₀.2, hmem₀⟩)
    obtain ⟨hx₁, hap₁⟩ := hapart e₁.1 (Or.inr ⟨e₁.2, hmem₁⟩)
    obtain ⟨-, -, ok₀, -⟩ := r.of_mem e₀ hmem₀
    obtain ⟨-, -, ok₁, -⟩ := r.of_mem e₁ hmem₁
    obtain ⟨hb₀, hr₀⟩ := hx₀.answer B e₀.2.2 hap₀ hi₀ ok₀
    obtain ⟨hb₁, hr₁⟩ := hx₁.answer B e₁.2.2 hap₁ hi₁ ok₁
    have hready : e₁.1.bank.axi = e₀.1.bank.axi.next true
        (B.read e₀.1.bank.slvReg e₀.2.2 (locAddr locWidth e₀.1.bank.axi.axiAraddr)) e₀.2.1 := by
      rw [h01]
      simp [Watched.next, RegBank.next, hi₀]
    refine ⟨?_, ?_⟩
    · intro haw hw
      rcases Bool.eq_false_or_eq_true e₀.1.bank.axi.axiAwready with hnow | hlater
      · left
        rw [h01]
        exact hb₀ hnow
      · right
        rw [h12]
        apply hb₁
        rw [hready, SlaveRegs.next_axiAwready _ _ _ hi₀, hlater, haw, hw]
        rfl
    · intro har
      rcases Bool.eq_false_or_eq_true e₀.1.bank.axi.axiArready with hnow | hlater
      · left
        rw [h01]
        exact hr₀ hnow
      · right
        rw [h12]
        apply hr₁
        rw [hready, SlaveRegs.next_axiArready _ _ _ hi₀, hlater, har]
        rfl

/-- A patient master finds on the bus, one clock after its read was taken, what the register
file held then. -/
theorem read_answered (r : Run B.watched h s) (hpatient : ∀ e ∈ h, patient e.1 e.2)
    {e e' : Watched addrWidth locWidth × (SlaveIn addrWidth × ρ)} (hpair : [e, e'] <:+: h)
    (hi : e.2.1.aresetn = true) {a : BitVec addrWidth × ρ}
    (hread : readTaken e.1.bank.axi e.2.1 e.2.2 = some a) :
    e'.1.bank.axi.axiRvalid = true ∧
      e'.1.bank.axi.axiRdata = B.file.read a e.1.served.file := by
  have hmem : e ∈ h := hpair.subset (by simp)
  obtain ⟨hx, hap⟩ := patient_apart B r hpatient e.1 (Or.inr ⟨e.2, hmem⟩)
  obtain ⟨-, -, ok, -⟩ := r.of_mem e hmem
  have hnext : e'.1 = Watched.next B e.1 e.2 := r.next_of_pair hpair
  rw [hx.readTaken_eq hi ok] at hread
  have hready : e.1.bank.axi.axiArready = true := by
    by_contra hlow
    rw [if_neg hlow] at hread
    exact absurd hread (by simp)
  rw [if_pos hready, Option.some.injEq] at hread
  have hbank : (Watched.next B e.1 e.2).bank.axi
      = e.1.bank.axi.next true
          (B.read e.1.bank.slvReg e.2.2 (locAddr locWidth e.1.bank.axi.axiAraddr)) e.2.1 := by
    simp [Watched.next, RegBank.next, hi]
  refine ⟨?_, ?_⟩
  · rw [hnext]
    exact (hx.answer B e.2.2 hap hi ok).2 hready
  · rw [hnext, hbank, SlaveRegs.next_axiRdata _ _ _ hi,
      if_pos (hx.slvRegRden hap hi ok hready), ← hread, hx.file]
    rfl

/-- The same write by a master that takes each answer, and a read of the word after it. -/
def writeThenRead : List (SlaveIn 5 × Unit) :=
  [({ slowWrite with bready := true }, ()), ({ slowWrite with bready := true }, ()),
   ({ slowWrite with awvalid := false, wvalid := false, bready := true, arvalid := true
                     araddr := 0x10#5 }, ()),
   ({ slowWrite with awvalid := false, wvalid := false, bready := true, arvalid := true
                     araddr := 0x10#5, rready := true }, ())]

theorem patient_served_read_back :
    ((RegBank.plain 5 3).watched.runFrom (Watched.reset (.plain 5 3)) writeThenRead).bank.axi.axiRdata
      = 0x1234#32 ∧
    (∀ x, Visits ((RegBank.plain 5 3).watched.steps (Watched.reset (.plain 5 3)) writeThenRead)
      ((RegBank.plain 5 3).watched.runFrom (Watched.reset (.plain 5 3)) writeThenRead) x →
        x.InStep) :=
  ⟨by decide +kernel, (patient_served _ (System.run_of_steps (RegBank.plain 5 3).watched writeThenRead
    (Run.start rfl) (by decide)) (by decide)).1⟩

end CanBench.Axi
