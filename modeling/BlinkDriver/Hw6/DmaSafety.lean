import BlinkDriver.Hw6.Packets

/-!
# Where the device stores

The driver gives the device sixteen buffers and the ring, and takes them back in
`dma_freeUp`. `DevPc.Within` follows the driver core through the end of `make_DMA` and
through the removal; `Placed` knows head and tail at the write of `RCTL`, before which
the ring is set up; and `Machine.Held` says which memory the device still has at each
operation of the removal. `packets_intact` says that the device never stores to memory that
was taken back, nor to any that was not given, and that a packet stays as it arrived
until its descriptor is given back.
-/

namespace BlinkDriver.Hw6

open ByteMemory HandoverRing Transition

/-! ## What the device may store to -/

/-- Nothing that `make_DMA` has given the device has been taken back. -/
def Board.Live (b : Board) : Prop :=
  b.coherent = some ⟨b.dma.toNat, 256⟩ ∧ ∀ i, ⟨(b.bufferInfo i).toNat, 2048⟩ ∈ b.mappings

instance (b : Board) : Decidable b.Live := inferInstanceAs (Decidable (_ ∧ _))

/-- How far the driver core has come: everything is live until `pci_disable_device`, and
from there on the device is off the bus. -/
def DevPc.Within (live off : Prop) : DevPc → Prop
  | .probing rest => rest <:+ receiverOn ∧ live
  | .bound => live
  | .removing rest =>
      ((rest = pciBlinkDriverRemove ∨ rest = pciBlinkDriverRemove.tail) ∧ live) ∨
        rest <:+ pciBlinkDriverRemove.drop 2 ∧ off
  | .unbound => off
  | .failing _ | .dead => False

namespace DevPc.Within

variable {live off live' off' : Prop} {dev : DevPc}

theorem mono (within : dev.Within live off) (keeps : live → live') (stays : off → off') :
    dev.Within live' off' := by
  cases dev with
  | unbound => exact stays within
  | probing rest => exact ⟨within.1, keeps within.2⟩
  | bound => exact keeps within
  | removing rest =>
      rcases within with ⟨early, live⟩ | ⟨late, off⟩
      · exact .inl ⟨early, keeps live⟩
      · exact .inr ⟨late, stays off⟩
  | failing | dead => exact within

theorem live_of_on (within : dev.Within live off) (on : ¬ off) : live := by
  cases dev with
  | unbound => exact absurd within on
  | probing rest => exact within.2
  | bound => exact within
  | removing rest =>
      rcases within with ⟨-, live⟩ | ⟨-, off⟩
      · exact live
      · exact absurd off on
  | failing | dead => exact within.elim

/-- What is left of a probe or of a removal spares the ring. -/
theorem spares {op : Op} {rest : List Op} (within : dev.Within live off)
    (next : dev = .probing (op :: rest) ∨ dev = .removing (op :: rest)) : op.spares = true := by
  apply spares_of_mem
  rcases next with rfl | rfl
  · exact List.mem_append_left _ (within.1.subset List.mem_cons_self)
  · apply List.mem_append_right
    rcases within with ⟨all | first, -⟩ | ⟨late, -⟩
    · exact all ▸ List.mem_cons_self
    · exact List.mem_of_mem_tail (first ▸ List.mem_cons_self)
    · exact List.mem_of_mem_drop (late.subset List.mem_cons_self)

end DevPc.Within

/-- The machine is where it should be. -/
def Machine.Within (m : Machine) : Prop := m.dev.Within m.board.Live (m.master = false)

/-- A device on the bus has all that it was given. -/
theorem Machine.Within.live {m : Machine} (within : m.Within) (on : m.master = true) :
    m.board.Live :=
  within.live_of_on (by simp [on])

theorem Machine.Within.step {m t : Machine} {l : Activity} (within : m.Within)
    (moved : m.Step l t) : t.Within := by
  unfold Machine.Within at within ⊢
  cases moved with
  | probed dev =>
      rw [dev] at within
      exact within.2
  | @probe outcome op rest dev =>
      rw [dev] at within
      rcases within with ⟨left, live⟩
      have listed : op ∈ receiverOn := left.subset List.mem_cons_self
      simp only [receiverOn, List.mem_cons, List.not_mem_nil, or_false] at listed
      refine ⟨(List.suffix_cons ..).trans left, ?_⟩
      rcases listed with rfl | rfl | rfl <;> exact live
  | removed dev =>
      rw [dev] at within
      rcases within with ⟨all | first, -⟩ | ⟨-, off⟩
      · cases all
      · cases first
      · exact off
  | @remove outcome op rest dev =>
      rw [dev] at within
      rcases within with ⟨all | first, live⟩ | ⟨late, off⟩
      · cases all
        exact .inl ⟨.inr rfl, live⟩
      · cases first
        exact .inr ⟨List.suffix_refl _, Bool.and_false _⟩
      · refine .inr ⟨(List.suffix_cons ..).trans late, ?_⟩
        simp [Machine.operate, off]
  | unbind dev =>
      rw [dev] at within
      exact .inl ⟨.inl rfl, within⟩
  | receive | sys => exact within.mono id id

/-! ## Before the receiver is enabled -/

/-- What is known of the two ends of the ring: that the receiver is off, and that the
head and the tail are where `make_DMA` puts them. -/
structure Placed where
  quiet : Bool
  head : Bool
  tail : Bool

namespace Placed

/-- After an operation. -/
def learn (op : Op) (k : Placed) : Placed :=
  match op with
  | .writel v .ctrl => { k with quiet := k.quiet || v &&& ctrlRst != 0 }
  | .writel v .rctl =>
      { k with quiet := !v.getLsbD 1, head := k.head && !v.getLsbD 1 }
  | .writel v .rdh0 => { k with head := v == 0 }
  | .writel v .rdt0 => { k with tail := v == 0xF }
  | _ => k

/-- The device does not move a head that is known. -/
def ok (k : Placed) : Bool := k.quiet || !k.head

/-- What is known is true. -/
structure Hold (k : Placed) (b : Board) : Prop where
  quiet : k.quiet = true → Enabled b.regs = false
  head : k.head = true → b.regs.rdh0 = 0
  tail : k.tail = true → b.regs.rdt0 = 0xF

def nothing : Placed := ⟨false, false, false⟩

theorem checked_makeDMA : StraightLine.checked learn ok makeDMA nothing = true := by
  decide

namespace Hold

variable {k : Placed} {b : Board}

/-- A write of `CTRL` leaves the receiver off, and turns it off if it resets the device. -/
theorem writeCtrl (hold : k.Hold b) (v : U32) :
    Hold { k with quiet := k.quiet || v &&& ctrlRst != 0 }
      { b with regs := Hw6.writel v .ctrl b.regs } := by
  have off : Enabled { b.regs with ctrl := v &&& ~~~ctrlRst, rctl := 0 } = false :=
    (by decide : (0 : U32).getLsbD 1 = false)
  by_cases reset : v &&& ctrlRst = 0
  · simp only [Hw6.writel, reset, if_true]
    refine ⟨fun known => ?_, hold.head, hold.tail⟩
    simp only [bne_self_eq_false, Bool.or_false] at known
    exact hold.quiet known
  · simp only [Hw6.writel, reset, if_false]
    exact ⟨fun _ => off, hold.head, hold.tail⟩

theorem learn {op : Op} (hold : k.Hold b) (outcome : Option (BitVec 64)) :
    (k.learn op).Hold (op.perform outcome b) := by
  cases op with
  | writel v r =>
      cases r with
      | ctrl => exact hold.writeCtrl v
      | rctl =>
          refine ⟨fun off => ?_, fun known => ?_, hold.tail⟩
          · simpa [Placed.learn, Op.perform, Enabled, Hw6.writel] using off
          · exact hold.head (Bool.and_eq_true_iff.mp known).1
      | rdh0 => exact ⟨hold.quiet, fun zero => eq_of_beq zero, hold.tail⟩
      | rdt0 => exact ⟨hold.quiet, hold.head, fun last => eq_of_beq last⟩
      | icr | ims | imc | ledctl | rdbal0 | rdbah0 | rdlen0 => exact { hold with }
  | writelCtrl =>
      have written := hold.writeCtrl (b.regs.ctrl ||| 0x60)
      exact { written with quiet := fun off => written.quiet (Bool.or_eq_true_iff.mpr (.inl off)) }
  | readl r => cases r <;> exact { hold with }
  | dmaAllocCoherent | dmaMapSingle => cases outcome <;> exact { hold with }
  | _ => exact { hold with }

/-- A packet moves a head that is not known. -/
theorem device {t : Board} {packet : Packet} (hold : k.Hold b) (ok : k.ok = true)
    (received : b.device packet = some t) : k.Hold t := by
  rcases Option.ite_none_right_eq_some.mp received with ⟨⟨enabled, -⟩, same⟩
  cases same
  have loud : k.quiet = false := by
    apply Bool.eq_false_of_not_eq_true
    intro off
    rw [hold.quiet off] at enabled
    cases enabled
  simp only [Placed.ok, loud, Bool.false_or, Bool.not_eq_true'] at ok
  refine ⟨fun off => ?_, fun known => ?_, fun known => ?_⟩
  · exact absurd (loud.symm.trans off) Bool.false_ne_true
  · exact absurd (ok.symm.trans known) Bool.false_ne_true
  · exact (Regs.receive_rdt0 b.regs).trans (hold.tail known)

end Hold

end Placed

/-! ## What has been taken back -/

/-- The mapping of buffer `i`. -/
def Dma.region (d : Dma) (i : Fin 16) : Region := ⟨(d.buffer i).toNat, 2048⟩

/-- The DMA API hands out nothing that meets a mapping made earlier. -/
def Dma.Fresh (d : Dma) (mappings : List Region) : Prop :=
  ∀ r ∈ mappings, ∀ i, r.Apart (d.region i)

theorem Dma.region_injective (d : Dma) : Function.Injective d.region := by
  intro i j same
  by_contra other
  exact (d.buffersApart i j other).start_ne (by decide) (congrArg Region.start same)

theorem Dma.Fresh.not_mem {d : Dma} {mappings : List Region} (fresh : d.Fresh mappings)
    (i : Fin 16) : d.region i ∉ mappings :=
  fun member => (fresh _ member i).start_ne (by decide) rfl

/-- The slots mapped so far, the last one first, unless one has been unmapped. -/
def learnMapped (op : Op) (k : Option (List (Fin 16))) : Option (List (Fin 16)) :=
  match op with
  | .dmaMapSingle i => k.map (i :: ·)
  | .dmaUnmapSingle _ => none
  | _ => k

/-- To the mappings made earlier those of the slots have been added. -/
def Dma.Mapped (d : Dma) (mappings : List Region) (k : Option (List (Fin 16))) (b : Board) :
    Prop :=
  ∀ slots, k = some slots → b.mappings = slots.map d.region ++ mappings

theorem Dma.Mapped.learn {d : Dma} {mappings : List Region} {k : Option (List (Fin 16))}
    {b : Board} (mapped : d.Mapped mappings k b) (op : Op) (granted : Bool) :
    d.Mapped mappings (learnMapped op k) (op.perform (d.outcome granted op) b) := by
  cases op with
  | dmaMapSingle i =>
      intro slots known
      rcases Option.map_eq_some_iff.mp known with ⟨before, last, rfl⟩
      change d.region i :: b.mappings = _
      rw [mapped before last]
      rfl
  | dmaUnmapSingle i => exact fun _ known => by cases known
  | _ => exact mapped

/-- The operation takes back memory that the device was given. -/
def Op.takes : Op → Bool
  | .dmaUnmapSingle _ | .dmaFreeCoherent => true
  | _ => false

theorem mem_remove_of_takes {op : Op} (takes : op.takes = true) : op ∈ pciBlinkDriverRemove := by
  cases op with
  | dmaUnmapSingle i =>
      have all : ∀ i, Op.dmaUnmapSingle i ∈ pciBlinkDriverRemove := by decide
      exact all i
  | dmaFreeCoherent => decide
  | _ => cases takes

theorem nodup_remove : pciBlinkDriverRemove.Nodup := by decide

/-- Nothing else after the write of `RDT` touches what the device was given. -/
theorem regions_perform {b : Board} {op : Op} (outcome : Option (BitVec 64))
    (spares : op.spares = true) (leaves : op.takes = false) :
    (op.perform outcome b).mappings = b.mappings ∧
      (op.perform outcome b).coherent = b.coherent := by
  cases op with
  | dmaMapSingle | dmaAllocCoherent => cases spares
  | dmaUnmapSingle | dmaFreeCoherent => cases leaves
  | _ => exact ⟨rfl, rfl⟩

/-- The removal has come past the operation. -/
def DevPc.Past (op : Op) : DevPc → Prop
  | .removing rest => op ∉ rest
  | .unbound => True
  | .probing _ | .failing _ | .bound | .dead => False

instance (op : Op) : ∀ dev : DevPc, Decidable (dev.Past op)
  | .removing rest => inferInstanceAs (Decidable (op ∉ rest))
  | .unbound => inferInstanceAs (Decidable True)
  | .probing _ | .failing _ | .bound | .dead => inferInstanceAs (Decidable False)

theorem DevPc.past_cons {op next : Op} {rest : List Op} (other : op ≠ next) :
    (DevPc.removing rest).Past op ↔ (DevPc.removing (next :: rest)).Past op := by
  simp only [DevPc.Past, List.mem_cons, other, false_or]

/-- A buffer is mapped, once, until the removal has come to its `dma_unmap_single`, which
is not made for the handle 0, and the coherent memory is there until it has been freed. -/
structure Machine.Held (d : Dma) (m : Machine) : Prop where
  mapped : ∀ i, m.board.mappings.count (d.region i) =
    if m.dev.Past (.dmaUnmapSingle i) ∧ d.buffer i ≠ 0 then 0 else 1
  coherent : m.board.coherent =
    if m.dev.Past .dmaFreeCoherent then none else some ⟨d.ring.toNat, 256⟩

namespace Machine.Held

variable {d : Dma} {m t : Machine}

theorem frame (held : m.Held d) (mappings : t.board.mappings = m.board.mappings)
    (coherent : t.board.coherent = m.board.coherent)
    (past : ∀ op, op.takes = true → (t.dev.Past op ↔ m.dev.Past op)) : t.Held d where
  mapped i := by
    rw [mappings, held.mapped i]
    exact if_congr (and_congr_left' (past _ rfl).symm) rfl rfl
  coherent := by
    rw [coherent, held.coherent]
    exact if_congr (past _ rfl).symm rfl rfl

/-- A region is live until it is taken back. -/
theorem mem_iff (held : m.Held d) (i : Fin 16) :
    d.region i ∈ m.board.mappings ↔ (m.dev.Past (.dmaUnmapSingle i) → d.buffer i = 0) := by
  rw [← List.count_pos_iff, held.mapped i]
  split
  · rename_i taken
    exact iff_of_false (lt_irrefl 0) fun zero => taken.2 (zero taken.1)
  · rename_i kept
    exact iff_of_true one_pos fun past => not_not.mp fun other => kept ⟨past, other⟩

theorem coherent_iff (held : m.Held d) :
    m.board.coherent = some ⟨d.ring.toNat, 256⟩ ↔ ¬ m.dev.Past .dmaFreeCoherent := by
  rw [held.coherent]
  split
  · rename_i past
    exact iff_of_false (Option.some_ne_none _).symm (not_not.mpr past)
  · rename_i kept
    exact iff_of_true rfl kept

theorem unmap (held : m.Held d) {j : Fin 16} {rest : List Op} (outcome : Option (BitVec 64))
    (buffers : m.board.bufferInfo = d.buffer) (dev : m.dev = .removing (.dmaUnmapSingle j :: rest))
    (once : .dmaUnmapSingle j ∉ rest) :
    (m.operate outcome (.dmaUnmapSingle j) (.removing rest)).Held d where
  mapped i := by
    change (if m.board.bufferInfo j = 0 then m.board.mappings else
      m.board.mappings.erase ⟨(m.board.bufferInfo j).toNat, 2048⟩).count (d.region i) = _
    have before := held.mapped i
    rw [dev] at before
    rw [buffers]
    by_cases same : i = j
    · subst same
      have pending : ¬ (DevPc.removing (.dmaUnmapSingle i :: rest)).Past (.dmaUnmapSingle i) :=
        fun past => past List.mem_cons_self
      rw [if_neg fun both => pending both.1] at before
      by_cases zero : d.buffer i = 0
      · rw [if_pos zero, before]
        exact (if_neg fun both => both.2 zero).symm
      · rw [if_neg zero]
        change (m.board.mappings.erase (d.region i)).count (d.region i) = _
        rw [List.count_erase_self, before]
        exact (if_pos ⟨once, zero⟩).symm
    · have other : Op.dmaUnmapSingle i ≠ .dmaUnmapSingle j :=
        fun equal => same (Op.dmaUnmapSingle.inj equal)
      have count : (if d.buffer j = 0 then m.board.mappings else
          m.board.mappings.erase ⟨(d.buffer j).toNat, 2048⟩).count (d.region i) =
            m.board.mappings.count (d.region i) := by
        split
        · rfl
        · exact List.count_erase_of_ne (d.region_injective.ne same)
      rw [count, before]
      exact if_congr (and_congr_left' (DevPc.past_cons other).symm) rfl rfl
  coherent := by
    have before := held.coherent
    rw [dev] at before
    exact before.trans (if_congr (DevPc.past_cons Op.noConfusion).symm rfl rfl)

theorem free (held : m.Held d) {rest : List Op} (outcome : Option (BitVec 64))
    (dev : m.dev = .removing (.dmaFreeCoherent :: rest)) (once : .dmaFreeCoherent ∉ rest) :
    (m.operate outcome .dmaFreeCoherent (.removing rest)).Held d where
  mapped i := by
    have before := held.mapped i
    rw [dev] at before
    exact before.trans (if_congr (and_congr_left' (DevPc.past_cons Op.noConfusion).symm) rfl rfl)
  coherent := (if_pos once).symm

/-- An operation of the removal. -/
theorem remove (held : m.Held d) {op : Op} {rest : List Op} (outcome : Option (BitVec 64))
    (buffers : m.board.bufferInfo = d.buffer) (dev : m.dev = .removing (op :: rest))
    (once : op ∉ rest) (spares : op.spares = true) :
    (m.operate outcome op (.removing rest)).Held d := by
  cases takes : op.takes with
  | false =>
      rcases regions_perform (b := m.board) outcome spares takes with ⟨mappings, coherent⟩
      refine held.frame mappings coherent fun other took => ?_
      have apart : other ≠ op := fun same => by
        rw [same, takes] at took
        cases took
      rw [dev]
      exact DevPc.past_cons apart
  | true =>
      cases op with
      | dmaUnmapSingle j => exact held.unmap outcome buffers dev once
      | dmaFreeCoherent => exact held.free outcome dev once
      | _ => cases takes

end Machine.Held

/-- What is left of a removal does not come back to its first operation. -/
theorem Machine.Within.once {m : Machine} (within : m.Within) {op : Op} {rest : List Op}
    (dev : m.dev = .removing (op :: rest)) : op ∉ rest := by
  unfold Machine.Within at within
  rw [dev] at within
  have left : op :: rest <:+ pciBlinkDriverRemove := by
    rcases within with ⟨all | first, -⟩ | ⟨late, -⟩
    · rw [all]
    · rw [first]
      exact List.tail_suffix _
    · exact late.trans (List.drop_suffix ..)
  exact (List.nodup_cons.mp (nodup_remove.sublist left.sublist)).1

theorem Machine.Held.step {d : Dma} {m t : Machine} {l : Activity} (held : m.Held d)
    (within : m.Within) (buffers : m.board.bufferInfo = d.buffer) (moved : m.Step l t) :
    t.Held d := by
  cases moved with
  | probed dev | removed dev =>
      refine held.frame rfl rfl fun op _ => ?_
      rw [dev]
      simp [DevPc.Past]
  | @probe outcome op rest dev =>
      unfold Machine.Within at within
      rw [dev] at within
      have listed : op ∈ receiverOn := within.1.subset List.mem_cons_self
      have leaves : ∀ op ∈ receiverOn, op.takes = false := by decide
      rcases regions_perform (b := m.board) outcome
        (spares_of_mem op (List.mem_append_left _ listed)) (leaves op listed) with
        ⟨mappings, coherent⟩
      refine held.frame mappings coherent fun op _ => ?_
      rw [dev]
      exact Iff.rfl
  | unbind dev =>
      refine held.frame rfl rfl fun op takes => ?_
      rw [dev]
      exact ⟨fun past => past (mem_remove_of_takes takes), False.elim⟩
  | @remove outcome op rest dev =>
      exact held.remove outcome buffers dev (within.once dev) (within.spares (.inr dev))
  | receive | sys => exact held.frame rfl rfl fun _ _ => Iff.rfl

/-! ## Whole runs -/

section Runs

variable {d : Dma} {granted : Bool} {regs : Regs} {memory : Memory} {mappings : List Region}
  {b : Board} {earlier : List ((Board × List Op) × Option Packet)}

/-- What `make_DMA` has taught is true. -/
theorem Known.hold_of_run {rest : List Op}
    (run : Run (makeDMAStep d granted) (.start regs memory mappings, makeDMA) earlier (b, rest)) :
    ∃ done, makeDMA = done ++ rest ∧
      (StraightLine.learned Known.learn done .nothing).Hold d b := by
  have operation : ∀ op (k : Known) b, k.ok = true → k.Hold d b →
      (k.learn op).Hold d (op.perform (d.outcome granted op) b) :=
    fun _ _ _ _ holds => holds.learn granted
  have environment : ∀ packet (k : Known) b t, k.ok = true → k.Hold d b →
      b.device packet = some t → k.Hold d t :=
    fun _ _ _ _ ok holds received => holds.device ok received
  rcases StraightLine.known_of_run operation environment checked_makeDMA
    (Known.hold_nothing d _) run with ⟨done, split, hold, -⟩
  exact ⟨done, split, hold⟩

theorem Placed.hold_of_run {rest : List Op}
    (run : Run (makeDMAStep d granted) (.start regs memory mappings, makeDMA) earlier (b, rest)) :
    ∃ done, makeDMA = done ++ rest ∧
      (StraightLine.learned Placed.learn done .nothing).Hold b := by
  have operation : ∀ op (k : Placed) b, k.ok = true → k.Hold b →
      (k.learn op).Hold (op.perform (d.outcome granted op) b) :=
    fun _ _ _ _ holds => holds.learn _
  have environment : ∀ packet (k : Placed) b t, k.ok = true → k.Hold b →
      b.device packet = some t → k.Hold t :=
    fun _ _ _ _ ok holds received => holds.device ok received
  rcases StraightLine.known_of_run operation environment checked_makeDMA ⟨nofun, nofun, nofun⟩ run
    with ⟨done, split, hold, -⟩
  exact ⟨done, split, hold⟩

/-- `make_DMA` has mapped the buffers when it comes to the write of `RCTL`. -/
theorem mappings_of_run
    (run : Run (makeDMAStep d granted) (.start regs memory mappings, makeDMA) earlier
      (b, receiverOn)) :
    b.mappings = (List.finRange 16).reverse.map d.region ++ mappings := by
  have unchecked : StraightLine.checked learnMapped (fun _ => true) makeDMA (some []) = true := by
    decide
  have operation : ∀ op k b, true = true → d.Mapped mappings k b →
      d.Mapped mappings (learnMapped op k) (op.perform (d.outcome granted op) b) :=
    fun op _ _ _ mapped => mapped.learn op granted
  have environment : ∀ packet k b t, true = true → d.Mapped mappings k b →
      b.device packet = some t → d.Mapped mappings k t := by
    intro packet k b t _ mapped received
    rcases Option.ite_none_right_eq_some.mp received with ⟨-, same⟩
    cases same
    exact mapped
  have start : d.Mapped mappings (some []) (.start regs memory mappings) := by
    intro slots known
    cases known
    rfl
  rcases StraightLine.known_of_run operation environment unchecked start run with
    ⟨done, split, mapped, -⟩
  have ended : makeDMA = makeDMA.take 61 ++ receiverOn := by decide
  cases List.append_cancel_right (split.symm.trans ended)
  exact mapped _ (by decide)

/-- When `make_DMA` comes to the write of `RCTL`, the ring is complete and empty. -/
theorem Carries.start
    (setUp : Run (makeDMAStep d granted) (.start regs memory mappings, makeDMA) earlier
      (b, receiverOn)) :
    Carries d (.beforeRctl b) (.start 16 (by decide)) ∧ b.Live := by
  rcases Known.hold_of_run setUp with ⟨done, split, hold⟩
  rcases Placed.hold_of_run setUp with ⟨done', split', placed⟩
  have ended : makeDMA = makeDMA.take 61 ++ receiverOn := by decide
  cases List.append_cancel_right (split.symm.trans ended)
  cases List.append_cancel_right (split'.symm.trans ended)
  have complete :
      (StraightLine.learned Known.learn (makeDMA.take 61) .nothing).complete = true := by
    decide
  rcases hold.handles complete with ⟨dma, -, handle⟩
  have ring := hold.ringComplete complete
  have buffers : b.bufferInfo = d.buffer := funext fun i => (handle i).1
  have rest : RingSetUp (Machine.beforeRctl b).view :=
    ⟨placed.head (by decide), placed.tail (by decide), rfl, rfl, rfl⟩
  have covers := ring.covers
  rw [ring.length, e1000RxDescriptor_size.1] at covers
  refine ⟨⟨rest.inv, dma, buffers, ring.base.trans (congrArg _ dma), fun i => ?_, ?_⟩,
    covers, ring.live⟩
  · rw [← dma, ← buffers]
    exact ring.filled i
  · intro k bound
    cases bound

/-- Each buffer is mapped once. -/
theorem Machine.Held.start (fresh : d.Fresh mappings)
    (setUp : Run (makeDMAStep d granted) (.start regs memory mappings, makeDMA) earlier
      (b, receiverOn)) : (Machine.beforeRctl b).Held d := by
  rcases Carries.start setUp with ⟨carries, live⟩
  refine ⟨fun i => ?_, ?_⟩
  · have once : ∀ i, (List.finRange 16).reverse.count i = 1 := by decide
    change b.mappings.count (d.region i) = 1
    rw [mappings_of_run setUp, List.count_append, List.count_eq_zero.mpr (fresh.not_mem i),
      List.count_map_of_injective _ _ d.region_injective, once i]
  · have dma : b.dma = d.ring := carries.dma
    change b.coherent = some ⟨d.ring.toNat, 256⟩
    rw [live.1, dma]

/-- What holds in every state of a run from the write of `RCTL` on. -/
structure Kept (d : Dma) (memory : Memory) (m : Machine) : Prop where
  carries : ∃ w, Carries d m w
  within : m.Within
  held : m.Held d
  outside : ∀ a, d.Outside a → m.board.memory a = memory a

theorem Kept.operate {m : Machine} (kept : Kept d memory m) {op : Op} {rest : List Op}
    (outcome : Option (BitVec 64)) {dev : DevPc}
    (next : m.dev = .probing (op :: rest) ∨ m.dev = .removing (op :: rest))
    (within : (m.operate outcome op dev).Within) (held : (m.operate outcome op dev).Held d) :
    Kept d memory (m.operate outcome op dev) := by
  have spares := kept.within.spares next
  rcases kept.carries with ⟨w, carries⟩
  refine ⟨⟨w, carries.operate outcome dev spares⟩, within, held, fun a outside => ?_⟩
  have same : (m.operate outcome op dev).board.memory = m.board.memory :=
    memory_perform outcome spares
  rw [same]
  exact kept.outside a outside

theorem Kept.step {m t : Machine} {l : Activity} (kept : Kept d memory m) (moved : m.Step l t) :
    Kept d memory t := by
  rcases kept.carries with ⟨w, carries⟩
  have within := kept.within.step moved
  have held := kept.held.step kept.within carries.buffers moved
  cases moved with
  | probe dev => exact kept.operate _ (.inl dev) within held
  | remove dev => exact kept.operate _ (.inr dev) within held
  | probed | removed | unbind =>
      refine ⟨⟨w, ?_⟩, within, held, kept.outside⟩
      exact carries.alter _ _ ⟨rfl, rfl, rfl, rfl, rfl⟩ rfl rfl rfl rfl
  | receive master room =>
      refine ⟨⟨_, carries.receive _ room⟩, within, held, fun a outside => ?_⟩
      dsimp only
      rw [carries.memory_receive, d.deposit_outside _ _ _ outside]
      exact kept.outside a outside
  | sys silent moved => exact ⟨carries.sys moved silent, within, held, kept.outside⟩

theorem Kept.of_run (fresh : d.Fresh mappings)
    (setUp : Run (makeDMAStep d granted) (.start regs memory mappings, makeDMA)
      earlier (b, receiverOn))
    {t : Machine} {trace : List (Machine × Activity)}
    (run : Run Machine.step (.beforeRctl b) trace t) :
    ∀ u ∈ visited trace t, Kept d b.memory u := by
  have step : ∀ m l t, Kept d b.memory m → True → m.step l = some t → Kept d b.memory t :=
    fun _ _ _ kept _ edge => kept.step (.of_step edge)
  have start : Kept d b.memory (.beforeRctl b) := by
    rcases Carries.start setUp with ⟨carries, live⟩
    exact ⟨⟨_, carries⟩, ⟨List.suffix_refl _, live⟩, .start fresh setUp, fun _ _ => rfl⟩
  exact run.invariant_visited step run.meets_true start

/-- **Packets stay intact.** In every run from the write of `RCTL` to the end of the
removal, whatever the device was doing before the reset and whatever packets arrive, the
device stores only while nothing it was given has been taken back: a buffer is mapped
until the removal unmaps it, which it does unless the handle is 0, and the ring is there
until the removal frees it. Outside of the ring and the buffers nothing in memory
changes. While nothing has been taken back: what `thread_function` printed is what the
device wrote back for the packets so far, in order; every packet not yet given back lies
in its descriptor and its buffer as it arrived; and a descriptor `thread_function` holds
is that of the oldest such packet. -/
theorem packets_intact (fresh : d.Fresh mappings)
    (setUp : Run (makeDMAStep d granted) (.start regs memory mappings, makeDMA) earlier
      (b, receiverOn))
    {t : Machine} {trace : List (Machine × Activity)}
    (run : Run Machine.step (.beforeRctl b) trace t) :
    Meets (fun m l => ∀ packet, l = .receive packet → m.board.Live) trace ∧
      (∀ i, d.region i ∈ t.board.mappings ↔
        (t.dev.Past (.dmaUnmapSingle i) → d.buffer i = 0)) ∧
      (t.board.coherent = some ⟨t.board.dma.toNat, 256⟩ ↔ ¬ t.dev.Past .dmaFreeCoherent) ∧
      (∀ a, d.Outside a → t.board.memory a = b.memory a) ∧
      (t.board.Live →
        (t.processed <+: t.packets.mapIdx fun k packet =>
          (k % 16, report (packet.descriptor (t.board.bufferInfo (slot k))))) ∧
        (∀ k packet, t.packets[k]? = some packet →
          t.processed.length ≤ k + t.work.inGap.toNat →
          t.board.rxDE (slot k) = packet.descriptor (t.board.bufferInfo (slot k)) ∧
            load (t.board.bufferInfo (slot k)).toNat packet.data.length t.board.memory =
              packet.data) ∧
        ∀ tail, t.work.holding = some tail → ∃ k, k < t.packets.length ∧
          t.processed.length = k + t.work.inGap.toNat ∧ tail.toNat = k % 16) := by
  have kept := Kept.of_run fresh setUp run
  have last := kept t (mem_visited_end trace t)
  refine ⟨?_, last.held.mem_iff, ?_, last.outside, fun _ => ?_⟩
  · rintro ⟨m, l⟩ member packet rfl
    rcases run.exists_next _ member with ⟨u, -, edge⟩
    have before := kept m (mem_visited_of_mem member)
    cases Machine.Step.of_step edge with
    | receive master room => exact before.within.live master
  · rcases last.carries with ⟨w, carries⟩
    rw [carries.dma]
    exact last.held.coherent_iff
  · rcases last.carries with ⟨w, carries⟩
    have length := carries.length_processed
    refine ⟨carries.processed, fun k packet entry live => ?_, fun tail holding => ?_⟩
    · exact carries.intact entry (by omega)
    · rcases carries.ring.hold tail holding with ⟨place, pending⟩
      have lower := w.consumed_le
      have produced := carries.produced
      exact ⟨w.consumed, by omega, length, place.trans w.succ_tail⟩

end Runs

/-- Seven packets of one byte arrive, the worker prints the first of them, and the device
is unbound up to `pci_disable_device`. -/
theorem packets_intact_first_packet :
    ∃ (b : Board) (t : Machine), t.processed.length = 1 ∧ t.packets.length = 7 ∧
      t.master = false ∧
      (∀ a, Dma.sideBySide.Outside a → t.board.memory a = b.memory a) ∧
      ∀ k packet, t.packets[k]? = some packet → t.processed.length ≤ k + t.work.inGap.toNat →
        t.board.rxDE (slot k) = packet.descriptor (t.board.bufferInfo (slot k)) ∧
          load (t.board.bufferInfo (slot k)).toNat packet.data.length t.board.memory =
            packet.data := by
  rcases Run.of_exec_any (makeDMAStep .sideBySide true)
    (.start .leftover (fun _ => 0xFF) [], makeDMA) (List.replicate 61 none)
    (fun s => s.2 = receiverOn ∧ (exec Machine.step (.beforeRctl s.1)
      (List.replicate 4 (.operation none) ++ List.replicate 7 (.receive .oneByte) ++
        .sys .interrupt :: List.replicate 8 (.sys .irqStep) ++
        .sys .dispatch :: List.replicate 8 (.sys .workStep) ++
        .unbind :: List.replicate 2 (.operation none))).any (fun t =>
          decide (t.processed.length = 1 ∧ t.packets.length = 7 ∧ t.master = false ∧
            t.board.Live)) = true)
    (by decide +kernel) with ⟨⟨b, rest⟩, earlier, setUp, -, rfl, checked⟩
  rcases Run.of_exec_any _ _ _ _ checked with ⟨t, trace, run, -, printed, received, off, live⟩
  have fresh : Dma.sideBySide.Fresh [] := fun _ member => by cases member
  rcases packets_intact fresh setUp run with ⟨-, -, -, outside, intact⟩
  exact ⟨b, t, printed, received, off, outside, (intact live).2.1⟩

end BlinkDriver.Hw6
