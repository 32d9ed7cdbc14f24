import BlinkDriver.Hw6.Enable
import BlinkDriver.Hw6.Life
import BlinkDriver.Hw6.Ring

/-!
# Packets in memory

`BlinkDriver.Hw6.System` takes the descriptors of the ring as values. Here they lie in
memory: the device stores each packet at the address it finds in the descriptor and
writes the rest of the descriptor back, and `thread_function` reads the descriptor
through the coherent memory `make_DMA` has allocated. A `Machine` is the board with the
two functions of the driver and with what the driver core does to the device, from the
write of `RCTL` in `make_DMA` to the end of `pci_blinkDriver_remove`. Of
`pci_disable_device` the model takes that it ends the device's mastering of the bus.

`Machine.view` is the state of the system that the memory amounts to, and `Carries` says
what the memory holds at each position of producer and consumer. To the driver a packet
is a completed descriptor (`Carries.view_receive`), so every step of the machine keeps
`RingInv`.
-/

namespace BlinkDriver.Hw6

open ByteMemory CLayout HandoverRing LittleEndian Transition

/-! ## The machine -/

/-- `mydev.rx_ring->rxDE[i]`, in the coherent memory. -/
def Board.rxDE (b : Board) (i : Fin 16) : Descriptor :=
  ⟨load (b.dma.toNat + i * e1000RxDescriptor.size) 16 b.memory, length_load ..⟩

theorem Board.bytes_rxDE (b : Board) (i : Fin 16) :
    (b.rxDE i).bytes = load (b.dma.toNat + 16 * i) 16 b.memory := by
  have offset : (i : Nat) * e1000RxDescriptor.size = 16 * i := by
    rw [e1000RxDescriptor_size.1, Nat.mul_comm]
  rw [← offset]
  rfl

/-- The board with the driver's two functions, whether the device masters the bus, what
the driver core does with it, what has been printed, and the packets received, in
order. -/
structure Machine where
  board : Board
  master : Bool
  dev : DevPc
  irq : IrqPc
  work : WorkPc
  queued : Bool
  processed : List (Nat × Report)
  packets : List Packet

/-- The end of `make_DMA`, from the write of `RCTL` on. -/
def receiverOn : List Op := [.writel 0x1A .rctl, .requestIrq, .writel 0x10 .ims]

/-- `make_DMA` has come to the write of `RCTL`; neither function runs. -/
def Machine.beforeRctl (b : Board) : Machine where
  board := b
  master := true
  dev := .probing receiverOn
  irq := .idle
  work := .idle
  queued := false
  processed := []
  packets := []

/-- The slot of packet `k`. -/
def slot (k : Nat) : Fin 16 := ⟨k % 16, Nat.mod_lt _ (by decide)⟩

/-- A descriptor with the given buffer, once the device has written it back. -/
def Packet.descriptor (packet : Packet) (buffer : BitVec 64) : Descriptor :=
  ⟨toBytes 8 buffer.toNat ++ packet.writeBack, by simp [packet.size]⟩

/-- Packet `k` came to slot `k % 16`. -/
def Machine.completed (m : Machine) : List (Nat × Descriptor) :=
  m.packets.mapIdx fun k packet => (k % 16, packet.descriptor (m.board.bufferInfo (slot k)))

/-- The state of the system, with the descriptors as they lie in memory. -/
def Machine.view (m : Machine) : State where
  regs := m.board.regs
  rxDE i := if within : i < 16 then m.board.rxDE ⟨i, within⟩ else .blank
  irq := m.irq
  work := m.work
  queued := m.queued
  completed := m.completed
  processed := m.processed

/-- After a move of the system that is not the device's receive. -/
def Machine.after (m : Machine) (s : State) : Machine :=
  { m with
    board := { m.board with regs := s.regs }
    irq := s.irq
    work := s.work
    queued := s.queued
    processed := s.processed }

/-- After an operation of the probe or of the removal. `pci_disable_device` ends the
device's mastering of the bus. -/
def Machine.operate (outcome : Option (BitVec 64)) (op : Op) (dev : DevPc) (m : Machine) :
    Machine :=
  { m with
    board := op.perform outcome m.board
    master := m.master && op != .pciDisableDevice
    dev }

/-- Who moves: the driver core with the next operation, or because the device is to be
unbound; the device with a packet; or another party of the system. -/
inductive Activity where
  | operation (outcome : Option (BitVec 64))
  | unbind
  | receive (packet : Packet)
  | sys (l : Label)

def Machine.step (m : Machine) : Activity → Option Machine
  | .operation outcome =>
      match m.dev with
      | .probing [] => some { m with dev := .bound }
      | .probing (op :: rest) => some (m.operate outcome op (.probing rest))
      | .removing [] => some { m with dev := .unbound }
      | .removing (op :: rest) =>
          if op = .freeIrq ∧ m.irq ≠ .idle then none
          else some (m.operate outcome op (.removing rest))
      | _ => none
  | .unbind =>
      if m.dev = .bound then some { m with dev := .removing pciBlinkDriverRemove } else none
  | .receive packet =>
      if m.master then
        (m.board.device packet).map fun board =>
          { m with board, packets := m.packets ++ [packet] }
      else none
  | .sys (.receive _) => none
  | .sys l => (Hw6.step m.view l).map m.after

/-- What one step of the machine can do. -/
inductive Machine.Step (m : Machine) : Activity → Machine → Prop
  | probed {outcome : Option (BitVec 64)} (dev : m.dev = .probing []) :
      m.Step (.operation outcome) { m with dev := .bound }
  | probe {outcome : Option (BitVec 64)} {op : Op} {rest : List Op}
      (dev : m.dev = .probing (op :: rest)) :
      m.Step (.operation outcome) (m.operate outcome op (.probing rest))
  | removed {outcome : Option (BitVec 64)} (dev : m.dev = .removing []) :
      m.Step (.operation outcome) { m with dev := .unbound }
  | remove {outcome : Option (BitVec 64)} {op : Op} {rest : List Op}
      (dev : m.dev = .removing (op :: rest)) :
      m.Step (.operation outcome) (m.operate outcome op (.removing rest))
  | unbind (dev : m.dev = .bound) :
      m.Step .unbind { m with dev := .removing pciBlinkDriverRemove }
  | receive {packet : Packet} (master : m.master = true)
      (room : m.board.regs.rdh0 ≠ m.board.regs.rdt0) :
      m.Step (.receive packet)
        { m with board := m.board.receive packet, packets := m.packets ++ [packet] }
  | sys {l : Label} {s : State} (silent : ∀ contents, l ≠ .receive contents)
      (moved : Hw6.Step m.view l s) : m.Step (.sys l) (m.after s)

theorem Machine.Step.of_step {m t : Machine} {l : Activity} (moved : m.step l = some t) :
    m.Step l t := by
  cases l with
  | operation outcome =>
      simp only [Machine.step] at moved
      split at moved
      case h_1 dev => cases moved; exact .probed dev
      case h_2 op rest dev => cases moved; exact .probe dev
      case h_3 dev => cases moved; exact .removed dev
      case h_4 op rest dev =>
          split at moved
          · cases moved
          · cases moved
            exact .remove dev
      case h_5 => cases moved
  | unbind =>
      rcases Option.ite_none_right_eq_some.mp moved with ⟨dev, same⟩
      cases same
      exact .unbind dev
  | receive packet =>
      rcases Option.ite_none_right_eq_some.mp moved with ⟨master, moved⟩
      rcases Option.map_eq_some_iff.mp moved with ⟨board, received, rfl⟩
      rcases Option.ite_none_right_eq_some.mp received with ⟨⟨-, room⟩, same⟩
      cases same
      exact .receive master room
  | sys l =>
      cases l with
      | receive contents => cases moved
      | raise | interrupt | irqStep | dispatch | workStep | poke =>
          simp only [Machine.step] at moved
          rcases Option.map_eq_some_iff.mp moved with ⟨s, made, rfl⟩
          refine .sys (fun _ same => ?_) (.of_step made)
          cases same

/-! ## One packet in memory -/

/-- The memory once the device has filled slot `i`. -/
def Dma.deposit (d : Dma) (i : Fin 16) (packet : Packet) (memory : Memory) : Memory :=
  store (d.ring.toNat + 16 * i + 8) packet.writeBack
    (store (d.buffer i).toNat packet.data memory)

/-- Neither in the ring nor in a buffer. -/
def Dma.Outside (d : Dma) (a : Nat) : Prop :=
  (a < d.ring.toNat ∨ d.ring.toNat + 256 ≤ a) ∧
    ∀ i, a < (d.buffer i).toNat ∨ (d.buffer i).toNat + 2048 ≤ a

namespace Dma

variable (d : Dma) (i : Fin 16) (packet : Packet) (memory : Memory)

theorem deposit_outside {a : Nat} (outside : d.Outside a) :
    d.deposit i packet memory a = memory a := by
  have fits := packet.fits
  have size := packet.size
  have within := i.isLt
  rcases outside with ⟨ring, buffer⟩
  rw [deposit, store_of_apart, store_of_apart]
  · have clear := buffer i
    omega
  · omega

/-- The packet lies in the buffer of its slot. -/
theorem load_deposit_data :
    load (d.buffer i).toNat packet.data.length (d.deposit i packet memory) = packet.data := by
  have fits := packet.fits
  have size := packet.size
  have within := i.isLt
  have clear := d.ringApart i
  rw [deposit, load_store_of_apart]
  · exact load_store_self ..
  · simp only [Region.Apart] at clear ⊢
    omega

/-- The other buffers keep what is in them. -/
theorem load_deposit_other {j : Fin 16} (other : j ≠ i) {n : Nat} (short : n ≤ 2048) :
    load (d.buffer j).toNat n (d.deposit i packet memory) =
      load (d.buffer j).toNat n memory := by
  have fits := packet.fits
  have size := packet.size
  have within := i.isLt
  have ring := d.ringApart j
  have buffers := d.buffersApart i j other.symm
  simp only [Region.Apart] at ring buffers
  rw [deposit, load_store_of_apart, load_store_of_apart]
  · simp only [Region.Apart]
    omega
  · simp only [Region.Apart]
    omega

/-- In the ring only the half of the slot that is written back changes. -/
theorem load_deposit_ring {o n : Nat} (within : o + n ≤ 256)
    (apart : o + n ≤ 16 * i + 8 ∨ 16 * i + 16 ≤ o) :
    load (d.ring.toNat + o) n (d.deposit i packet memory) =
      load (d.ring.toNat + o) n memory := by
  have fits := packet.fits
  have size := packet.size
  have clear := d.ringApart i
  simp only [Region.Apart] at clear
  rw [deposit, load_store_of_apart, load_store_of_apart]
  · simp only [Region.Apart]
    omega
  · simp only [Region.Apart]
    omega

/-- What the device writes back. -/
theorem load_deposit_writeBack :
    load (d.ring.toNat + 16 * i + 8) 8 (d.deposit i packet memory) = packet.writeBack := by
  rw [deposit, ← packet.size]
  exact load_store_self ..

end Dma

/-! ## Producer and consumer in memory -/

/-- What the memory holds with producer and consumer at a given position: the ring
record and the registers name the ring and the buffers the DMA API has handed out, every
descriptor has its buffer's address, and every packet not yet given back lies in its
buffer. -/
structure Carries (d : Dma) (m : Machine) (w : Window 16) : Prop where
  ring : RingInv m.view w
  dma : m.board.dma = d.ring
  buffers : m.board.bufferInfo = d.buffer
  base : ringBase m.board.regs = d.ring.toNat
  addresses : ∀ i : Fin 16,
    load (d.ring.toNat + 16 * i) 8 m.board.memory = toBytes 8 (d.buffer i).toNat
  data : ∀ k, ∀ h : k < m.packets.length, w.consumed ≤ k →
    load (d.buffer (slot k)).toNat m.packets[k].data.length m.board.memory = m.packets[k].data

theorem ringBase_receive (regs : Regs) : ringBase regs.receive = ringBase regs := by
  rw [Regs.receive_eq]
  rfl

theorem Descriptor.eq_of_bytes {c d : Descriptor} (same : c.bytes = d.bytes) : c = d := by
  cases c
  cases d
  cases same
  rfl

/-- Only a receive touches the descriptors; nothing moves the ring. -/
theorem Step.leaves {s t : State} {l : Label} (moved : Step s l t)
    (silent : ∀ contents, l ≠ .receive contents) :
    t.rxDE = s.rxDE ∧ t.completed = s.completed ∧ ringBase t.regs = ringBase s.regs := by
  cases moved with
  | @receive contents room => exact absurd rfl (silent contents)
  | raise | interrupt | dispatch | poke => exact ⟨rfl, rfl, rfl⟩
  | irq access => cases access <;> exact ⟨rfl, rfl, rfl⟩
  | work access => cases access <;> exact ⟨rfl, rfl, rfl⟩

theorem Machine.view_after {m : Machine} {s : State} (ring : s.rxDE = m.view.rxDE)
    (log : s.completed = m.view.completed) : (m.after s).view = s := by
  cases s
  cases ring
  cases log
  rfl

/-- The operation touches neither the ring nor the memory: what is left of `make_DMA`
after the write of `RDT`, and all of the removal. -/
def Op.spares : Op → Bool
  | .writel _ .rctl | .writel _ .ims | .requestIrq | .freeIrq | .pciDisableDevice
  | .dmaUnmapSingle _ | .kfreeData _ | .dmaFreeCoherent | .kfreeBufferInfo | .iounmap
  | .pciReleaseSelectedRegions => true
  | _ => false

theorem spares_of_mem : ∀ op ∈ receiverOn ++ pciBlinkDriverRemove, op.spares = true := by
  decide

/-- Such an operation stores nothing. -/
theorem memory_perform {b : Board} {op : Op} (outcome : Option (BitVec 64))
    (spares : op.spares = true) : (op.perform outcome b).memory = b.memory := by
  cases op with
  | setBufferAddr | dmaMapSingle | dmaAllocCoherent => cases spares
  | _ => rfl

theorem Machine.length_completed (m : Machine) : m.completed.length = m.packets.length :=
  List.length_mapIdx

namespace Carries

variable {d : Dma} {m : Machine} {w : Window 16}

theorem produced (carries : Carries d m w) : m.packets.length = w.produced := by
  rw [← m.length_completed]
  exact carries.ring.holds.length

/-- The device fills the slot at the head. -/
theorem memory_receive (carries : Carries d m w) (packet : Packet) :
    (m.board.receive packet).memory =
      d.deposit (slot w.produced) packet m.board.memory := by
  have head : m.board.regs.rdh0.toNat = (slot w.produced).val := carries.ring.head
  have buffer := ofBytes_toBytes_of_lt (n := 8) (d.buffer (slot w.produced)).isLt
  rw [Board.receive, carries.base, head, carries.addresses, buffer]
  rfl

/-- The driver reads the descriptors where the device has put them. -/
theorem bytes_receive (carries : Carries d m w) (packet : Packet) (i : Fin 16) :
    ((m.board.receive packet).rxDE i).bytes =
      load (d.ring.toNat + 16 * i) 16 (d.deposit (slot w.produced) packet m.board.memory) := by
  have dma : (m.board.receive packet).dma = d.ring := carries.dma
  rw [Board.bytes_rxDE, dma, carries.memory_receive]

/-- The descriptor at the head is the one the device has written back. -/
theorem rxDE_receive (carries : Carries d m w) (packet : Packet) :
    (m.board.receive packet).rxDE (slot w.produced) =
      packet.descriptor (m.board.bufferInfo (slot w.produced)) := by
  have within := (slot w.produced).isLt
  apply Descriptor.eq_of_bytes
  rw [carries.bytes_receive, load_add _ 8 8, d.load_deposit_writeBack,
    d.load_deposit_ring _ _ _ (by omega) (by omega), carries.addresses, carries.buffers]
  rfl

/-- The other descriptors stay. -/
theorem rxDE_receive_of_ne (carries : Carries d m w) (packet : Packet) {i : Fin 16}
    (other : i ≠ slot w.produced) :
    (m.board.receive packet).rxDE i = m.board.rxDE i := by
  have within := i.isLt
  have differ := Fin.val_ne_of_ne other
  apply Descriptor.eq_of_bytes
  rw [carries.bytes_receive, d.load_deposit_ring _ _ _ (by omega) (by omega),
    Board.bytes_rxDE, carries.dma]

/-- To the driver, a packet is a completed descriptor. -/
theorem view_receive (carries : Carries d m w) (packet : Packet) :
    ({ m with
      board := m.board.receive packet, packets := m.packets ++ [packet] } : Machine).view =
      { m.view with
        regs := m.view.regs.receive
        rxDE := Function.update m.view.rxDE m.view.regs.rdh0.toNat
          (packet.descriptor (m.board.bufferInfo (slot w.produced)))
        completed := m.view.completed ++ [(m.view.regs.rdh0.toNat,
          packet.descriptor (m.board.bufferInfo (slot w.produced)))] } := by
  have head : m.view.regs.rdh0.toNat = (slot w.produced).val := carries.ring.head
  have ring : ∀ i, (if within : i < 16 then (m.board.receive packet).rxDE ⟨i, within⟩ else .blank) =
      Function.update m.view.rxDE (slot w.produced).val
        (packet.descriptor (m.board.bufferInfo (slot w.produced))) i := by
    intro i
    by_cases here : i = slot w.produced
    · subst here
      rw [dif_pos (slot w.produced).isLt, Function.update_self]
      exact carries.rxDE_receive packet
    · rw [Function.update_of_ne here]
      refine dite_congr rfl (fun within => ?_) fun _ => rfl
      exact carries.rxDE_receive_of_ne packet fun same => here (congrArg Fin.val same)
  rw [head, ← funext ring]
  have log : ({ m with
      board := m.board.receive packet, packets := m.packets ++ [packet] } : Machine).completed =
      m.completed ++ [((slot w.produced).val,
        packet.descriptor (m.board.bufferInfo (slot w.produced)))] := by
    rw [Machine.completed, List.mapIdx_concat, carries.produced]
    rfl
  simp only [Machine.view, log]
  rfl

/-- A packet arrives. -/
theorem receive (carries : Carries d m w) (packet : Packet)
    (room : m.board.regs.rdh0 ≠ m.board.regs.rdt0) :
    Carries d { m with
      board := m.board.receive packet, packets := m.packets ++ [packet] }
      (w.produce (carries.ring.head_ne_tail room)) where
  ring := by
    rw [carries.view_receive packet]
    exact carries.ring.receive _ room
  dma := carries.dma
  buffers := carries.buffers
  base := by
    rw [← carries.base]
    exact ringBase_receive m.board.regs
  addresses i := by
    have within := i.isLt
    have within' := (slot w.produced).isLt
    dsimp only
    rw [carries.memory_receive, d.load_deposit_ring _ _ _ (by omega) (by omega)]
    exact carries.addresses i
  data := by
    intro k bound live
    simp only [List.length_append, List.length_singleton] at bound
    dsimp only
    rw [carries.memory_receive]
    rcases Nat.lt_or_ge k m.packets.length with old | new
    · have other : slot k ≠ slot w.produced := fun same =>
        w.slot_ne_head live (carries.produced ▸ old) (congrArg Fin.val same)
      rw [List.getElem_append_left old, d.load_deposit_other _ _ _ other m.packets[k].fits]
      exact carries.data k old live
    · have last : k = w.produced := by
        have length := carries.produced
        omega
      have entry : (m.packets ++ [packet])[k] = packet := by
        simp only [last, ← carries.produced, List.getElem_concat_length]
      rw [entry, last]
      exact d.load_deposit_data ..

/-- Nothing of the ring changes, nor of the memory. -/
theorem alter (carries : Carries d m w) {b : Board} (master : Bool) (dev : DevPc)
    (ring : RingKept m.view ({ m with board := b, master, dev } : Machine).view)
    (dma : b.dma = m.board.dma) (buffers : b.bufferInfo = m.board.bufferInfo)
    (base : ringBase b.regs = ringBase m.board.regs) (memory : b.memory = m.board.memory) :
    Carries d { m with board := b, master, dev } w where
  ring := carries.ring.frame ring rfl
  dma := dma.trans carries.dma
  buffers := buffers.trans carries.buffers
  base := base.trans carries.base
  addresses := by
    dsimp only
    rw [memory]
    exact carries.addresses
  data := by
    dsimp only
    rw [memory]
    exact carries.data

/-- An operation that spares the ring. -/
theorem operate (carries : Carries d m w) {op : Op} (outcome : Option (BitVec 64))
    (dev : DevPc) (spares : op.spares = true) : Carries d (m.operate outcome op dev) w := by
  cases op with
  | writel v r =>
      cases r with
      | rctl | ims => exact carries.alter _ _ ⟨rfl, rfl, rfl, rfl, rfl⟩ rfl rfl rfl rfl
      | _ => cases spares
  | requestIrq | freeIrq | pciDisableDevice | dmaUnmapSingle | kfreeData | dmaFreeCoherent
  | kfreeBufferInfo | iounmap | pciReleaseSelectedRegions =>
      exact carries.alter _ _ ⟨rfl, rfl, rfl, rfl, rfl⟩ rfl rfl rfl rfl
  | _ => cases spares

/-- A move of another party. -/
theorem sys {s : State} {l : Label} (carries : Carries d m w) (moved : Step m.view l s)
    (silent : ∀ contents, l ≠ .receive contents) : ∃ w', Carries d (m.after s) w' := by
  rcases carries.ring.step moved with ⟨w', move, inv⟩
  rcases moved.leaves silent with ⟨ring, log, base⟩
  refine ⟨w', ?_, carries.dma, carries.buffers, base.trans carries.base, carries.addresses,
    fun k bound live => carries.data k bound (move.consumed_le.trans live)⟩
  rw [m.view_after ring log]
  exact inv

/-- What has been printed, in terms of the window. -/
theorem length_processed (carries : Carries d m w) :
    m.processed.length = w.consumed + m.work.inGap.toNat :=
  carries.ring.length_processed

/-- What is printed is what the device wrote back. -/
theorem processed (carries : Carries d m w) :
    m.processed <+: m.packets.mapIdx fun k packet =>
      (k % 16, report (packet.descriptor (m.board.bufferInfo (slot k)))) := by
  have all : m.completed.map printed = m.packets.mapIdx fun k packet =>
      (k % 16, report (packet.descriptor (m.board.bufferInfo (slot k)))) := by
    apply List.ext_getElem
    · simp only [List.length_map, List.length_mapIdx, Machine.completed]
    · intro k _ _
      simp only [List.getElem_map, List.getElem_mapIdx, Machine.completed, printed]
  have prefixed : m.processed =
      (m.completed.take (w.consumed + m.work.inGap.toNat)).map printed := carries.ring.processed
  rw [prefixed, ← all]
  exact (List.take_prefix _ _).map _

/-- A packet not yet given back lies in its descriptor and in its buffer. -/
theorem intact (carries : Carries d m w) {k : Nat} {packet : Packet}
    (entry : m.packets[k]? = some packet) (live : w.consumed ≤ k) :
    m.board.rxDE (slot k) = packet.descriptor (m.board.bufferInfo (slot k)) ∧
      load (m.board.bufferInfo (slot k)).toNat packet.data.length m.board.memory =
        packet.data := by
  rcases List.getElem?_eq_some_iff.mp entry with ⟨bound, rfl⟩
  constructor
  · have listed : k < m.completed.length := m.length_completed ▸ bound
    have held := congrArg Prod.snd (carries.ring.holds.entry k live listed)
    have here : m.view.rxDE (k % 16) = m.board.rxDE (slot k) :=
      dif_pos (Nat.mod_lt _ (by decide))
    have written : m.completed[k].2 =
        m.packets[k].descriptor (m.board.bufferInfo (slot k)) := by
      simp only [Machine.completed, List.getElem_mapIdx]
    exact here.symm.trans (held.trans written)
  · rw [carries.buffers]
    exact carries.data k bound live

end Carries

end BlinkDriver.Hw6
