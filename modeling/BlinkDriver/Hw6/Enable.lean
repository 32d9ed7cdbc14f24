import BlinkDriver.Hw6.Descriptor
import BlinkDriver.Hw6.Setup
import BlinkDriver.Lib.Memory
import BlinkDriver.Lib.StraightLine

/-!
# Enabling the receiver

The operations of `make_DMA` once more, now with what they do to the registers,
to the memory the device sees and to the ring record, while the device receives
whenever its registers allow it. `Op.perform` is one operation, `Board.receive`
one packet, and `enabled_only_complete` says that from the reset on the receiver
is never enabled, and no interrupt unmasked, before the ring is complete.

The proof runs `make_DMA` on what is known of the board (`Known`). The counts
`mapped` and `filled` are the invariant of the loop over the descriptors.
-/

namespace BlinkDriver.Hw6

open ByteMemory CLayout LittleEndian Transition

/-! ## The board -/

/-- The registers, the memory the device sees, the ring record, the live coherent
allocation, the live streaming mappings, and whether the interrupt line has been
requested. -/
structure Board where
  regs : Regs
  memory : Memory
  dma : BitVec 64
  size : U32
  bufferInfo : Fin 16 → BitVec 64
  coherent : Option Region
  mappings : List Region
  irqRequested : Bool

/-- Before `make_DMA`, with whatever is in the registers and in memory and whatever has
been mapped. -/
def Board.start (regs : Regs) (memory : Memory) (mappings : List Region) : Board :=
  ⟨regs, memory, 0, 0, fun _ => 0, none, mappings, false⟩

/-- The offset of `buffer_addr` of `E1000_RX_DESC(*rx_ring, i)` in the ring. -/
def descriptorOffset (i : Nat) : Nat :=
  i * e1000RxDescriptor.size + ((e1000RxDescriptor.find [.bufferAddr]).map Prod.fst).getD 0

/-- `RCTL.EN`, bit 1. -/
def Enabled (regs : Regs) : Bool := regs.rctl.getLsbD 1

/-- The address of the ring in the registers. -/
def ringBase (regs : Regs) : Nat := regs.rdbah0.toNat * 2 ^ 32 + regs.rdbal0.toNat

namespace Op

/-- What an operation does to the board. -/
def perform (outcome : Option (BitVec 64)) (op : Op) (b : Board) : Board :=
  match op with
  | .readl r => { b with regs := (Hw6.readl r b.regs).2 }
  | .writel v r => { b with regs := Hw6.writel v r b.regs }
  | .kzallocRxRing => { b with dma := 0, size := 0, bufferInfo := fun _ => 0 }
  | .setCount => { b with size := BitVec.ofNat 32 (e1000RxDescriptor.size * 16) }
  | .kcallocBufferInfo => { b with bufferInfo := fun _ => 0 }
  | .dmaAllocCoherent =>
      match outcome with
      | some handle =>
          { b with dma := handle, coherent := some ⟨handle.toNat, b.size.toNat⟩ }
      | none => b
  | .writelRdbah =>
      let reg := (b.dma >>> 32 &&& 0xFFFFFFFF).setWidth 32
      { b with regs := Hw6.writel reg .rdbah0 b.regs }
  | .writelRdbal =>
      let reg := (b.dma &&& 0xFFFFFFFF).setWidth 32
      { b with regs := Hw6.writel reg .rdbal0 b.regs }
  | .writelRdlen => { b with regs := Hw6.writel b.size .rdlen0 b.regs }
  | .dmaMapSingle i =>
      match outcome with
      | some handle =>
          { b with
            bufferInfo := Function.update b.bufferInfo i handle
            mappings := ⟨handle.toNat, 2048⟩ :: b.mappings }
      | none => { b with bufferInfo := Function.update b.bufferInfo i 0 }
  | .setBufferAddr i =>
      { b with
        memory := store (b.dma.toNat + descriptorOffset i) (toBytes 8 (b.bufferInfo i).toNat)
          b.memory }
  | .writelCtrl =>
      let (ctrlTemp, regs) := Hw6.readl .ctrl b.regs
      { b with regs := Hw6.writel (ctrlTemp ||| 0x60) .ctrl regs }
  | .requestIrq => { b with irqRequested := true }
  | .freeIrq => { b with irqRequested := false }
  | .dmaUnmapSingle i =>
      { b with
        mappings := if b.bufferInfo i = 0 then b.mappings
          else b.mappings.erase ⟨(b.bufferInfo i).toNat, 2048⟩ }
  | .dmaFreeCoherent => { b with coherent := none }
  | .pciEnableDevice | .pciDisableDevice | .pciRequestSelectedRegions
  | .pciReleaseSelectedRegions | .ioremap | .iounmap | .kmallocTestWq | .initWork
  | .kzallocBuffer _ | .kfreeData _ | .kfreeBufferInfo => b

end Op

/-- A packet of at most 2048 bytes and what the device writes back about it. -/
structure Packet where
  data : List Byte
  writeBack : List Byte
  fits : data.length ≤ 2048
  size : writeBack.length = 8

/-- The device fills the descriptor at the head: it stores the packet at the address
it finds there and writes the other eight bytes of the descriptor back. -/
def Board.receive (packet : Packet) (b : Board) : Board :=
  let slot := ringBase b.regs + 16 * b.regs.rdh0.toNat
  let buffer := ofBytes (load slot 8 b.memory)
  { b with
    regs := b.regs.receive
    memory := store (slot + 8) packet.writeBack (store buffer packet.data b.memory) }

/-- The device receives while the receiver is enabled and a descriptor is free. -/
def Board.device (packet : Packet) (b : Board) : Option Board :=
  if Enabled b.regs = true ∧ b.regs.rdh0 ≠ b.regs.rdt0 then some (b.receive packet) else none

/-! ## The ring record -/

/-- The board has the ring record that `Op.exec` keeps for the device. -/
structure Agrees (pdev : PciDev) (w : World) (b : Board) : Prop where
  owner : ∀ d, w.rxRing = some d → d = pdev
  dma : (w.ring pdev).dma = b.dma
  size : (w.ring pdev).size = b.size.toNat
  buffers : ∀ info, (w.ring pdev).bufferInfo = some info → ∀ i, (info i).dma = b.bufferInfo i

theorem World.setRing_ring (w : World) (d : PciDev) (ring : RxRing) :
    (w.setRing d ring).ring d = ring := Function.update_self ..

/-- Storing the same into both records. -/
theorem Agrees.setRing {pdev : PciDev} {w : World} {b : Board} {ring : RxRing}
    (owner : ∀ d, w.rxRing = some d → d = pdev) (dma : ring.dma = b.dma)
    (size : ring.size = b.size.toNat)
    (buffers : ∀ info, ring.bufferInfo = some info → ∀ i, (info i).dma = b.bufferInfo i) :
    Agrees pdev (w.setRing pdev ring) b := by
  refine ⟨owner, ?_, ?_, ?_⟩ <;> rw [World.setRing_ring]
  · exact dma
  · exact size
  · exact buffers

/-- An operation of `make_DMA` does the same to both. -/
theorem Agrees.exec {pdev : PciDev} {w w' : World} {b : Board} {op : Op}
    {outcome : Option (BitVec 64)} (agrees : Agrees pdev w b) (member : op ∈ makeDMA)
    (came : op = .kzallocRxRing → outcome.isSome = true)
    (done : op.exec pdev outcome w = some w') : Agrees pdev w' (op.perform outcome b) := by
  cases op with
  | kzallocRxRing =>
      cases (if_pos (came rfl)).symm.trans done
      have stored : Agrees pdev ((w.acquire pdev .rxRing).setRing pdev .zero)
          (Op.kzallocRxRing.perform outcome b) :=
        .setRing agrees.owner rfl rfl fun _ none => by cases none
      exact { stored with owner := fun d same => (Option.some.inj same).symm }
  | setCount =>
      obtain ⟨d, mine, rfl⟩ := Option.map_eq_some_iff.mp done
      cases agrees.owner d mine
      have size : 16 * 16 = (BitVec.ofNat 32 (e1000RxDescriptor.size * 16)).toNat := by decide
      exact .setRing agrees.owner agrees.dma size agrees.buffers
  | kcallocBufferInfo =>
      obtain ⟨d, mine, rfl⟩ := Option.map_eq_some_iff.mp done
      cases agrees.owner d mine
      split
      · refine .setRing agrees.owner agrees.dma agrees.size fun info allocated i => ?_
        cases allocated
        rfl
      · exact .setRing agrees.owner agrees.dma agrees.size fun _ none => by cases none
  | dmaAllocCoherent =>
      obtain ⟨d, mine, rfl⟩ := Option.map_eq_some_iff.mp done
      cases agrees.owner d mine
      cases outcome with
      | none => exact .setRing agrees.owner agrees.dma agrees.size agrees.buffers
      | some handle => exact .setRing agrees.owner rfl agrees.size agrees.buffers
  | kzallocBuffer i =>
      obtain ⟨d, mine, rest⟩ := Option.bind_eq_some_iff.mp done
      cases agrees.owner d mine
      obtain ⟨ring, stored, rfl⟩ := Option.map_eq_some_iff.mp rest
      obtain ⟨info, allocated, rfl⟩ := Option.map_eq_some_iff.mp stored
      have same : ∀ j, (Function.update info i { info i with data := outcome.isSome } j).dma =
          b.bufferInfo j := fun j => by
        rw [← agrees.buffers info allocated j]
        by_cases here : j = i
        · rw [here, Function.update_self]
        · rw [Function.update_of_ne here]
      split <;>
        exact .setRing agrees.owner agrees.dma agrees.size fun _ is => Option.some.inj is ▸ same
  | dmaMapSingle i =>
      obtain ⟨d, mine, rest⟩ := Option.bind_eq_some_iff.mp done
      cases agrees.owner d mine
      obtain ⟨ring, stored, rfl⟩ := Option.map_eq_some_iff.mp rest
      obtain ⟨info, allocated, rfl⟩ := Option.map_eq_some_iff.mp stored
      have same : ∀ j, (Function.update info i { info i with dma := outcome.getD 0 } j).dma =
          Function.update b.bufferInfo i (outcome.getD 0) j := fun j => by
        by_cases here : j = i
        · rw [here, Function.update_self, Function.update_self]
        · rw [Function.update_of_ne here, Function.update_of_ne here]
          exact agrees.buffers info allocated j
      cases outcome with
      | none | some handle =>
          exact .setRing agrees.owner agrees.dma agrees.size fun _ is => Option.some.inj is ▸ same
  | setBufferAddr i =>
      obtain ⟨d, mine, rest⟩ := Option.bind_eq_some_iff.mp done
      cases agrees.owner d mine
      obtain ⟨-, stored⟩ := Option.ite_none_right_eq_some.mp rest
      cases stored
      exact .setRing agrees.owner agrees.dma agrees.size agrees.buffers
  | writelRdbah | writelRdbal | writelRdlen =>
      obtain ⟨d, mine, rest⟩ := Option.bind_eq_some_iff.mp done
      obtain ⟨_, -, rfl⟩ := Option.map_eq_some_iff.mp rest
      exact { agrees with }
  | readl | writel | writelCtrl =>
      obtain ⟨_, -, rfl⟩ := Option.map_eq_some_iff.mp done
      exact { agrees with }
  | requestIrq =>
      simp only [Op.exec] at done
      split at done <;> cases done <;> exact { agrees with }
  | dmaUnmapSingle i => exact absurd member ((by decide : ∀ i, Op.dmaUnmapSingle i ∉ makeDMA) i)
  | kfreeData i => exact absurd member ((by decide : ∀ i, Op.kfreeData i ∉ makeDMA) i)
  | _ => exact absurd member (by decide)

/-- A run of operations of `make_DMA` keeps the two records alike. -/
theorem Agrees.execute {pdev : PciDev} {outcome : Op → Option (BitVec 64)} {ops : List Op}
    {w w' : World} {b : Board} (agrees : Agrees pdev w b) (members : ∀ op ∈ ops, op ∈ makeDMA)
    (came : (outcome .kzallocRxRing).isSome = true)
    (done : Hw6.execute pdev outcome ops w = some w') :
    Agrees pdev w' (ops.foldl (fun b op => op.perform (outcome op) b) b) := by
  induction ops generalizing w b with
  | nil =>
      cases done
      exact agrees
  | cons op ops ih =>
      obtain ⟨next, first, rest⟩ := Option.bind_eq_some_iff.mp done
      have member := members op List.mem_cons_self
      exact ih (agrees.exec member (fun same => same ▸ came) first)
        (fun other later => members other (List.mem_cons_of_mem _ later)) rest

/-! ## What the DMA API hands out -/

/-- The addresses of the coherent memory and of the mappings, and that the ranges do
not meet. -/
structure Dma where
  ring : BitVec 64
  buffer : Fin 16 → BitVec 64
  ringApart : ∀ i, Region.Apart ⟨ring.toNat, 256⟩ ⟨(buffer i).toNat, 2048⟩
  buffersApart : ∀ i j, i ≠ j →
    Region.Apart ⟨(buffer i).toNat, 2048⟩ ⟨(buffer j).toNat, 2048⟩

/-- Every allocation and every mapping succeeds; `request_irq` may fail. -/
def Dma.outcome (d : Dma) (granted : Bool) : Op → Option (BitVec 64)
  | .dmaAllocCoherent => some d.ring
  | .dmaMapSingle i => some (d.buffer i)
  | .requestIrq => if granted then some 0 else none
  | _ => some 0

/-- `make_DMA` beside the device. -/
def makeDMAStep (d : Dma) (granted : Bool) :
    Board × List Op → Option Packet → Option (Board × List Op) :=
  StraightLine.step (fun op => op.perform (d.outcome granted op)) Board.device

/-- The ring as the device finds it in its registers and in memory. -/
structure RingComplete (b : Board) : Prop where
  base : ringBase b.regs = b.dma.toNat
  length : b.regs.rdlen0.toNat = 16 * e1000RxDescriptor.size
  covers : b.coherent = some ⟨b.dma.toNat, b.regs.rdlen0.toNat⟩
  head : b.regs.rdh0.toNat < 16
  tail : b.regs.rdt0.toNat < 16
  filled : ∀ i : Fin 16,
    load (b.dma.toNat + 16 * i) 8 b.memory = toBytes 8 (b.bufferInfo i).toNat
  live : ∀ i, ⟨(b.bufferInfo i).toNat, 2048⟩ ∈ b.mappings
  distinct : ∀ i j, i ≠ j → b.bufferInfo i ≠ b.bufferInfo j

/-! ## What is known of the board -/

/-- What is known: that the device has been reset; of the ring record, its size and
the allocation; of the registers, what the ring needs; how many mappings have been
made and how many descriptors filled; that the receiver is off, every
interrupt masked, and the line requested. -/
structure Known where
  reset : Bool
  sized : Bool
  based : Bool
  high : Bool
  low : Bool
  length : Bool
  head : Bool
  tail : Bool
  mapped : Nat
  filled : Nat
  quiet : Bool
  masked : Bool
  requested : Bool
  deriving DecidableEq

namespace Known

def nothing : Known :=
  ⟨false, false, false, false, false, false, false, false, 0, 0, false, false, false⟩

/-- After a write of a register. -/
def wrote (v : U32) (k : Known) : Reg → Known
  | .ctrl => if v &&& ctrlRst = 0 then k else { k with reset := true, quiet := true }
  | .rctl => { k with quiet := !v.getLsbD 1 }
  | .ims => { k with masked := k.masked && v == 0 }
  | .imc => { k with masked := k.masked || v == 0xFFFFFFFF }
  | .rdbah0 => { k with high := false }
  | .rdbal0 => { k with low := false }
  | .rdlen0 => { k with length := false }
  | .rdh0 => { k with head := decide (v.toNat < 16) }
  | .rdt0 => { k with tail := decide (v.toNat < 16) }
  | .icr | .ledctl => k

/-- After an operation. -/
def learn (op : Op) (k : Known) : Known :=
  match op with
  | .writel v r => k.wrote v r
  | .kzallocRxRing => { k with sized := false, based := false, mapped := 0 }
  | .setCount => { k with sized := true }
  | .kcallocBufferInfo => { k with mapped := 0 }
  | .dmaAllocCoherent => { k with based := k.sized }
  | .writelRdbah => { k with high := k.based }
  | .writelRdbal => { k with low := k.based }
  | .writelRdlen => { k with length := k.sized }
  | .dmaMapSingle i => { k with mapped := if i.val = k.mapped then k.mapped + 1 else 0 }
  | .setBufferAddr i =>
      { k with
        filled := if k.based ∧ i.val < k.mapped ∧ i.val = k.filled then k.filled + 1 else 0 }
  | .requestIrq => { k with requested := true }
  | .freeIrq => { k with requested := false }
  | .dmaUnmapSingle _ => { k with mapped := 0 }
  | .dmaFreeCoherent => { k with based := false }
  | _ => k

def complete (k : Known) : Bool :=
  k.based && k.high && k.low && k.length && k.head && k.tail && k.mapped == 16 && k.filled == 16

/-- The device does not disturb the filling of the ring, and from the reset on it is
not enabled and not unmasked too early. -/
def ok (k : Known) : Bool :=
  (k.quiet || k.complete || k.filled == 0) &&
    (!k.reset || ((k.quiet || k.complete) && (k.masked || (k.complete && k.requested))))

end Known

theorem checked_makeDMA : StraightLine.checked Known.learn Known.ok makeDMA .nothing = true := by
  decide

/-- What is known is true. -/
structure Known.Hold (d : Dma) (k : Known) (b : Board) : Prop where
  sized : k.sized = true → b.size = 256
  based : k.based = true → b.dma = d.ring ∧ b.coherent = some ⟨d.ring.toNat, 256⟩
  high : k.high = true → b.regs.rdbah0.toNat = d.ring.toNat / 2 ^ 32
  low : k.low = true → b.regs.rdbal0.toNat = d.ring.toNat % 2 ^ 32
  length : k.length = true → b.regs.rdlen0 = 256
  head : k.head = true → b.regs.rdh0.toNat < 16
  tail : k.tail = true → b.regs.rdt0.toNat < 16
  mapped : ∀ i : Fin 16, i.val < k.mapped →
    b.bufferInfo i = d.buffer i ∧ ⟨(d.buffer i).toNat, 2048⟩ ∈ b.mappings
  filled : ∀ i : Fin 16, i.val < k.filled →
    load (d.ring.toNat + 16 * i) 8 b.memory = toBytes 8 (d.buffer i).toNat
  quiet : k.quiet = true → Enabled b.regs = false
  masked : k.masked = true → b.regs.ims = 0
  requested : k.requested = true → b.irqRequested = true

theorem Known.hold_nothing (d : Dma) (b : Board) : Known.nothing.Hold d b :=
  ⟨nofun, nofun, nofun, nofun, nofun, nofun, nofun, nofun, nofun, nofun, nofun, nofun⟩

theorem descriptorOffset_eq (i : Nat) : descriptorOffset i = 16 * i := by
  have size : e1000RxDescriptor.size = 16 := by decide
  have first : ((e1000RxDescriptor.find [.bufferAddr]).map Prod.fst).getD 0 = 0 := by decide
  rw [descriptorOffset, size, first, Nat.mul_comm]
  rfl

/-- A receive changes the head and the causes. -/
theorem Regs.receive_eq (regs : Regs) :
    regs.receive = { regs with rdh0 := (regs.rdh0 + 1) % 16, icr := regs.receive.icr } := by
  unfold Regs.receive
  dsimp only
  split <;> rfl

/-- A packet that comes to a complete ring leaves the addresses in it alone. -/
theorem RingComplete.load_receive {b : Board} (ring : RingComplete b)
    (apart : ∀ i, Region.Apart ⟨b.dma.toNat, 256⟩ ⟨(b.bufferInfo i).toNat, 2048⟩)
    (packet : Packet) (i : Fin 16) :
    load (b.dma.toNat + 16 * i) 8 (b.receive packet).memory =
      load (b.dma.toNat + 16 * i) 8 b.memory := by
  have head := ring.head
  have buffer : ofBytes (load (b.dma.toNat + 16 * b.regs.rdh0.toNat) 8 b.memory) =
      (b.bufferInfo ⟨b.regs.rdh0.toNat, head⟩).toNat := by
    rw [ring.filled ⟨_, head⟩]
    exact ofBytes_toBytes_of_lt (b.bufferInfo _).isLt
  have dataFits := packet.fits
  have backFits := packet.size
  have clear := apart ⟨b.regs.rdh0.toNat, head⟩
  have slot := i.isLt
  dsimp only [Board.receive]
  rw [ring.base, buffer, load_store_of_apart, load_store_of_apart]
  · simp only [Region.Apart] at clear ⊢
    omega
  · simp only [Region.Apart]
    omega

/-! ## The address in two registers -/

theorem toNat_high (dma : BitVec 64) :
    ((dma >>> 32 &&& 0xFFFFFFFF).setWidth 32 : U32).toNat = dma.toNat / 2 ^ 32 := by
  have mask : (0xFFFFFFFF : BitVec 64).toNat = 2 ^ 32 - 1 := rfl
  rw [BitVec.toNat_setWidth, BitVec.toNat_and, mask, Nat.and_two_pow_sub_one_eq_mod,
    BitVec.toNat_ushiftRight, Nat.shiftRight_eq_div_pow]
  omega

theorem toNat_low (dma : BitVec 64) :
    ((dma &&& 0xFFFFFFFF).setWidth 32 : U32).toNat = dma.toNat % 2 ^ 32 := by
  have mask : (0xFFFFFFFF : BitVec 64).toNat = 2 ^ 32 - 1 := rfl
  rw [BitVec.toNat_setWidth, BitVec.toNat_and, mask, Nat.and_two_pow_sub_one_eq_mod, Nat.mod_mod]

namespace Known.Hold

variable {d : Dma} {k : Known} {b : Board}

/-! ## One operation -/

theorem wrote {v : U32} {r : Reg} (hold : k.Hold d b) :
    (k.wrote v r).Hold d { b with regs := Hw6.writel v r b.regs } := by
  cases r with
  | ctrl =>
      unfold Known.wrote Hw6.writel
      by_cases rst : v &&& ctrlRst = 0
      · simp only [if_pos rst]
        exact { hold with }
      · simp only [if_neg rst]
        exact { hold with quiet := fun _ => (by decide : (0 : U32).getLsbD 1 = false) }
  | rctl =>
      refine { hold with quiet := fun off => ?_ }
      simpa [Known.wrote, Enabled, Hw6.writel] using off
  | ims =>
      refine { hold with masked := fun off => ?_ }
      simp only [Known.wrote, Bool.and_eq_true, beq_iff_eq] at off
      simp [Hw6.writel, hold.masked off.1, off.2]
  | imc =>
      refine { hold with masked := fun off => ?_ }
      simp only [Known.wrote, Bool.or_eq_true, beq_iff_eq] at off
      rcases off with before | cleared
      · simp [Hw6.writel, hold.masked before]
      · simp [Hw6.writel, cleared]
  | rdh0 => exact { hold with head := fun small => of_decide_eq_true small }
  | rdt0 => exact { hold with tail := fun small => of_decide_eq_true small }
  | rdbah0 => exact { hold with high := fun known => (Bool.false_ne_true known).elim }
  | rdbal0 => exact { hold with low := fun known => (Bool.false_ne_true known).elim }
  | rdlen0 => exact { hold with length := fun known => (Bool.false_ne_true known).elim }
  | icr | ledctl => exact { hold with }

/-- A mapping made in its turn is one more mapping known. -/
theorem learn_dmaMapSingle (hold : k.Hold d b) (i : Fin 16) (granted : Bool) :
    (k.learn (.dmaMapSingle i)).Hold d
      ((Op.dmaMapSingle i).perform (d.outcome granted (.dmaMapSingle i)) b) := by
  refine { hold with mapped := fun j within => ?_ }
  simp only [Known.learn] at within
  split at within
  · rename_i next
    dsimp only [Op.perform, Dma.outcome]
    by_cases same : j = i
    · subst same
      exact ⟨Function.update_self .., List.mem_cons_self⟩
    · have earlier : j.val < k.mapped := by
        have differ := Fin.val_ne_of_ne same
        omega
      rw [Function.update_of_ne same]
      exact ⟨(hold.mapped j earlier).1, List.mem_cons_of_mem _ (hold.mapped j earlier).2⟩
  · exact absurd within (Nat.not_lt_zero _)

/-- A descriptor filled in its turn, and with a mapping that is known, is one more
descriptor known; the earlier ones are apart from it. -/
theorem learn_setBufferAddr (hold : k.Hold d b) (i : Fin 16) (granted : Bool) :
    (k.learn (.setBufferAddr i)).Hold d
      ((Op.setBufferAddr i).perform (d.outcome granted (.setBufferAddr i)) b) := by
  refine { hold with filled := fun j within => ?_ }
  simp only [Known.learn] at within
  split at within
  · rename_i next
    obtain ⟨based, mapped, last⟩ := next
    dsimp only [Op.perform]
    rw [(hold.based based).1, descriptorOffset_eq, (hold.mapped i mapped).1]
    by_cases same : j = i
    · subst same
      exact load_store_self _ (toBytes 8 (d.buffer j).toNat) _
    · have differ := Fin.val_ne_of_ne same
      rw [load_store_of_apart, hold.filled j (by omega)]
      simp only [Region.Apart, length_toBytes]
      omega
  · exact absurd within (Nat.not_lt_zero _)

theorem learn {op : Op} (hold : k.Hold d b) (granted : Bool) :
    (k.learn op).Hold d (op.perform (d.outcome granted op) b) := by
  have unknown : ∀ {P : Prop}, false = true → P := fun known => (Bool.false_ne_true known).elim
  have unmapped : ∀ {P : Fin 16 → Prop} (i : Fin 16), i.val < 0 → P i :=
    fun _ within => absurd within (Nat.not_lt_zero _)
  cases op with
  | writel v r => exact hold.wrote
  | readl r => cases r <;> exact { hold with }
  | kzallocRxRing => exact { hold with sized := unknown, based := unknown, mapped := unmapped }
  | setCount => exact { hold with sized := fun _ => by rfl }
  | kcallocBufferInfo => exact { hold with mapped := unmapped }
  | dmaAllocCoherent =>
      refine { hold with based := fun sized => ⟨rfl, ?_⟩ }
      exact congrArg (fun size : U32 => some (Region.mk d.ring.toNat size.toNat)) (hold.sized sized)
  | writelRdbah =>
      refine { hold with high := fun based => ?_ }
      rw [← (hold.based based).1]
      exact toNat_high b.dma
  | writelRdbal =>
      refine { hold with low := fun based => ?_ }
      rw [← (hold.based based).1]
      exact toNat_low b.dma
  | writelRdlen => exact { hold with length := fun sized => hold.sized sized }
  | dmaMapSingle i => exact hold.learn_dmaMapSingle i granted
  | setBufferAddr i => exact hold.learn_setBufferAddr i granted
  | writelCtrl =>
      dsimp only [Op.perform, Hw6.readl, Hw6.writel]
      split
      · exact { hold with }
      · exact { hold with quiet := fun _ => (by decide : (0 : U32).getLsbD 1 = false) }
  | requestIrq => exact { hold with requested := fun _ => rfl }
  | freeIrq => exact { hold with requested := unknown }
  | dmaUnmapSingle i => exact { hold with mapped := unmapped }
  | dmaFreeCoherent => exact { hold with based := unknown }
  | pciEnableDevice | pciDisableDevice | pciRequestSelectedRegions | pciReleaseSelectedRegions
  | ioremap | iounmap | kmallocTestWq | initWork | kzallocBuffer | kfreeData | kfreeBufferInfo =>
      exact hold

/-! ## One packet -/

/-- The ring record, once everything is known. -/
theorem handles (hold : k.Hold d b) (complete : k.complete = true) :
    b.dma = d.ring ∧ b.coherent = some ⟨d.ring.toNat, 256⟩ ∧
      ∀ i, b.bufferInfo i = d.buffer i ∧ ⟨(d.buffer i).toNat, 2048⟩ ∈ b.mappings := by
  simp only [Known.complete, Bool.and_eq_true, beq_iff_eq] at complete
  obtain ⟨⟨⟨⟨⟨⟨⟨based, -⟩, -⟩, -⟩, -⟩, -⟩, mapped⟩, -⟩ := complete
  obtain ⟨dma, coherent⟩ := hold.based based
  exact ⟨dma, coherent, fun i => hold.mapped i (by rw [mapped]; exact i.isLt)⟩

/-- Once everything is known, the ring is complete. -/
theorem ringComplete (hold : k.Hold d b) (complete : k.complete = true) : RingComplete b := by
  obtain ⟨dma, coherent, handle⟩ := hold.handles complete
  simp only [Known.complete, Bool.and_eq_true, beq_iff_eq] at complete
  obtain ⟨⟨⟨⟨⟨⟨⟨-, high⟩, low⟩, length⟩, head⟩, tail⟩, -⟩, filled⟩ := complete
  refine ⟨?_, ?_, ?_, hold.head head, hold.tail tail, fun i => ?_, fun i => ?_, ?_⟩
  · rw [ringBase, hold.high high, hold.low low, dma, Nat.mul_comm]
    exact Nat.div_add_mod ..
  · rw [hold.length length]
    decide
  · rw [hold.length length, dma, coherent]
    rfl
  · rw [dma, (handle i).1]
    exact hold.filled i (by rw [filled]; exact i.isLt)
  · rw [(handle i).1]
    exact (handle i).2
  · intro i j other same
    rw [(handle i).1, (handle j).1] at same
    exact (d.buffersApart i j other).start_ne (by decide) (congrArg BitVec.toNat same)

/-- A packet changes nothing of what is known. -/
theorem device {t : Board} {packet : Packet} (hold : k.Hold d b) (ok : k.ok = true)
    (received : b.device packet = some t) : k.Hold d t := by
  obtain ⟨⟨enabled, -⟩, same⟩ := Option.ite_none_right_eq_some.mp received
  cases same
  have loud : k.quiet = false := Bool.eq_false_of_not_eq_true fun off => by
    rw [hold.quiet off] at enabled
    cases enabled
  have regs : (b.receive packet).regs =
      { b.regs with rdh0 := (b.regs.rdh0 + 1) % 16, icr := b.regs.receive.icr } :=
    Regs.receive_eq b.regs
  simp only [Known.ok, loud, Bool.false_or, Bool.and_eq_true, Bool.or_eq_true, beq_iff_eq] at ok
  refine
    { sized := hold.sized
      based := hold.based
      mapped := hold.mapped
      requested := hold.requested
      quiet := fun off => Bool.noConfusion (loud.symm.trans off)
      high := by rw [regs]; exact hold.high
      low := by rw [regs]; exact hold.low
      length := by rw [regs]; exact hold.length
      tail := by rw [regs]; exact hold.tail
      masked := by rw [regs]; exact hold.masked
      head := fun _ => ?_
      filled := fun i within => ?_ }
  · rw [regs]
    dsimp only
    rw [BitVec.toNat_umod]
    exact Nat.mod_lt _ (by decide)
  · rcases ok.1 with complete | none
    · obtain ⟨dma, -, handle⟩ := hold.handles complete
      have apart : ∀ i, Region.Apart ⟨b.dma.toNat, 256⟩ ⟨(b.bufferInfo i).toNat, 2048⟩ :=
        fun i => by rw [dma, (handle i).1]; exact d.ringApart i
      have kept := (hold.ringComplete complete).load_receive apart packet i
      rw [dma] at kept
      rw [kept]
      exact hold.filled i within
    · rw [none] at within
      exact absurd within (Nat.not_lt_zero _)

end Known.Hold

/-! ## Whole runs -/

/-- The write of `CTRL.RST`. -/
def Op.resetDevice : Op := .writel 0x04000000 .ctrl

theorem reset_learn (op : Op) {k : Known} (reset : k.reset = true) : (k.learn op).reset = true := by
  cases op with
  | writel v r =>
      cases r with
      | ctrl =>
          simp only [Known.learn, Known.wrote]
          split
          · exact reset
          · rfl
      | _ => exact reset
  | _ => exact reset

theorem learn_resetDevice (k : Known) : (k.learn .resetDevice).reset = true := by
  simp [Known.learn, Op.resetDevice, Known.wrote, ctrlRst]

theorem reset_of_mem {done : List Op} (executed : .resetDevice ∈ done) (k : Known) :
    (StraightLine.learned Known.learn done k).reset = true :=
  StraightLine.learned_of_mem (P := fun k => k.reset = true) learn_resetDevice
    (fun op _ => reset_learn op) executed k

section Runs

variable {d : Dma} {granted : Bool} {regs : Regs} {memory : Memory} {mappings : List Region}
  {b : Board} {rest : List Op} {trace : List ((Board × List Op) × Option Packet)}

/-- **The device is never enabled on an incomplete ring.** In every state of
`make_DMA` after the reset, whatever was in the registers and in memory, wherever
the DMA API has put the ring and the buffers, and whatever the device receives in
between: if the receiver is enabled the ring is complete, and if any interrupt is
unmasked the ring is complete and the line has been requested. -/
theorem enabled_only_complete
    (run : Run (makeDMAStep d granted) (.start regs memory mappings, makeDMA) trace (b, rest))
    (past : .resetDevice ∉ rest) :
    (Enabled b.regs = true → RingComplete b) ∧
      (b.regs.ims ≠ 0 → RingComplete b ∧ b.irqRequested = true) := by
  have operation : ∀ op (k : Known) b, k.ok = true → k.Hold d b →
      (k.learn op).Hold d (op.perform (d.outcome granted op) b) :=
    fun _ _ _ _ holds => holds.learn granted
  have environment : ∀ packet (k : Known) b t, k.ok = true → k.Hold d b →
      b.device packet = some t → k.Hold d t :=
    fun _ _ _ _ ok holds received => holds.device ok received
  obtain ⟨done, split, hold, ok⟩ := StraightLine.known_of_run operation environment
    checked_makeDMA (Known.hold_nothing d _) run
  have listed : Op.resetDevice ∈ done ++ rest := split ▸ (by decide : Op.resetDevice ∈ makeDMA)
  have reset := reset_of_mem ((List.mem_append.mp listed).resolve_right past) .nothing
  simp only [Known.ok, reset, Bool.not_true, Bool.false_or, Bool.and_eq_true, Bool.or_eq_true] at ok
  obtain ⟨-, quiet, masked⟩ := ok
  constructor
  · intro enabled
    rcases quiet with off | complete
    · exact Bool.noConfusion ((hold.quiet off).symm.trans enabled)
    · exact hold.ringComplete complete
  · intro unmasked
    rcases masked with off | ⟨complete, requested⟩
    · exact (unmasked (hold.masked off)).elim
    · exact ⟨hold.ringComplete complete, hold.requested requested⟩

end Runs

/-- Sixteen buffers side by side, and a ring above four gigabytes. -/
def Dma.sideBySide : Dma where
  ring := 0x123456000
  buffer i := BitVec.ofNat 64 (0x10000 + 0x800 * i)
  ringApart := by decide
  buffersApart := by decide

/-- The registers a previous driver has left, with the receiver enabled. -/
def Regs.leftover : Regs := ⟨0, 0, 0xFFFFFFFF, 2, 0, 0x5000, 7, 64, 3, 1⟩

/-- A packet of one byte. -/
def Packet.oneByte : Packet := ⟨[0xAB], List.replicate 8 1, by decide, by decide⟩

/-- A packet arrives before the line is requested. -/
theorem enabled_only_complete_packet :
    ∃ b trace, Run (makeDMAStep .sideBySide true) (.start .leftover (fun _ => 0xFF) [], makeDMA)
      trace (b, [.requestIrq, .writel 0x10 .ims]) ∧ b.regs.rdh0 = 1 ∧ RingComplete b := by
  obtain ⟨⟨b, rest⟩, trace, run, -, rfl, moved, enabled⟩ := Run.of_exec_any
    (makeDMAStep .sideBySide true) (.start .leftover (fun _ => 0xFF) [], makeDMA)
    (List.replicate 62 none ++ [some .oneByte])
    (fun s => s.2 = [.requestIrq, .writel 0x10 .ims] ∧ s.1.regs.rdh0 = 1 ∧ Enabled s.1.regs = true)
    (by decide +kernel)
  exact ⟨b, trace, run, moved, (enabled_only_complete run (by decide)).1 enabled⟩

end BlinkDriver.Hw6
