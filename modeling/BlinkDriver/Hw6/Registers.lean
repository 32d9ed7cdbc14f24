import Mathlib.Data.BitVec

/-!
# The registers of the network controller

The registers `HW6/hw6.c` names, with the side effects its code relies on:
reading the interrupt cause register clears it, writing ones to it clears those
causes, a write to the mask set register sets mask bits and a write to the mask
clear register clears them. A write of `CTRL.RST` resets the receive control
register; of everything else a reset does, the driver relies on nothing.

`Regs.receive` is what the device does when it completes the descriptor at the
head.
-/

namespace BlinkDriver.Hw6

abbrev U32 := BitVec 32

/-- The register offsets defined at the head of `hw6.c`. -/
inductive Reg where
  | ctrl | icr | ims | imc | rctl | ledctl | rdbal0 | rdbah0 | rdlen0 | rdh0 | rdt0
  deriving DecidableEq

/-- The contents of the registers; the mask clear register has none. -/
structure Regs where
  ctrl : U32
  icr : U32
  ims : U32
  rctl : U32
  ledctl : U32
  rdbal0 : U32
  rdbah0 : U32
  rdlen0 : U32
  rdh0 : U32
  rdt0 : U32
  deriving DecidableEq

/-- Interrupt cause "receive descriptor minimum threshold", bit 4. -/
def rxdmt0 : U32 := 0x10

/-- The threshold cause, or its mask bit, is set. -/
def ThresholdSet (x : U32) : Prop := x &&& rxdmt0 = rxdmt0

instance (x : U32) : Decidable (ThresholdSet x) := inferInstanceAs (Decidable (_ = _))

/-- `CTRL.RST`, bit 26. -/
def ctrlRst : U32 := 0x04000000

/-- The value a read returns, and the registers after it. -/
def readl (r : Reg) (regs : Regs) : U32 × Regs :=
  match r with
  | .ctrl => (regs.ctrl, regs)
  | .icr => (regs.icr, { regs with icr := 0 })
  | .ims => (regs.ims, regs)
  | .imc => (0, regs)
  | .rctl => (regs.rctl, regs)
  | .ledctl => (regs.ledctl, regs)
  | .rdbal0 => (regs.rdbal0, regs)
  | .rdbah0 => (regs.rdbah0, regs)
  | .rdlen0 => (regs.rdlen0, regs)
  | .rdh0 => (regs.rdh0, regs)
  | .rdt0 => (regs.rdt0, regs)

/-- The registers after a write. -/
def writel (v : U32) (r : Reg) (regs : Regs) : Regs :=
  match r with
  | .ctrl =>
      if v &&& ctrlRst = 0 then { regs with ctrl := v }
      else { regs with ctrl := v &&& ~~~ctrlRst, rctl := 0 }
  | .icr => { regs with icr := regs.icr &&& ~~~v }
  | .ims => { regs with ims := regs.ims ||| v }
  | .imc => { regs with ims := regs.ims &&& ~~~v }
  | .rctl => { regs with rctl := v }
  | .ledctl => { regs with ledctl := v }
  | .rdbal0 => { regs with rdbal0 := v }
  | .rdbah0 => { regs with rdbah0 := v }
  | .rdlen0 => { regs with rdlen0 := v }
  | .rdh0 => { regs with rdh0 := v }
  | .rdt0 => { regs with rdt0 := v }

/-- How many descriptors the device may still fill. -/
def Regs.freeCount (regs : Regs) : Int := ((regs.rdt0.toNat : Int) - regs.rdh0.toNat) % 16

/-- Completing the descriptor at the head: the head advances, and the threshold
cause is raised when this leaves half of the ring free (`RCTL.RDMTS = 0`). -/
def Regs.receive (regs : Regs) : Regs :=
  let moved := { regs with rdh0 := (regs.rdh0 + 1) % 16 }
  if moved.freeCount = 8 then { moved with icr := moved.icr ||| rxdmt0 } else moved

/-! ## The threshold bit -/

theorem thresholdSet_iff (x : U32) : ThresholdSet x ↔ x.getLsbD 4 = true := by
  have one : rxdmt0 = BitVec.twoPow 32 4 := rfl
  rw [ThresholdSet, one, BitVec.and_twoPow]
  cases x.getLsbD 4 <;> simp [← one, rxdmt0]

theorem ThresholdSet.or_left {x : U32} (set : ThresholdSet x) (y : U32) :
    ThresholdSet (x ||| y) := by
  rw [thresholdSet_iff] at set ⊢
  simp [set]

theorem ThresholdSet.or_right {y : U32} (set : ThresholdSet y) (x : U32) :
    ThresholdSet (x ||| y) := by
  rw [BitVec.or_comm]
  exact set.or_left x

theorem thresholdSet_or_rxdmt0 (x : U32) : ThresholdSet (x ||| rxdmt0) :=
  ThresholdSet.or_right (by decide) x

/-- The write that acknowledges the threshold interrupt clears its cause. -/
theorem not_thresholdSet_ack (x : U32) : ¬ ThresholdSet (x &&& ~~~rxdmt0) := by
  have bit : (~~~rxdmt0).getLsbD 4 = false := by decide
  rw [thresholdSet_iff, BitVec.getLsbD_and, bit, Bool.and_false]
  decide

/-! ## What a receive changes -/

@[simp] theorem Regs.receive_rdh0 (regs : Regs) :
    regs.receive.rdh0 = (regs.rdh0 + 1) % 16 := by
  unfold Regs.receive
  dsimp only
  split <;> rfl

@[simp] theorem Regs.receive_rdt0 (regs : Regs) : regs.receive.rdt0 = regs.rdt0 := by
  unfold Regs.receive
  dsimp only
  split <;> rfl

@[simp] theorem Regs.receive_ims (regs : Regs) : regs.receive.ims = regs.ims := by
  unfold Regs.receive
  dsimp only
  split <;> rfl

@[simp] theorem Regs.receive_ledctl (regs : Regs) : regs.receive.ledctl = regs.ledctl := by
  unfold Regs.receive
  dsimp only
  split <;> rfl

@[simp] theorem Regs.receive_freeCount (regs : Regs) :
    regs.receive.freeCount =
      ((regs.rdt0.toNat : Int) - ((regs.rdh0 + 1) % 16 : U32).toNat) % 16 := by
  simp [Regs.freeCount]

/-- A receive that reaches the threshold raises its cause, any other leaves the
causes alone. -/
theorem Regs.receive_icr (regs : Regs) :
    regs.receive.icr = if regs.receive.freeCount = 8 then regs.icr ||| rxdmt0 else regs.icr := by
  rw [Regs.receive_freeCount]
  unfold Regs.receive Regs.freeCount
  dsimp only
  split <;> rfl

end BlinkDriver.Hw6
