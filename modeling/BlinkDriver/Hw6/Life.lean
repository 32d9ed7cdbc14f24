import BlinkDriver.Hw6.System
import BlinkDriver.Hw6.Setup

/-!
# From load to exit

The life of the module with one device: it is loaded, the device is probed,
unbound and probed again, its file is opened and read, interrupts arrive, the
worker runs, and the module exits. Probe and remove go one operation at a time,
the handler and the worker one access at a time, and all of them interleave.
`free_irq` waits for a running handler, `cancel_work_sync` takes a queued item
away and waits for a running one, and `pci_unregister_driver` removes the device
if it is bound.

`Life.Safe` says that a step finds what it accesses, and `Life.Careful` what it
takes for that.
-/

namespace BlinkDriver.Hw6

/-- The one device. -/
def device : PciDev := 0

/-- A user of the device file. A read that gets past the checks of its offset and
buffer reads the head and then the tail. -/
inductive UserPc where
  | closed
  | opened
  | readHead
  | readTail (head : U32)
  deriving DecidableEq

def UserPc.reading : UserPc → Bool
  | .readHead | .readTail _ => true
  | _ => false

/-- What the driver core does with the device; what is left of a function is a
list of operations. -/
inductive DevPc where
  | unbound
  | probing (rest : List Op)
  | failing (rest : List Op)
  | bound
  | removing (rest : List Op)
  | dead
  deriving DecidableEq

/-- The module. `cancelWork`, `unregister` and `cleanup` are what
`example5_exit` does next. -/
inductive ModPc where
  | unloaded
  | live
  | cancelWork
  | unregister
  | cleanup
  deriving DecidableEq

structure Life where
  world : World
  sys : State
  dev : DevPc
  module : ModPc
  users : List UserPc

/-- Before the first load, with any registers. -/
structure Life.Fresh (s : Life) : Prop where
  world : s.world = .boot
  irq : s.sys.irq = .idle
  work : s.sys.work = .idle
  queued : s.sys.queued = false
  dev : s.dev = .unbound
  module : s.module = .unloaded
  users : s.users = []

/-- `myPci.hw_addr` is mapped. -/
def Life.Mapped (s : Life) : Prop :=
  s.world.hwAddr = some device ∧ 0 < s.world.ledger.held (device, .mapping)

/-- `make_DMA` has filled the ring and `dma_freeUp` has not begun to free it. -/
def Life.Ready (s : Life) : Prop :=
  s.world.rxRing = some device ∧ (s.world.ring device).filled = 16

/-- `test_wq` has been allocated. -/
def Life.Allocated (s : Life) : Prop := s.world.testWq.isSome = true

/-- The handler is installed. -/
def Life.Requested (s : Life) : Prop := 0 < s.world.ledger.held (device, .irq)

/-- The work item is neither queued nor running. -/
def Life.WorkAtRest (s : Life) : Prop := s.sys.queued = false ∧ s.sys.work = .idle

instance (s : Life) : Decidable s.Mapped := inferInstanceAs (Decidable (_ ∧ _))
instance (s : Life) : Decidable s.Ready := inferInstanceAs (Decidable (_ ∧ _))
instance (s : Life) : Decidable s.Allocated := inferInstanceAs (Decidable (_ = _))
instance (s : Life) : Decidable s.Requested := inferInstanceAs (Decidable (_ < _))
instance (s : Life) : Decidable s.WorkAtRest := inferInstanceAs (Decidable (_ ∧ _))

/-! ## The system -/

inductive Event where
  | load
  | openFile
  | closeFile (i : Nat)
  | read (i : Nat)
  | readStep (i : Nat)
  | sys (l : Label)
  | probe
  | unbind
  | devStep (outcome : Option (BitVec 64))
  | exit
  | exitStep

/-- The register accesses of an operation. -/
def Op.regs (w : World) (op : Op) (regs : Regs) : Regs :=
  match op with
  | .readl r => (Hw6.readl r regs).2
  | .writel v r => Hw6.writel v r regs
  | .writelRdbah => Hw6.writel ((w.ring device).dma >>> 32 |>.setWidth 32) .rdbah0 regs
  | .writelRdbal => Hw6.writel ((w.ring device).dma.setWidth 32) .rdbal0 regs
  | .writelRdlen => Hw6.writel (BitVec.ofNat 32 (w.ring device).size) .rdlen0 regs
  | .writelCtrl => Hw6.writel (regs.ctrl ||| 0x60) .ctrl regs
  | _ => regs

/-- The state after an operation that went through. -/
def Life.after (s : Life) (op : Op) (w : World) (dev : DevPc) : Life :=
  { s with world := w, sys := { s.sys with regs := op.regs w s.sys.regs }, dev }

/-- The next operation of the function the core is in. `free_irq` waits for the
handler. -/
def Life.devStep (s : Life) (outcome : Option (BitVec 64)) : Option Life :=
  match s.dev with
  | .probing [] => some { s with dev := .bound }
  | .probing (op :: rest) =>
      match op.exec device outcome s.world with
      | none => some { s with dev := .dead }
      | some w =>
          match if outcome.isSome then none else op.exit with
          | some label => some (s.after op w (.failing label))
          | none => some (s.after op w (.probing rest))
  | .failing [] | .removing [] => some { s with dev := .unbound }
  | .failing (op :: rest) =>
      match op.exec device outcome s.world with
      | none => some { s with dev := .dead }
      | some w => some (s.after op w (.failing rest))
  | .removing (op :: rest) =>
      if op = .freeIrq ∧ s.sys.irq ≠ .idle then none
      else
        match op.exec device outcome s.world with
        | none => some { s with dev := .dead }
        | some w => some (s.after op w (.removing rest))
  | _ => none

/-- The next thing `example5_exit` does. -/
def Life.exitStep (s : Life) : Option Life :=
  match s.module with
  | .cancelWork =>
      if s.sys.work = .idle then
        some { s with sys := { s.sys with queued := false }, module := .unregister }
      else none
  | .unregister =>
      match s.dev with
      | .bound => some { s with dev := .removing pciBlinkDriverRemove }
      | .unbound => some { s with module := .cleanup }
      | _ => none
  | .cleanup => some { s with module := .unloaded }
  | _ => none

/-- A load starts with null pointers. The module exits only when no file is open,
no file is opened after that, and devices are probed until the driver is
unregistered. -/
def Life.step (s : Life) : Event → Option Life
  | .load =>
      if s.module = .unloaded then
        some { s with
          module := .live
          world := { s.world with hwAddr := none, testWq := none, rxRing := none } }
      else none
  | .openFile =>
      if s.module = .live then some { s with users := s.users ++ [.opened] } else none
  | .closeFile i =>
      if s.users[i]? = some .opened then some { s with users := s.users.set i .closed } else none
  | .read i =>
      if s.users[i]? = some .opened then some { s with users := s.users.set i .readHead }
      else none
  | .readStep i =>
      match s.users[i]? with
      | some .readHead =>
          let (head, regs) := readl .rdh0 s.sys.regs
          some { s with sys := { s.sys with regs }, users := s.users.set i (.readTail head) }
      | some (.readTail _) =>
          let (_, regs) := readl .rdt0 s.sys.regs
          some { s with sys := { s.sys with regs }, users := s.users.set i .opened }
      | _ => none
  | .sys .interrupt =>
      if s.Requested then (Hw6.step s.sys .interrupt).map fun sys => { s with sys } else none
  | .sys l => (Hw6.step s.sys l).map fun sys => { s with sys }
  | .probe =>
      if s.dev = .unbound ∧ s.module ≠ .unloaded ∧ s.module ≠ .cleanup then
        some { s with dev := .probing pciBlinkDriverProbe }
      else none
  | .unbind =>
      if s.dev = .bound then some { s with dev := .removing pciBlinkDriverRemove } else none
  | .devStep outcome => s.devStep outcome
  | .exit =>
      if s.module = .live ∧ ∀ u ∈ s.users, u = .closed then some { s with module := .cancelWork }
      else none
  | .exitStep => s.exitStep

/-! ## What is claimed and what it takes -/

/-- The operation accesses a register. -/
def Op.accesses : Op → Bool
  | .readl _ | .writel _ _ | .writelRdbah | .writelRdbal | .writelRdlen | .writelCtrl => true
  | _ => false

/-- What the next operation of a probe or remove accesses is there. -/
def Life.SafeOp (s : Life) (op : Op) : Prop :=
  (op.accesses = true → s.Mapped) ∧ (op = .initWork → s.Allocated)

/-- What the step accesses is there: the registers are mapped, the ring is
filled, `test_wq` is allocated. -/
def Life.Safe (s : Life) : Event → Prop
  | .sys .irqStep =>
      match s.sys.irq with
      | .idle => True
      | .schedule _ => s.Allocated
      | _ => s.Mapped
  | .sys .workStep =>
      match s.sys.work with
      | .idle | .sleep => True
      | .readData _ | .readStatus _ | .readLength _ _ => s.Ready
      | _ => s.Mapped
  | .readStep i => ∀ u ∈ s.users[i]?, u.reading = true → s.Mapped
  | .devStep _ =>
      match s.dev with
      | .probing (op :: _) | .failing (op :: _) | .removing (op :: _) => s.SafeOp op
      | _ => True
  | .exitStep => s.module = .cancelWork → s.Allocated
  | _ => True

/-- A read begins only while the registers are mapped, the allocation of
`test_wq` succeeds, a remove begins to free the ring only when the work item is
at rest and unmaps the registers only when nobody is in a read, and the exit
begins only after a probe has allocated `test_wq`. -/
def Life.Careful (s : Life) : Event → Prop
  | .read _ => s.Mapped
  | .devStep outcome =>
      match s.dev with
      | .probing (.kmallocTestWq :: _) => outcome.isSome = true
      | .removing (.dmaUnmapSingle i :: _) => i = 0 → s.WorkAtRest
      | .removing (.iounmap :: _) => ∀ u ∈ s.users, u.reading = false
      | _ => True
  | .exit => s.Allocated
  | _ => True

instance (s : Life) (e : Event) : Decidable (s.Careful e) := by
  unfold Life.Careful
  split
  · infer_instance
  · split <;> infer_instance
  · infer_instance
  · infer_instance

/-! ## What one step of the core can do -/

/-- The steps of a probe or remove. -/
inductive DevStep (s : Life) (outcome : Option (BitVec 64)) : Life → Prop
  | bind (pc : s.dev = .probing []) : DevStep s outcome { s with dev := .bound }
  | release (pc : s.dev = .failing [] ∨ s.dev = .removing []) :
      DevStep s outcome { s with dev := .unbound }
  | die {op : Op} {rest : List Op}
      (pc : s.dev = .probing (op :: rest) ∨ s.dev = .failing (op :: rest) ∨
        s.dev = .removing (op :: rest)) :
      DevStep s outcome { s with dev := .dead }
  | goto {op : Op} {rest label : List Op} {w : World} (pc : s.dev = .probing (op :: rest))
      (done : op.exec device outcome s.world = some w) (failed : outcome.isSome = false)
      (exits : op.exit = some label) : DevStep s outcome (s.after op w (.failing label))
  | probe {op : Op} {rest : List Op} {w : World} (pc : s.dev = .probing (op :: rest))
      (done : op.exec device outcome s.world = some w)
      (stays : outcome.isSome = true ∨ op.exit = none) :
      DevStep s outcome (s.after op w (.probing rest))
  | fail {op : Op} {rest : List Op} {w : World} (pc : s.dev = .failing (op :: rest))
      (done : op.exec device outcome s.world = some w) :
      DevStep s outcome (s.after op w (.failing rest))
  | remove {op : Op} {rest : List Op} {w : World} (pc : s.dev = .removing (op :: rest))
      (waits : op = .freeIrq → s.sys.irq = .idle)
      (done : op.exec device outcome s.world = some w) :
      DevStep s outcome (s.after op w (.removing rest))

theorem DevStep.of_devStep {s t : Life} {outcome : Option (BitVec 64)}
    (moved : s.devStep outcome = some t) : DevStep s outcome t := by
  unfold Life.devStep at moved
  split at moved
  case h_1 pc => cases moved; exact .bind pc
  case h_2 op rest pc =>
      split at moved
      · cases moved
        exact .die (Or.inl pc)
      · rename_i w done
        split at moved
        · rename_i label left
          cases moved
          split at left
          · cases left
          · rename_i failed
            exact .goto pc done (Bool.eq_false_iff.mpr failed) left
        · rename_i left
          cases moved
          split at left
          · rename_i came
            exact .probe pc done (Or.inl came)
          · exact .probe pc done (Or.inr left)
  case h_3 pc => cases moved; exact .release (Or.inl pc)
  case h_4 pc => cases moved; exact .release (Or.inr pc)
  case h_5 op rest pc =>
      split at moved
      · cases moved
        exact .die (Or.inr (Or.inl pc))
      · rename_i w done
        cases moved
        exact .fail pc done
  case h_6 op rest pc =>
      split at moved
      · cases moved
      · rename_i waits
        split at moved
        · cases moved
          exact .die (Or.inr (Or.inr pc))
        · rename_i w done
          cases moved
          refine .remove pc (fun frees => ?_) done
          by_contra running
          exact waits ⟨frees, running⟩
  case h_7 => cases moved

theorem Life.sys_step {s t : Life} {l : Label} (moved : s.step (.sys l) = some t) :
    ∃ sys, Step s.sys l sys ∧ (l = .interrupt → s.Requested) ∧ t = { s with sys } := by
  cases l with
  | interrupt =>
      simp only [Life.step] at moved
      split at moved
      · rename_i installed
        obtain ⟨sys, access, rfl⟩ := Option.map_eq_some_iff.mp moved
        exact ⟨sys, .of_step access, fun _ => installed, rfl⟩
      · cases moved
  | raise =>
      cases moved
      exact ⟨_, .raise, nofun, rfl⟩
  | receive | irqStep | dispatch | workStep | poke =>
      obtain ⟨sys, access, rfl⟩ := Option.map_eq_some_iff.mp moved
      exact ⟨sys, .of_step access, nofun, rfl⟩

end BlinkDriver.Hw6
