import BlinkDriver.Hw6.Life
import BlinkDriver.Hw6.Resources

/-!
# What is known during a probe and a remove

`Facts` is what is known of the registers, of `test_wq`, of the ring, of the
handler and of the work item before an operation. `Op.after` is the effect of one
operation on that knowledge and `Op.allowed` what must be known for it; whole
functions are checked by evaluation, in `guarded_probe` and `straight_remove`.
`Facts.Hold.after` says that the knowledge is right: what holds before an allowed
operation and is updated by `Op.after` holds after it.
-/

namespace BlinkDriver.Hw6

/-! ## What is known before an operation -/

/-- What is known of the state: the registers are mapped, or certainly are not,
`test_wq` is allocated, the ring is filled, the handler may be installed, the
work item may be queued or running. -/
structure Facts where
  mapped : Bool
  clear : Bool
  wq : Bool
  ready : Bool
  irq : Bool
  busy : Bool
  deriving DecidableEq

namespace Facts

/-- Of a device that is not bound. -/
def unbound : Facts := ⟨false, true, false, false, false, false⟩

/-- Of a bound device. -/
def bound : Facts := ⟨true, false, true, true, true, true⟩

/-- A handler or a work item finds what it needs, and a handler may queue the
work item. -/
def consistent (f : Facts) : Bool :=
  (!(f.irq || f.busy) || (f.mapped && f.wq && f.ready)) && (!f.irq || f.busy)

structure Hold (f : Facts) (s : Life) : Prop where
  mapped : f.mapped = true → s.Mapped
  single : s.world.ledger.held (device, .mapping) ≤ 1
  clear : f.clear = true → s.world.ledger.held (device, .mapping) = 0
  wq : f.wq = true → s.Allocated
  owner : ∀ d, s.world.rxRing = some d → d = device
  ready : f.ready = true → s.Ready
  line : s.world.ledger.held (device, .irq) ≤ 1
  irq : f.irq = false → s.world.ledger.held (device, .irq) = 0
  busy : f.busy = false → s.WorkAtRest

end Facts

/-- The parts of a probe and of a remove. -/
inductive Phase where
  | probing
  | failing
  | removing
  deriving DecidableEq

namespace Op

/-- What is known after an operation; `done` says that it did not fail. -/
def after (done : Bool) (op : Op) (f : Facts) : Facts :=
  match op with
  | .ioremap => { f with mapped := done, clear := f.clear && !done }
  | .iounmap => { f with mapped := false, clear := true }
  | .kmallocTestWq => { f with wq := done }
  | .setBufferAddr i => { f with ready := i.val = 15 }
  | .requestIrq => { f with irq := true, busy := true }
  | .freeIrq => { f with irq := false }
  | .dmaUnmapSingle _ => { f with ready := false, busy := false }
  | .kzallocRxRing | .setCount | .kcallocBufferInfo | .dmaAllocCoherent | .kzallocBuffer _
  | .dmaMapSingle _ | .kfreeData _ | .dmaFreeCoherent | .kfreeBufferInfo =>
      { f with ready := false }
  | _ => f

/-- What must be known before an operation. A remove frees the first descriptor
whatever the work item does. -/
def allowed (phase : Phase) (op : Op) (f : Facts) : Bool :=
  match op with
  | .ioremap => phase = .probing && f.clear && !f.irq && !f.busy
  | .iounmap => !f.irq && !f.busy && if phase = .removing then f.mapped else f.clear
  | .readl _ | .writel _ _ | .writelRdbah | .writelRdbal | .writelRdlen | .writelCtrl => f.mapped
  | .initWork => f.wq
  | .requestIrq => f.mapped && f.wq && f.ready && !f.irq
  | .freeIrq => phase = .removing && f.ready
  | .dmaUnmapSingle i => !f.irq && (!f.busy || (phase = .removing && i.val = 0))
  | .kmallocTestWq => phase = .probing && !f.irq && !f.busy
  | .kzallocRxRing | .setCount | .kcallocBufferInfo | .dmaAllocCoherent
  | .kzallocBuffer _ | .dmaMapSingle _ | .setBufferAddr _ | .kfreeData _ | .dmaFreeCoherent
  | .kfreeBufferInfo => !f.irq && !f.busy
  | _ => true

end Op

/-- Every operation of a list finds what it must, and the list ends with an
unbound device. -/
def straight (phase : Phase) : List Op → Facts → Bool
  | [], f => f.consistent && f.clear && !f.irq && !f.busy
  | op :: rest, f =>
      f.consistent && op.allowed phase f && straight phase rest (op.after true f)

/-- Every operation of a probe finds what it must, every label it may go to ends
with an unbound device, and the probe ends with a bound one. -/
def guarded : List Op → Facts → Bool
  | [], f => f.consistent && f.mapped && f.wq && f.ready
  | op :: rest, f =>
      f.consistent && op.allowed .probing f && guarded rest (op.after true f) &&
        match op.exit with
        | some label => straight .failing label (op.after false f)
        | none => true

theorem guarded_probe : guarded pciBlinkDriverProbe .unbound = true := by decide

theorem straight_remove : straight .removing pciBlinkDriverRemove .bound = true := by decide

/-! ## What one operation changes -/

namespace Op

/-- The operation stores into the ring record. -/
def stores : Op → Bool
  | .kzallocRxRing | .setCount | .kcallocBufferInfo | .dmaAllocCoherent | .kzallocBuffer _
  | .dmaMapSingle _ | .setBufferAddr _ | .dmaUnmapSingle _ | .kfreeData _ | .dmaFreeCoherent
  | .kfreeBufferInfo => true
  | _ => false

/-- What an operation leaves alone. -/
structure Frame (op : Op) (w w' : World) : Prop where
  hwAddr : op ≠ .ioremap → w'.hwAddr = w.hwAddr
  testWq : op ≠ .kmallocTestWq → w'.testWq = w.testWq
  rxRing : op ≠ .kzallocRxRing → w'.rxRing = w.rxRing
  ring : op.stores = true ∨ w'.ring = w.ring

theorem exec_frame {pdev : PciDev} {outcome : Option (BitVec 64)} {op : Op} {w w' : World}
    (done : op.exec pdev outcome w = some w') : op.Frame w w' := by
  cases op with
  | pciEnableDevice | pciDisableDevice | pciReleaseSelectedRegions =>
      cases done
      exact ⟨fun _ => rfl, fun _ => rfl, fun _ => rfl, .inr rfl⟩
  | pciRequestSelectedRegions | requestIrq | freeIrq =>
      simp only [exec] at done
      split at done
      all_goals cases done; exact ⟨fun _ => rfl, fun _ => rfl, fun _ => rfl, .inr rfl⟩
  | ioremap =>
      simp only [exec] at done
      split at done <;> cases done <;>
        exact ⟨fun other => (other rfl).elim, fun _ => rfl, fun _ => rfl, .inr rfl⟩
  | iounmap =>
      simp only [exec] at done
      split at done
      all_goals cases done; exact ⟨fun _ => rfl, fun _ => rfl, fun _ => rfl, .inr rfl⟩
  | kmallocTestWq =>
      simp only [exec] at done
      split at done <;> cases done <;>
        exact ⟨fun _ => rfl, fun other => (other rfl).elim, fun _ => rfl, .inr rfl⟩
  | kzallocRxRing =>
      simp only [exec] at done
      split at done <;> cases done <;>
        exact ⟨fun _ => rfl, fun _ => rfl, fun other => (other rfl).elim, .inl rfl⟩
  | readl | writel | writelCtrl | initWork =>
      obtain ⟨_, -, rfl⟩ := Option.map_eq_some_iff.mp done
      exact ⟨fun _ => rfl, fun _ => rfl, fun _ => rfl, .inr rfl⟩
  | writelRdbah | writelRdbal | writelRdlen =>
      obtain ⟨_, -, later⟩ := Option.bind_eq_some_iff.mp done
      obtain ⟨_, -, rfl⟩ := Option.map_eq_some_iff.mp later
      exact ⟨fun _ => rfl, fun _ => rfl, fun _ => rfl, .inr rfl⟩
  | setCount | kcallocBufferInfo | dmaAllocCoherent | dmaFreeCoherent | kfreeBufferInfo =>
      obtain ⟨_, -, rfl⟩ := Option.map_eq_some_iff.mp done
      refine ⟨fun _ => ?_, fun _ => ?_, fun _ => ?_, .inl rfl⟩ <;> dsimp only [World.setRing] <;>
        split <;> rfl
  | kzallocBuffer | dmaMapSingle | dmaUnmapSingle | kfreeData =>
      obtain ⟨_, -, later⟩ := Option.bind_eq_some_iff.mp done
      obtain ⟨_, -, rfl⟩ := Option.map_eq_some_iff.mp later
      refine ⟨fun _ => ?_, fun _ => ?_, fun _ => ?_, .inl rfl⟩ <;> dsimp only [World.setRing] <;>
        split <;> rfl
  | setBufferAddr =>
      obtain ⟨_, -, later⟩ := Option.bind_eq_some_iff.mp done
      split at later
      · cases later
        exact ⟨fun _ => rfl, fun _ => rfl, fun _ => rfl, .inl rfl⟩
      · cases later

/-- A successful allocation of `test_wq`. -/
theorem exec_kmallocTestWq {pdev : PciDev} {outcome : Option (BitVec 64)} {w w' : World}
    (done : Op.kmallocTestWq.exec pdev outcome w = some w') (came : outcome.isSome = true) :
    w'.testWq.isSome = true := by
  simp only [exec, if_pos came] at done
  cases done
  rfl

/-! What is known of the registers, of `test_wq`, of the ring, of the handler and
of the work item changes with a few operations each. -/

variable {op : Op} (done : Bool) (f : Facts)

theorem after_mapped (maps : op ≠ .ioremap) (unmaps : op ≠ .iounmap) :
    (op.after done f).mapped = f.mapped ∧ (op.after done f).clear = f.clear := by
  cases op with
  | ioremap => exact (maps rfl).elim
  | iounmap => exact (unmaps rfl).elim
  | _ => exact ⟨rfl, rfl⟩

theorem after_wq (allocates : op ≠ .kmallocTestWq) : (op.after done f).wq = f.wq := by
  cases op with
  | kmallocTestWq => exact (allocates rfl).elim
  | _ => rfl

theorem after_irq (requests : op ≠ .requestIrq) (frees : op ≠ .freeIrq) :
    (op.after done f).irq = f.irq := by
  cases op with
  | requestIrq => exact (requests rfl).elim
  | freeIrq => exact (frees rfl).elim
  | _ => rfl

/-- Only two outcomes matter for what is known. -/
theorem after_eq (maps : op ≠ .ioremap) (allocates : op ≠ .kmallocTestWq) :
    op.after done f = op.after true f := by
  cases op with
  | ioremap => exact (maps rfl).elim
  | kmallocTestWq => exact (allocates rfl).elim
  | _ => rfl

theorem after_eq_of_allowed {phase : Phase} (allowed : op.allowed phase f = true)
    (later : phase ≠ .probing) : op.after done f = op.after true f := by
  refine after_eq done f ?_ ?_
  all_goals
    intro same
    subst same
    simp only [Op.allowed, Bool.and_eq_true, decide_eq_true_eq] at allowed
  · exact later allowed.1.1.1
  · exact later allowed.1.1

theorem mapped_of_allowed {f : Facts} {phase : Phase} (allowed : op.allowed phase f = true)
    (accesses : op.accesses = true) : f.mapped = true := by
  cases op with
  | readl | writel | writelRdbah | writelRdbal | writelRdlen | writelCtrl => exact allowed
  | _ => cases accesses

/-- After an operation the work item is known to be at rest only if it was, or if
the operation is the one a remove may only make when it is. -/
theorem busy_of_after (quiet : (op.after done f).busy = false) :
    f.busy = false ∨ ∃ i, op = .dmaUnmapSingle i := by
  cases op with
  | dmaUnmapSingle i => exact Or.inr ⟨i, rfl⟩
  | requestIrq => cases quiet
  | _ => exact Or.inl quiet

/-- The ring is known to be filled after an operation that stores the last
descriptor, or does not store. -/
theorem ready_of_after (filled : (op.after done f).ready = true) :
    (∃ i : Fin 16, op = .setBufferAddr i ∧ i.val = 15) ∨ op.stores = false ∧ f.ready = true := by
  cases op with
  | setBufferAddr i => exact Or.inl ⟨i, rfl, of_decide_eq_true filled⟩
  | readl | writel | writelRdbah | writelRdbal | writelRdlen | writelCtrl | pciEnableDevice
  | pciDisableDevice | pciRequestSelectedRegions | pciReleaseSelectedRegions | ioremap | iounmap
  | kmallocTestWq | initWork | requestIrq | freeIrq => exact Or.inr ⟨rfl, filled⟩
  | _ => cases filled

theorem acquires_mapping (gets : op.acquires = some .mapping) : op = .ioremap := by
  cases op with
  | ioremap => rfl
  | _ => cases gets

theorem releases_mapping (drops : op.releases = some .mapping) : op = .iounmap := by
  cases op with
  | iounmap => rfl
  | _ => cases drops

theorem acquires_irq (gets : op.acquires = some .irq) : op = .requestIrq := by
  cases op with
  | requestIrq => rfl
  | _ => cases gets

theorem releases_irq (drops : op.releases = some .irq) : op = .freeIrq := by
  cases op with
  | freeIrq => rfl
  | _ => cases drops

end Op

namespace Facts.Hold

variable {f : Facts} {s : Life} {op : Op} {outcome : Option (BitVec 64)} {w : World}
  {phase : Phase}

/-- A successful `ioremap` maps the registers once. -/
theorem ioremap_after (hold : f.Hold s) (clear : f.clear = true) (came : outcome.isSome = true)
    (done : Op.ioremap.exec device outcome s.world = some w) :
    w.hwAddr = some device ∧ w.ledger.held (device, .mapping) = 1 := by
  simp only [Op.exec, if_pos came] at done
  cases done
  have none := hold.clear clear
  refine ⟨rfl, ?_⟩
  simp [World.acquire, none]

/-- `iounmap` leaves the registers unmapped: in a remove they were mapped once,
and a probe that failed had not mapped them. -/
theorem iounmap_after (hold : f.Hold s) (allowed : Op.iounmap.allowed phase f = true)
    (done : Op.iounmap.exec device outcome s.world = some w) :
    w.ledger.held (device, .mapping) = 0 := by
  simp only [Op.exec] at done
  simp only [Op.allowed, Bool.and_eq_true] at allowed
  by_cases removing : phase = .removing
  · rw [if_pos removing] at allowed
    have address := (hold.mapped allowed.2).1
    have few := hold.single
    rw [address] at done
    cases done
    rw [World.release, Ledger.release_held_self]
    omega
  · rw [if_neg removing] at allowed
    have none := hold.clear allowed.2
    split at done
    · rename_i d _
      cases done
      have fewer := s.world.ledger.release_held_le (d, .mapping) (device, .mapping)
      exact Nat.le_zero.mp (none ▸ fewer)
    · cases done
      exact none

/-- The registers. -/
theorem mapping_after (hold : f.Hold s) (allowed : op.allowed phase f = true)
    (done : op.exec device outcome s.world = some w) :
    ((op.after outcome.isSome f).mapped = true →
      w.hwAddr = some device ∧ 0 < w.ledger.held (device, .mapping)) ∧
    w.ledger.held (device, .mapping) ≤ 1 ∧
    ((op.after outcome.isSome f).clear = true → w.ledger.held (device, .mapping) = 0) := by
  by_cases maps : op = .ioremap
  · subst maps
    simp only [Op.allowed, Bool.and_eq_true] at allowed
    by_cases came : outcome.isSome = true
    · obtain ⟨address, one⟩ := hold.ioremap_after allowed.1.1.2 came done
      refine ⟨fun _ => ⟨address, one.symm ▸ Nat.one_pos⟩, one.le, fun clear => ?_⟩
      simp [Op.after, came] at clear
    · simp only [Op.exec, if_neg came] at done
      cases done
      exact ⟨fun mapped => (came mapped).elim, hold.single, fun _ => hold.clear allowed.1.1.2⟩
  · by_cases unmaps : op = .iounmap
    · subst unmaps
      have gone := hold.iounmap_after allowed done
      exact ⟨fun mapped => (Bool.false_ne_true mapped).elim, gone.le.trans (Nat.zero_le _),
        fun _ => gone⟩
    · obtain ⟨sameMapped, sameClear⟩ := Op.after_mapped outcome.isSome f maps unmaps
      have same := (Op.exec_entry done).held_eq (r := .mapping)
        (fun gets => maps (Op.acquires_mapping gets))
        (fun drops => unmaps (Op.releases_mapping drops)) device
      rw [sameMapped, sameClear, same, (Op.exec_frame done).hwAddr maps]
      exact ⟨hold.mapped, hold.single, hold.clear⟩

/-- The handler. -/
theorem line_after (hold : f.Hold s) (allowed : op.allowed phase f = true)
    (done : op.exec device outcome s.world = some w) :
    w.ledger.held (device, .irq) ≤ 1 ∧
    ((op.after outcome.isSome f).irq = false → w.ledger.held (device, .irq) = 0) := by
  by_cases requests : op = .requestIrq
  · subst requests
    simp only [Op.allowed, Bool.and_eq_true, Bool.not_eq_true'] at allowed
    have none := hold.irq allowed.2
    refine ⟨?_, nofun⟩
    simp only [Op.exec] at done
    split at done
    · cases done
      simp [World.acquire, none]
    · cases done
      omega
  · by_cases frees : op = .freeIrq
    · subst frees
      simp only [Op.allowed, Bool.and_eq_true] at allowed
      have few := hold.line
      simp only [Op.exec, if_pos (hold.ready allowed.2).1] at done
      cases done
      have gone : (s.world.release device .irq).ledger.held (device, .irq) = 0 := by
        rw [World.release, Ledger.release_held_self]
        omega
      exact ⟨gone.le.trans (Nat.zero_le _), fun _ => gone⟩
    · have same := (Op.exec_entry done).held_eq (r := .irq)
        (fun gets => requests (Op.acquires_irq gets)) (fun drops => frees (Op.releases_irq drops))
        device
      rw [Op.after_irq outcome.isSome f requests frees, same]
      exact ⟨hold.line, hold.irq⟩

/-- `test_wq`. -/
theorem wq_after (hold : f.Hold s) (done : op.exec device outcome s.world = some w)
    (known : (op.after outcome.isSome f).wq = true) : w.testWq.isSome = true := by
  by_cases allocates : op = .kmallocTestWq
  · subst allocates
    exact Op.exec_kmallocTestWq done known
  · rw [(Op.exec_frame done).testWq allocates]
    rw [Op.after_wq outcome.isSome f allocates] at known
    exact hold.wq known

/-- The ring. -/
theorem ready_after (hold : f.Hold s) (done : op.exec device outcome s.world = some w) :
    (∀ d, w.rxRing = some d → d = device) ∧
    ((op.after outcome.isSome f).ready = true →
      w.rxRing = some device ∧ (w.ring device).filled = 16) := by
  by_cases allocates : op = .kzallocRxRing
  · subst allocates
    refine ⟨fun d there => ?_, nofun⟩
    simp only [Op.exec] at done
    split at done
    · cases done
      exact (Option.some.inj there).symm
    · cases done
      cases there
  · have same := (Op.exec_frame done).rxRing allocates
    refine ⟨fun d there => hold.owner d (same ▸ there), fun known => ?_⟩
    rcases Op.ready_of_after _ _ known with ⟨i, rfl, last⟩ | ⟨reads, ready⟩
    · obtain ⟨d, there, later⟩ := Option.bind_eq_some_iff.mp done
      have own := hold.owner d there
      subst own
      split at later
      · cases later
        exact ⟨there, by simp [World.setRing, last]⟩
      · cases later
    · have ring : w.ring = s.world.ring := (Op.exec_frame done).ring.resolve_left (by simp [reads])
      rw [same, ring]
      exact hold.ready ready

/-- What is known after an operation holds after it. -/
theorem after (hold : f.Hold s) (allowed : op.allowed phase f = true)
    (rest : ∀ i, op = .dmaUnmapSingle i → s.WorkAtRest)
    (done : op.exec device outcome s.world = some w) (dev : DevPc) :
    (op.after outcome.isSome f).Hold (s.after op w dev) := by
  obtain ⟨mapped, single, clear⟩ := hold.mapping_after allowed done
  obtain ⟨line, irq⟩ := hold.line_after allowed done
  obtain ⟨owner, ready⟩ := hold.ready_after done
  refine ⟨mapped, single, clear, hold.wq_after done, owner, ready, line, irq, fun quiet => ?_⟩
  rcases Op.busy_of_after _ _ quiet with before | ⟨i, frees⟩
  · exact hold.busy before
  · exact rest i frees

end Facts.Hold

end BlinkDriver.Hw6
