import BlinkDriver.Lib.Transition
import BlinkDriver.Hw6.Setup

/-!
# The balance of probe and remove

Sequences of probe and remove calls over any devices, with any outcome of every
call that can fail. A probe that fails should leave its device with nothing, one
that succeeds should leave it with everything, a remove should release each
resource once, and nothing should be released that is not held (`CallOk`).

No remove releases `test_wq` or the ring record, and no failing probe disables
the device again, so `balanced_iff` says that a sequence is in order exactly
when nothing fails and nothing is removed.
-/

namespace BlinkDriver.Hw6

open Transition

/-- The driver with its devices. `dead` says that a call has dereferenced a null
pointer; nothing is called after that. -/
structure Devices where
  world : World
  bound : PciDev → Bool
  dead : Bool

/-- A driver without devices. -/
def Devices.boot : Devices := ⟨.boot, fun _ => false, false⟩

/-- A call by the PCI core: a probe, with the outcomes of the calls it makes, or
a remove. -/
inductive PciCall where
  | probe (pdev : PciDev) (outcome : Op → Option (BitVec 64))
  | remove (pdev : PciDev)

/-- The core probes devices that are not bound, binds them if the probe returns
0, and removes devices that are bound. -/
def pciStep (s : Devices) : PciCall → Option Devices
  | .probe pdev outcome =>
      if s.dead || s.bound pdev then none
      else
        match call pdev outcome pciBlinkDriverProbe s.world with
        | some (world, ret) =>
            some { s with world, bound := Function.update s.bound pdev (ret = 0) }
        | none => some { s with dead := true }
  | .remove pdev =>
      if s.dead || !s.bound pdev then none
      else
        match execute pdev (fun _ => none) pciBlinkDriverRemove s.world with
        | some world => some { s with world, bound := Function.update s.bound pdev false }
        | none => some { s with dead := true }

/-- Every call of a probe that can fail succeeds. -/
def Succeeds (outcome : Op → Option (BitVec 64)) : Prop :=
  ∀ op ∈ pciBlinkDriverProbe, op.fallible = true → (outcome op).isSome = true

/-- What a probe should do: with 0 its device holds every resource; if anything
fails it returns something else and its device holds nothing; and it releases
only what is held. -/
structure ProbeOk (s : Devices) (pdev : PciDev) (outcome : Op → Option (BitVec 64)) : Prop where
  holds : ∀ w, call pdev outcome pciBlinkDriverProbe s.world = some (w, 0) →
    ∀ r, 0 < w.ledger.held (pdev, r)
  fails : ¬ Succeeds outcome → ∃ w ret,
    call pdev outcome pciBlinkDriverProbe s.world = some (w, ret) ∧ ret ≠ 0 ∧
      ∀ r, w.ledger.held (pdev, r) = 0
  proper : ∀ w ret, call pdev outcome pciBlinkDriverProbe s.world = some (w, ret) →
    w.ledger.stray = s.world.ledger.stray

/-- What a remove should do: release each resource of its device once, leave none
and release only what is held. -/
def RemoveOk (s : Devices) (pdev : PciDev) : Prop :=
  ∃ w, execute pdev (fun _ => none) pciBlinkDriverRemove s.world = some w ∧
    (∀ r, w.ledger.released (pdev, r) = s.world.ledger.released (pdev, r) + 1 ∧
      w.ledger.held (pdev, r) = 0) ∧
    w.ledger.stray = s.world.ledger.stray

def CallOk (s : Devices) : PciCall → Prop
  | .probe pdev outcome => ProbeOk s pdev outcome
  | .remove pdev => RemoveOk s pdev

/-- A probe in which nothing fails. -/
def CleanProbe (_ : Devices) : PciCall → Prop
  | .probe _ outcome => Succeeds outcome
  | .remove _ => False

/-! ## What an operation does to the ledger -/

/-- What the operation acquires for its device. -/
def Op.acquires : Op → Option Resource
  | .pciEnableDevice => some .enabled
  | .pciRequestSelectedRegions => some .regions
  | .ioremap => some .mapping
  | .kmallocTestWq => some .testWq
  | .kzallocRxRing => some .rxRing
  | .kcallocBufferInfo => some .bufferInfo
  | .dmaAllocCoherent => some .coherent
  | .kzallocBuffer i => some (.buffer i)
  | .dmaMapSingle i => some (.dmaMap i)
  | .requestIrq => some .irq
  | _ => none

/-- What the operation releases, if anything. -/
def Op.releases : Op → Option Resource
  | .pciDisableDevice => some .enabled
  | .pciReleaseSelectedRegions => some .regions
  | .iounmap => some .mapping
  | .freeIrq => some .irq
  | .dmaUnmapSingle i => some (.dmaMap i)
  | .kfreeData i => some (.buffer i)
  | .dmaFreeCoherent => some .coherent
  | .kfreeBufferInfo => some .bufferInfo
  | _ => none

/-- The entries an operation can make. -/
inductive Entry (pdev : PciDev) (outcome : Option (BitVec 64)) (op : Op)
    (l : Ledger (PciDev × Resource)) : Ledger (PciDev × Resource) → Prop
  | none (idle : op.acquires = none ∨ (op.fallible = true ∧ outcome = none)) :
      Entry pdev outcome op l l
  | acquire {r : Resource} (gets : op.acquires = some r) :
      Entry pdev outcome op l (l.acquire (pdev, r))
  | release {d : PciDev} {r : Resource} (drops : op.releases = some r) :
      Entry pdev outcome op l (l.release (d, r))
  | stray (drops : op.releases ≠ .none) :
      Entry pdev outcome op l { l with stray := l.stray + 1 }

theorem Op.exec_entry {pdev : PciDev} {outcome : Option (BitVec 64)} {op : Op} {w w' : World}
    (done : op.exec pdev outcome w = some w') : Entry pdev outcome op w.ledger w'.ledger := by
  cases op with
  | pciEnableDevice => cases done; exact .acquire rfl
  | pciDisableDevice | pciReleaseSelectedRegions => cases done; exact .release rfl
  | pciRequestSelectedRegions | ioremap | kmallocTestWq | kzallocRxRing | requestIrq =>
      cases outcome with
      | none => cases done; exact .none (Or.inr ⟨rfl, rfl⟩)
      | some v => cases done; exact .acquire rfl
  | iounmap =>
      simp only [exec] at done
      split at done
      · cases done; exact .release rfl
      · cases done; exact .none (Or.inl rfl)
  | kcallocBufferInfo | dmaAllocCoherent =>
      obtain ⟨d, -, rfl⟩ := Option.map_eq_some_iff.mp done
      cases outcome with
      | none => exact .none (Or.inr ⟨rfl, rfl⟩)
      | some v => exact .acquire rfl
  | kzallocBuffer | dmaMapSingle =>
      obtain ⟨d, -, stored⟩ := Option.bind_eq_some_iff.mp done
      obtain ⟨ring, -, rfl⟩ := Option.map_eq_some_iff.mp stored
      cases outcome with
      | none => exact .none (Or.inr ⟨rfl, rfl⟩)
      | some v => exact .acquire rfl
  | freeIrq =>
      simp only [exec] at done
      split at done
      · cases done; exact .release rfl
      · cases done; exact .stray nofun
  | dmaUnmapSingle i =>
      obtain ⟨d, -, rest⟩ := Option.bind_eq_some_iff.mp done
      obtain ⟨info, -, rfl⟩ := Option.map_eq_some_iff.mp rest
      dsimp only
      split
      · exact .none (Or.inl rfl)
      · exact .release rfl
  | kfreeData i =>
      obtain ⟨d, -, rest⟩ := Option.bind_eq_some_iff.mp done
      obtain ⟨info, -, rfl⟩ := Option.map_eq_some_iff.mp rest
      dsimp only
      split
      · exact .release rfl
      · exact .none (Or.inl rfl)
  | dmaFreeCoherent =>
      obtain ⟨d, -, rfl⟩ := Option.map_eq_some_iff.mp done
      split
      · exact .release rfl
      · exact .none (Or.inl rfl)
  | kfreeBufferInfo =>
      obtain ⟨d, -, rfl⟩ := Option.map_eq_some_iff.mp done
      dsimp only [World.setRing]
      split
      · exact .release rfl
      · exact .none (Or.inl rfl)
  | setBufferAddr i =>
      obtain ⟨d, -, rest⟩ := Option.bind_eq_some_iff.mp done
      split at rest
      · cases rest; exact .none (Or.inl rfl)
      · cases rest
  | writelRdbah | writelRdbal | writelRdlen =>
      obtain ⟨d, -, rest⟩ := Option.bind_eq_some_iff.mp done
      obtain ⟨_, -, rfl⟩ := Option.map_eq_some_iff.mp rest
      exact .none (Or.inl rfl)
  | readl | writel | writelCtrl | initWork | setCount =>
      obtain ⟨_, -, rfl⟩ := Option.map_eq_some_iff.mp done
      exact .none (Or.inl rfl)

/-! ## One operation -/

namespace Entry

variable {pdev : PciDev} {outcome : Option (BitVec 64)} {op : Op}
  {l l' : Ledger (PciDev × Resource)}

/-- What the operation does not release is held as often as before. -/
theorem held_le (entry : Entry pdev outcome op l l') {r : Resource} (keeps : op.releases ≠ some r)
    (d : PciDev) : l.held (d, r) ≤ l'.held (d, r) := by
  cases entry with
  | none => exact le_rfl
  | acquire => exact Ledger.le_acquire_held _ _ _
  | @release d' q drops =>
      have other : (d, r) ≠ (d', q) := by
        intro same
        cases same
        exact keeps drops
      rw [Ledger.release_held_of_ne l other]
  | stray => exact le_rfl

/-- What the operation neither acquires nor releases is held as often as
before. -/
theorem held_eq (entry : Entry pdev outcome op l l') {r : Resource} (getsNot : op.acquires ≠ some r)
    (keeps : op.releases ≠ some r) (d : PciDev) : l'.held (d, r) = l.held (d, r) := by
  cases entry with
  | none => rfl
  | @acquire q gets =>
      refine Ledger.acquire_held_of_ne l ?_
      intro same
      cases same
      exact getsNot gets
  | @release d' q drops =>
      refine Ledger.release_held_of_ne l ?_
      intro same
      cases same
      exact keeps drops
  | stray => rfl

theorem released_eq (entry : Entry pdev outcome op l l') {r : Resource}
    (keeps : op.releases ≠ some r) (d : PciDev) : l'.released (d, r) = l.released (d, r) := by
  cases entry with
  | none => rfl
  | acquire => rfl
  | @release d' q drops =>
      have other : (d, r) ≠ (d', q) := by
        intro same
        cases same
        exact keeps drops
      exact Ledger.release_released_of_ne l other
  | stray => rfl

theorem stray_eq (entry : Entry pdev outcome op l l') (keeps : op.releases = .none) :
    l'.stray = l.stray := by
  cases entry with
  | none => rfl
  | acquire => rfl
  | release drops => rw [keeps] at drops; cases drops
  | stray drops => exact (drops keeps).elim

/-- An operation that does not fail leaves its device with what it acquires. -/
theorem held_pos (entry : Entry pdev outcome op l l') {r : Resource} (gets : op.acquires = some r)
    (keeps : op.releases = .none) (succeeds : op.fallible = true → outcome.isSome = true) :
    0 < l'.held (pdev, r) := by
  cases entry with
  | none idle =>
      rcases idle with nothing | ⟨fallible, failed⟩
      · rw [gets] at nothing
        cases nothing
      · have came := succeeds fallible
        rw [failed] at came
        cases came
  | acquire gets' =>
      cases gets.symm.trans gets'
      rw [Ledger.acquire_held_self]
      exact Nat.succ_pos _
  | release drops => rw [keeps] at drops; cases drops
  | stray drops => exact (drops keeps).elim

end Entry

/-! ## Whole functions -/

section Functions

variable {pdev : PciDev} {outcome : Op → Option (BitVec 64)} {ops : List Op} {w w' : World}

/-- What a list of operations does not release is held as often as before. -/
theorem execute_held_le {r : Resource} (keeps : ∀ op ∈ ops, op.releases ≠ some r)
    (done : execute pdev outcome ops w = some w') (d : PciDev) :
    w.ledger.held (d, r) ≤ w'.ledger.held (d, r) := by
  induction ops generalizing w with
  | nil => cases done; exact le_rfl
  | cons op rest ih =>
      obtain ⟨w₁, first, later⟩ := Option.bind_eq_some_iff.mp done
      have before := (Op.exec_entry first).held_le (keeps op (List.mem_cons_self ..)) d
      exact before.trans (ih (fun op member => keeps op (List.mem_cons_of_mem _ member)) later)

theorem execute_released_eq {r : Resource} (keeps : ∀ op ∈ ops, op.releases ≠ some r)
    (done : execute pdev outcome ops w = some w') (d : PciDev) :
    w'.ledger.released (d, r) = w.ledger.released (d, r) := by
  induction ops generalizing w with
  | nil => cases done; rfl
  | cons op rest ih =>
      obtain ⟨w₁, first, later⟩ := Option.bind_eq_some_iff.mp done
      have before := (Op.exec_entry first).released_eq (keeps op (List.mem_cons_self ..)) d
      exact (ih (fun op member => keeps op (List.mem_cons_of_mem _ member)) later).trans before

/-- What neither the function nor a label it may go to releases is held as often
as before. -/
theorem call_held_le {r : Resource} {ret : Int} (keeps : ∀ op ∈ ops, op.releases ≠ some r)
    (labels : ∀ op ∈ ops, ∀ label, op.exit = some label → ∀ op ∈ label, op.releases ≠ some r)
    (done : call pdev outcome ops w = some (w', ret)) (d : PciDev) :
    w.ledger.held (d, r) ≤ w'.ledger.held (d, r) := by
  induction ops generalizing w with
  | nil => cases done; exact le_rfl
  | cons op rest ih =>
      obtain ⟨w₁, first, later⟩ := Option.bind_eq_some_iff.mp done
      have before := (Op.exec_entry first).held_le (keeps op (List.mem_cons_self ..)) d
      refine before.trans ?_
      split at later
      · rename_i label left
        obtain ⟨w₂, finished, same⟩ := Option.map_eq_some_iff.mp later
        cases same
        have exits : op.exit = some label := by
          split at left
          · cases left
          · exact left
        exact execute_held_le (labels op (List.mem_cons_self ..) label exits) finished d
      · exact ih (fun op member => keeps op (List.mem_cons_of_mem _ member))
          (fun op member => labels op (List.mem_cons_of_mem _ member)) later

/-- A function in which nothing fails and that releases nothing returns 0 and
leaves its device with all that it acquires. -/
theorem call_of_succeeds {ret : Int} (keeps : ∀ op ∈ ops, op.releases = none)
    (succeeds : ∀ op ∈ ops, op.fallible = true → (outcome op).isSome = true)
    (done : call pdev outcome ops w = some (w', ret)) :
    ret = 0 ∧ w'.ledger.stray = w.ledger.stray ∧
      (∀ q, w.ledger.held q ≤ w'.ledger.held q) ∧
      ∀ op ∈ ops, ∀ r, op.acquires = some r → 0 < w'.ledger.held (pdev, r) := by
  induction ops generalizing w with
  | nil =>
      cases done
      exact ⟨rfl, rfl, fun _ => le_rfl, fun _ member => (List.not_mem_nil member).elim⟩
  | cons op rest ih =>
      obtain ⟨w₁, first, later⟩ := Option.bind_eq_some_iff.mp done
      have entry := Op.exec_entry first
      have quiet := keeps op (List.mem_cons_self ..)
      have came := succeeds op (List.mem_cons_self ..)
      have stays : (if (outcome op).isSome then none else op.exit) = none := by
        split
        · rfl
        · rename_i failed
          cases op <;> first | rfl | exact (failed (came rfl)).elim
      rw [stays] at later
      obtain ⟨ret, stray, held, acquired⟩ := ih
        (fun op member => keeps op (List.mem_cons_of_mem _ member))
        (fun op member => succeeds op (List.mem_cons_of_mem _ member)) later
      refine ⟨ret, stray.trans (entry.stray_eq quiet), fun q => ?_, ?_⟩
      · have before := entry.held_le (r := q.2) (by rw [quiet]; exact nofun) q.1
        exact before.trans (held q)
      · intro op' member r gets
        rcases List.mem_cons.mp member with rfl | member
        · exact (entry.held_pos gets quiet came).trans_le (held _)
        · exact acquired op' member r gets

end Functions

/-! ## The driver -/

theorem probe_releases : ∀ op ∈ pciBlinkDriverProbe, op.releases = none := by decide

theorem probe_exits : ∀ op ∈ pciBlinkDriverProbe, ∀ label, op.exit = some label →
    ∀ op ∈ label, op.releases ≠ some .enabled := by
  intro op _ label exits
  cases op with
  | pciRequestSelectedRegions => cases exits; decide
  | ioremap => cases exits; decide
  | _ => cases exits

/-- The probe acquires every resource. -/
theorem probe_acquires (r : Resource) : ∃ op ∈ pciBlinkDriverProbe, op.acquires = some r := by
  cases r with
  | buffer i => exact ⟨.kzallocBuffer i, by revert i; decide, rfl⟩
  | dmaMap i => exact ⟨.dmaMapSingle i, by revert i; decide, rfl⟩
  | enabled => exact ⟨.pciEnableDevice, by decide, rfl⟩
  | regions => exact ⟨.pciRequestSelectedRegions, by decide, rfl⟩
  | mapping => exact ⟨.ioremap, by decide, rfl⟩
  | testWq => exact ⟨.kmallocTestWq, by decide, rfl⟩
  | rxRing => exact ⟨.kzallocRxRing, by decide, rfl⟩
  | bufferInfo => exact ⟨.kcallocBufferInfo, by decide, rfl⟩
  | coherent => exact ⟨.dmaAllocCoherent, by decide, rfl⟩
  | irq => exact ⟨.requestIrq, by decide, rfl⟩

/-- However a probe ends, its device is enabled. -/
theorem probe_enabled {pdev : PciDev} {outcome : Op → Option (BitVec 64)} {w w' : World}
    {ret : Int} (done : call pdev outcome pciBlinkDriverProbe w = some (w', ret)) :
    0 < w'.ledger.held (pdev, .enabled) := by
  have rest : call pdev outcome pciBlinkDriverProbe.tail (w.acquire pdev .enabled) =
      some (w', ret) := by
    have stays : (if (outcome .pciEnableDevice).isSome then none else Op.pciEnableDevice.exit) =
        none := ite_self _
    rw [pciBlinkDriverProbe, List.cons_append, call, Op.exec, Option.bind_some, stays] at done
    exact done
  have acquired : 0 < (w.acquire pdev .enabled).ledger.held (pdev, .enabled) := by
    rw [World.acquire, Ledger.acquire_held_self]
    exact Nat.succ_pos _
  refine acquired.trans_le (call_held_le (fun op member => ?_) (fun op member => ?_) rest pdev)
  · rw [probe_releases op (List.mem_of_mem_tail member)]
    exact nofun
  · exact probe_exits op (List.mem_of_mem_tail member)

/-- The memory behind `test_wq` is not released by a remove. -/
theorem not_removeOk (s : Devices) (pdev : PciDev) : ¬ RemoveOk s pdev := by
  intro ok
  rcases ok with ⟨w, done, released, -⟩
  have same := execute_released_eq (r := .testWq) (by decide) done pdev
  have once := (released .testWq).1
  omega

/-- A call is in order exactly when it is a probe in which nothing fails. -/
theorem callOk_iff (s : Devices) (c : PciCall) : CallOk s c ↔ CleanProbe s c := by
  cases c with
  | probe pdev outcome =>
      constructor
      · intro ok
        by_contra failed
        obtain ⟨w, ret, done, -, nothing⟩ := ok.fails failed
        have enabled := probe_enabled done
        rw [nothing .enabled] at enabled
        exact absurd enabled (lt_irrefl 0)
      · intro succeeds
        refine ⟨fun w done r => ?_, fun failed => (failed succeeds).elim, fun w ret done => ?_⟩
        · obtain ⟨op, member, gets⟩ := probe_acquires r
          exact (call_of_succeeds probe_releases succeeds done).2.2.2 op member r gets
        · exact (call_of_succeeds probe_releases succeeds done).2.1
  | remove pdev => exact ⟨fun ok => (not_removeOk s pdev ok).elim, False.elim⟩

/-- **Probe and remove do not balance.** A sequence of probe and remove calls is
in order exactly when it has no remove and nothing fails in its probes. -/
theorem balanced_iff {t : Devices} {trace : List (Devices × PciCall)}
    (_ : Run pciStep .boot trace t) :
    (∀ p ∈ trace, CallOk p.1 p.2) ↔ Meets CleanProbe trace :=
  forall₂_congr fun p _ => callOk_iff p.1 p.2

/-- Every call a probe makes succeeds. -/
def success : Op → Option (BitVec 64) := fun _ => some 1

/-- Two devices are probed without a failure. -/
theorem balanced_two_probes :
    ∃ t trace, Run pciStep .boot trace t ∧ t.bound 0 = true ∧ t.bound 1 = true ∧
      ∀ p ∈ trace, CallOk p.1 p.2 := by
  obtain ⟨t, trace, run, labels, first, second⟩ := Run.of_exec_any pciStep .boot
    [.probe 0 success, .probe 1 success]
    (fun t => t.bound 0 = true ∧ t.bound 1 = true) (by decide +kernel)
  refine ⟨t, trace, run, first, second, (balanced_iff run).mpr ?_⟩
  intro entry member
  rcases entry with ⟨s, c⟩
  have called := List.mem_map_of_mem (f := Prod.snd) member
  simp only [labels, List.mem_cons, List.not_mem_nil, or_false] at called
  rcases called with rfl | rfl
  · exact fun _ _ _ => rfl
  · exact fun _ _ _ => rfl

/-- One device is probed without a failure and removed: `test_wq` and the ring
record stay allocated. -/
theorem remove_leaks :
    ∃ t trace, Run pciStep .boot trace t ∧ t.dead = false ∧
      t.world.ledger.held (0, .testWq) = 1 ∧ t.world.ledger.held (0, .rxRing) = 1 ∧
      ¬ ∀ p ∈ trace, CallOk p.1 p.2 := by
  obtain ⟨t, trace, run, labels, alive, wq, ring⟩ := Run.of_exec_any pciStep .boot
    [.probe 0 success, .remove 0]
    (fun t => t.dead = false ∧ t.world.ledger.held (0, .testWq) = 1 ∧
      t.world.ledger.held (0, .rxRing) = 1) (by decide +kernel)
  refine ⟨t, trace, run, alive, wq, ring, fun ok => ?_⟩
  have removed : PciCall.remove 0 ∈ trace.map Prod.snd := by simp [labels]
  obtain ⟨⟨s, c⟩, member, rfl⟩ := List.mem_map.mp removed
  exact not_removeOk s 0 (ok _ member)

end BlinkDriver.Hw6
