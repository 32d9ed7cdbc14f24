import BlinkDriver.Hw5.Teardown
import BlinkDriver.Lib.Account
import BlinkDriver.Lib.Ledger

/-!
# The regions and the mapping of the device

`pci_blinkDriver_probe` requests the regions of the device and maps the first;
`pci_blinkDriver_remove` gives both back. A probe whose request fails goes to a label
that releases the regions all the same. One whose `ioremap` fails goes to a label that
unmaps `NULL`, which is nothing.

`resources_accounted` keeps the books over whole runs of the driver: whenever the
device is unbound nothing is held, and there have been exactly as many releases of what
was not held as requests that failed.
-/

namespace BlinkDriver.Hw5

open Transition

inductive Resource where
  | regions
  | mapping
  deriving DecidableEq

/-- What `iounmap(myPci.hw_addr)` releases: nothing if the address is `NULL`. -/
def iounmap (g : Globals) (b : Ledger Resource) : Ledger Resource :=
  if g.hwAddr = .null then b else b.release .mapping

/-- What a statement of `pci_blinkDriver_probe` acquires or releases. -/
def probeBooks (ok : Bool) (g : Globals) (b : Ledger Resource) : ProbePc → Ledger Resource
  | .request => if ok then b.acquire .regions else b
  | .map => if ok then b.acquire .mapping else b
  | .readLed => b
  | .unmap => iounmap g b
  | .release => b.release .regions

/-- What a statement of `pci_blinkDriver_remove` releases. -/
def removeBooks (g : Globals) (b : Ledger Resource) : RemovePc → Ledger Resource
  | .unmap => iounmap g b
  | .release => b.release .regions

/-- The ledger after a step. -/
def books (s : State) (l : Label) (b : Ledger Resource) : Ledger Resource :=
  match l, s.pci with
  | .probeStep ok, .probing pc => probeBooks ok s.g b pc
  | .removeStep, .removing pc => removeBooks s.g b pc
  | _, _ => b

/-- A request for the regions fails with the step. -/
def failed (s : State) : Label → Nat
  | .probeStep false => if s.pci = .probing .request then 1 else 0
  | _ => 0

/-! ## The address after a failed `ioremap` -/

/-- `hw_addr` is `NULL` on the way through the label `unregister_ioremap`. -/
def NullWhile (s : State) : Prop := s.pci = .probing .unmap → s.g.hwAddr = .null

theorem nullWhile_probe (ok : Bool) (g : Globals) (pc : ProbePc) :
    (probe ok g pc).2 = .probing .unmap → (probe ok g pc).1.hwAddr = .null := by
  cases pc with
  | request => cases ok <;> exact nofun
  | map =>
      cases ok with
      | false => exact fun _ => rfl
      | true => exact nofun
  | _ => exact nofun

theorem NullWhile.step {s t : State} {l : Label} (inv : NullWhile s)
    (unloaded : s.phase = .unloaded → s.pci = .unbound) (moved : Step s l t) : NullWhile t := by
  unfold NullWhile at inv ⊢
  cases moved with
  | load phase => exact fun unmaps => absurd ((unloaded phase).symm.trans unmaps) nofun
  | probe | unbind => exact nofun
  | @probeStep ok pc => exact nullWhile_probe ok s.g pc
  | @removeStep pc => cases pc <;> exact nofun
  | move _ statement => rw [statement.hwAddr]; exact inv
  | callback => rw [myCallback_hwAddr]; exact inv
  | exitStep statement =>
      cases statement with
      | remove => exact nofun
      | _ => exact inv
  | _ => exact inv

/-! ## What is held when -/

/-- The ledger while the PCI core is there. The last label of a probe is reached with
the regions and without them. -/
def Pci.Holds (b : Ledger Resource) : Pci → Prop
  | .unbound | .probing .request => b.held .regions = 0 ∧ b.held .mapping = 0
  | .probing .map | .probing .unmap | .removing .release =>
      b.held .regions = 1 ∧ b.held .mapping = 0
  | .probing .readLed | .bound | .removing .unmap => b.held .regions = 1 ∧ b.held .mapping = 1
  | .probing .release => b.held .regions ≤ 1 ∧ b.held .mapping = 0

/-- A failed request that the probe has not yet answered by a release too many. -/
def Pci.owed (b : Ledger Resource) : Pci → Nat
  | .probing .release => if b.held .regions = 0 then 1 else 0
  | _ => 0

theorem Pci.Holds.mapping {b : Ledger Resource} {pci : Pci} (holds : pci.Holds b) :
    0 < b.held .mapping ↔ pci.maps = true := by
  cases pci with
  | probing pc | removing pc => cases pc <;> simp [Pci.Holds, Pci.maps] at holds ⊢ <;> omega
  | _ => simp [Pci.Holds, Pci.maps] at holds ⊢; omega

/-- A statement of a probe keeps the books, and a request that fails is owed for. -/
theorem Pci.Holds.probe {b : Ledger Resource} {pc : ProbePc} (holds : (Pci.probing pc).Holds b)
    (ok : Bool) {g : Globals} (null : pc = .unmap → g.hwAddr = .null) :
    (Hw5.probe ok g pc).2.Holds (probeBooks ok g b pc) ∧
      (probeBooks ok g b pc).stray + (Hw5.probe ok g pc).2.owed (probeBooks ok g b pc) =
        b.stray + (Pci.probing pc).owed b +
          (if ok = false ∧ pc = .request then 1 else 0) := by
  cases pc with
  | request =>
      rcases holds with ⟨regions, mapping⟩
      cases ok <;>
        simp [Hw5.probe, probeBooks, Pci.Holds, Pci.owed, Ledger.acquire_held, regions, mapping]
  | map =>
      rcases holds with ⟨regions, mapping⟩
      cases ok <;>
        simp [Hw5.probe, probeBooks, Pci.Holds, Pci.owed, Ledger.acquire_held, regions, mapping]
  | readLed => exact ⟨holds, by simp [Hw5.probe, probeBooks, Pci.owed]⟩
  | unmap =>
      rcases holds with ⟨regions, mapping⟩
      have nothing : probeBooks ok g b .unmap = b := if_pos (null rfl)
      rw [nothing]
      simp [Hw5.probe, Pci.Holds, Pci.owed, regions, mapping]
  | release =>
      rcases holds with ⟨regions, mapping⟩
      rcases Nat.le_one_iff_eq_zero_or_eq_one.mp regions with none | one
      · simp [Hw5.probe, probeBooks, Pci.Holds, Pci.owed, Ledger.release_held,
          Ledger.release_stray, none, mapping]
      · simp [Hw5.probe, probeBooks, Pci.Holds, Pci.owed, Ledger.release_held,
          Ledger.release_stray, one, mapping]

/-- A statement of a removal releases what is held. -/
theorem Pci.Holds.remove {b : Ledger Resource} {pc : RemovePc}
    (holds : (Pci.removing pc).Holds b) {g : Globals}
    (mapped : pc = .unmap → g.hwAddr = .mapped) :
    (Hw5.remove g pc).2.Holds (removeBooks g b pc) ∧
      (removeBooks g b pc).stray + (Hw5.remove g pc).2.owed (removeBooks g b pc) = b.stray := by
  cases pc with
  | unmap =>
      rcases holds with ⟨regions, mapping⟩
      have released : removeBooks g b .unmap = b.release .mapping := by
        rw [removeBooks, iounmap, mapped rfl, if_neg (by decide)]
      rw [released]
      simp [Hw5.remove, Pci.Holds, Pci.owed, Ledger.release_held, Ledger.release_stray, regions,
        mapping]
  | release =>
      rcases holds with ⟨regions, mapping⟩
      simp [Hw5.remove, removeBooks, Pci.Holds, Pci.owed, Ledger.release_held,
        Ledger.release_stray, regions, mapping]

/-! ## Whole runs -/

/-- The driver and its ledger: `n` requests of probes have failed. -/
structure Accounted (s : State) (b : Ledger Resource) (n : Nat) : Prop where
  unbound : s.phase.registered = false → s.pci = .unbound
  mapped : MappedWhile s
  null : NullWhile s
  holds : s.pci.Holds b
  strays : b.stray + s.pci.owed b = n

/-- A step in which the PCI core does nothing to the device. -/
theorem Accounted.frame {s t : State} {b : Ledger Resource} {n : Nat} (kept : Accounted s b n)
    (mapped : MappedWhile t) (null : NullWhile t) (pci : t.pci = s.pci)
    (registered : t.phase.registered = false → s.pci = .unbound) : Accounted t b n where
  unbound gone := pci.trans (registered gone)
  mapped := mapped
  null := null
  holds := by rw [pci]; exact kept.holds
  strays := by rw [pci]; exact kept.strays

/-- The PCI core turns to the device or away from it. -/
theorem Accounted.turn {s t : State} {b : Ledger Resource} {n : Nat} (kept : Accounted s b n)
    (mapped : MappedWhile t) (null : NullWhile t) (registered : t.phase.registered = true)
    (holds : s.pci.Holds b → t.pci.Holds b) (owed : t.pci.owed b = s.pci.owed b) :
    Accounted t b n where
  unbound gone := absurd (registered.symm.trans gone) nofun
  mapped := mapped
  null := null
  holds := holds kept.holds
  strays := by rw [owed]; exact kept.strays

theorem Accounted.step {s t : State} {l : Label} {b : Ledger Resource} {n : Nat}
    (kept : Accounted s b n) (moved : Step s l t) :
    Accounted t (books s l b) (n + failed s l) := by
  have unloaded (phase : s.phase = .unloaded) : s.pci = .unbound :=
    kept.unbound (by rw [phase]; rfl)
  have mapped := kept.mapped.step unloaded moved
  have null := kept.null.step unloaded moved
  cases moved with
  | load phase => exact kept.frame mapped null rfl fun _ => unloaded phase
  | probe registered pci =>
      refine kept.turn mapped null registered (fun holds => ?_) (by rw [pci]; rfl)
      rw [pci] at holds
      exact holds
  | @probeStep ok pc pci =>
      have holds := kept.holds
      rw [pci] at holds
      rcases holds.probe ok (fun unmaps => kept.null (unmaps ▸ pci)) with ⟨held, settled⟩
      have books : books s (.probeStep ok) b = probeBooks ok s.g b pc := by
        simp only [Hw5.books, pci]
      have fails : failed s (.probeStep ok) = if ok = false ∧ pc = .request then 1 else 0 := by
        cases ok <;> simp [failed, pci]
      refine ⟨fun gone => absurd (pci.symm.trans (kept.unbound gone)) nofun, mapped, null, ?_, ?_⟩
      · rw [books]
        exact held
      · rw [books, fails, ← kept.strays, pci]
        exact settled
  | unbind registered pci =>
      refine kept.turn mapped null registered (fun holds => ?_) (by rw [pci]; rfl)
      rw [pci] at holds
      exact holds
  | @removeStep pc pci =>
      have holds := kept.holds
      rw [pci] at holds
      have live (unmaps : pc = .unmap) : s.g.hwAddr = .mapped :=
        kept.mapped.mpr (by rw [pci, unmaps]; rfl)
      rcases holds.remove live with ⟨held, settled⟩
      have books : books s .removeStep b = removeBooks s.g b pc := by
        simp only [Hw5.books, pci]
      refine ⟨fun gone => absurd (pci.symm.trans (kept.unbound gone)) nofun, mapped, null, ?_, ?_⟩
      · rw [books]
        exact held
      · rw [books, ← kept.strays, pci]
        exact settled
  | exitStep statement =>
      cases statement with
      | remove phase pci =>
          refine kept.turn mapped null (by rw [phase]; rfl) (fun holds => ?_) (by rw [pci]; rfl)
          rw [pci] at holds
          exact holds
      | delTimer phase => exact kept.frame mapped null rfl nofun
      | unregister phase pci => exact kept.frame mapped null rfl fun _ => pci
      | cleanup phase =>
          exact kept.frame mapped null rfl fun _ => kept.unbound (by rw [phase]; rfl)
  | exit => exact kept.frame mapped null rfl nofun
  | _ => exact kept.frame mapped null rfl kept.unbound

theorem accounted_of_run {ledctl : BitVec 32} {t : State} {trace : List (State × Label)}
    (run : Run step (.off ledctl) trace t) :
    Accounted t (history books .empty trace) (total failed trace) := by
  induction run with
  | refl => exact ⟨fun _ => rfl, ⟨nofun, nofun⟩, nofun, ⟨rfl, rfl⟩, rfl⟩
  | snoc front edge ih =>
      rw [history_snoc, total_append, total_singleton]
      exact ih.step (.of_step edge)

/-- **The books of the device.** In every run over any order of loads, probes, calls,
expiries, unbinds and exits a mapping is held exactly while `hw_addr` is a live one. And
whenever the device is unbound, as it is while the module is not loaded, nothing is
held, and there have been as many releases of what was not held as requests for the
regions that failed. -/
theorem resources_accounted {ledctl : BitVec 32} {t : State} {trace : List (State × Label)}
    (run : Run step (.off ledctl) trace t) :
    (0 < (history books .empty trace).held .mapping ↔ t.g.hwAddr = .mapped) ∧
      (t.phase = .unloaded → t.pci = .unbound) ∧
      (t.pci = .unbound → (history books .empty trace).Empty ∧
        (history books .empty trace).stray = total failed trace) := by
  have kept := accounted_of_run run
  refine ⟨kept.holds.mapping.trans kept.mapped.symm,
    fun phase => kept.unbound (by rw [phase]; rfl), fun pci => ?_⟩
  have holds := kept.holds
  have strays := kept.strays
  rw [pci] at holds strays
  refine ⟨fun resource => ?_, strays⟩
  cases resource with
  | regions => exact holds.1
  | mapping => exact holds.2

/-- A probe whose request fails, one whose `ioremap` fails, one that succeeds, and an
exit. -/
theorem resources_accounted_three_probes :
    ∃ t trace, Run step (.off 0x800000) trace t ∧ t.phase = .unloaded ∧
      (history books .empty trace).Empty ∧ (history books .empty trace).stray = 1 := by
  rcases Run.of_exec_any (observe books step) (.off 0x800000, .empty)
    ([.load 2, .probe, .probeStep false, .probeStep true, .probe, .probeStep true,
        .probeStep false, .probeStep true, .probeStep true] ++
      bringUp.tail ++ opened 0 ++ .close 0 :: takenDown)
    (fun u => u.1.phase = .unloaded ∧ u.2.stray = 1) (by decide +kernel) with
    ⟨⟨t, b⟩, _, run, -, phase, strays⟩
  rcases run.of_observe with ⟨trace, run, past⟩
  rcases resources_accounted run with ⟨-, away, free⟩
  exact ⟨t, trace, run, phase, (free (away phase)).1, past ▸ strays⟩

end BlinkDriver.Hw5
