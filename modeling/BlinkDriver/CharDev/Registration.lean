import BlinkDriver.Lib.Ledger
import BlinkDriver.Lib.Transition

/-!
# Loading and unloading the modules

`blinkDriver_init` and `example5_exit` of HW3, HW5 and HW6, with a ledger of what
they have registered. An init that fails should leave nothing registered, one
that succeeds everything, and an exit nothing; and nothing should be
unregistered, deleted or destroyed that is not there (`Balanced`).

The inits undo the first two steps. After those they either stop at labels that
leave the region and the cdev behind, or they do not notice a failure, because
they compare an error pointer with `NULL`. `registrations_balance_iff` says that
a sequence of loads and unloads is balanced exactly if no load fails after its
first two steps, and, in HW6, no unload finds `test_wq` unset.
-/

namespace BlinkDriver.Registration

open Transition

inductive Item where
  | region
  | cdev
  | pciDriver
  | devClass
  | devNode
  deriving DecidableEq

/-- What `class_create` and `device_create` return. They report a failure by an
error pointer, which is not null. -/
inductive Ptr where
  | null
  | valid
  | error
  deriving DecidableEq

/-- Whether the calls of `blinkDriver_init` succeed. -/
structure Outcomes where
  allocChrdevRegion : Bool
  cdevAdd : Bool
  pciRegisterDriver : Bool
  classCreate : Bool
  deviceCreate : Bool

/-- The ledger, `mydev.myClass`, and whether `test_wq` is set. -/
structure Registry where
  ledger : Ledger Item
  myClass : Ptr
  testWq : Bool

namespace Registry

variable (r : Registry)

def acquire (i : Item) : Registry := { r with ledger := r.ledger.acquire i }

def release (i : Item) : Registry := { r with ledger := r.ledger.release i }

/-- A release of something that is none of the items. -/
def stray : Registry := { r with ledger := { r.ledger with stray := r.ledger.stray + 1 } }

/-- The globals of a module that was just loaded. -/
def fresh : Registry := { r with myClass := .null, testWq := false }

end Registry

/-! ## The calls on the class and the node -/

def classCreate (succeeds : Bool) (r : Registry) : Registry × Ptr :=
  if succeeds then (r.acquire .devClass, .valid) else (r, .error)

/-- `device_create`, which fails for what is not a class. -/
def deviceCreate (cls : Ptr) (succeeds : Bool) (r : Registry) : Registry × Ptr :=
  if cls = .valid ∧ succeeds = true then (r.acquire .devNode, .valid) else (r, .error)

def deviceDestroy (cls : Ptr) (r : Registry) : Registry :=
  if cls = .valid then r.release .devNode else r.stray

def classDestroy (cls : Ptr) (r : Registry) : Registry :=
  if cls = .valid then r.release .devClass else r.stray

/-! ## The modules -/

/-- How `blinkDriver_init` begins in the three modules. -/
def registerCdev (o : Outcomes) (rest : Registry → Registry × Int) (r : Registry) :
    Registry × Int :=
  if o.allocChrdevRegion then
    let r := r.acquire .region
    if o.cdevAdd then rest (r.acquire .cdev) else (r.release .region, -1)
  else (r, -1)

/-- The label `destroy_class`. -/
def destroyClass (r : Registry) : Registry × Int := (classDestroy r.myClass r, -1)

/-- The label `unreg_dev_create`, which runs into `destroy_class`. -/
def unregDevCreate (r : Registry) : Registry × Int :=
  destroyClass (deviceDestroy r.myClass r)

/-- How `blinkDriver_init` goes on in HW5 and HW6, with the label
`unreg_pci_driver` of either. -/
def registerNode (unregPciDriver : Registry → Registry × Int) (o : Outcomes) (r : Registry) :
    Registry × Int :=
  if o.pciRegisterDriver then
    let cls := classCreate o.classCreate (r.acquire .pciDriver)
    let r : Registry := { cls.1 with myClass := cls.2 }
    -- neither comparison with NULL ever succeeds
    if r.myClass = .null then destroyClass r
    else
      let node := deviceCreate r.myClass o.deviceCreate r
      if node.2 = .null then unregDevCreate node.1 else (node.1, 0)
  else unregPciDriver r

/-- What the three exits release in the same order. -/
def unregisterCdev (r : Registry) : Registry :=
  ((r.release .pciDriver).release .cdev).release .region

/-- How `example5_exit` ends in HW5 and HW6. -/
def unregisterNode (r : Registry) : Registry :=
  let r := deviceDestroy r.myClass (unregisterCdev r)
  classDestroy r.myClass r

namespace Hw3

/-- The label `unreg_pci_driver`. -/
def unregPciDriver (r : Registry) : Registry × Int := (r.release .pciDriver, -1)

/-- How `blinkDriver_init` goes on in HW3. -/
def registerDriver (o : Outcomes) (r : Registry) : Registry × Int :=
  if o.pciRegisterDriver then (r.acquire .pciDriver, 0) else unregPciDriver r

def blinkDriverInit (o : Outcomes) : Registry → Registry × Int :=
  registerCdev o (registerDriver o)

def example5Exit (r : Registry) : Option Registry := some (unregisterCdev r)

end Hw3

namespace Hw5

/-- The label `unreg_pci_driver`, which returns. -/
def unregPciDriver (r : Registry) : Registry × Int := (r.release .pciDriver, -1)

def blinkDriverInit (o : Outcomes) : Registry → Registry × Int :=
  registerCdev o (registerNode unregPciDriver o)

/-- `example5_exit` after its `del_timer`, which registers nothing. -/
def example5Exit (r : Registry) : Option Registry := some (unregisterNode r)

end Hw5

namespace Hw6

/-- The label `unreg_pci_driver`, whose `return` is commented out. -/
def unregPciDriver (r : Registry) : Registry × Int := unregDevCreate (r.release .pciDriver)

def blinkDriverInit (o : Outcomes) : Registry → Registry × Int :=
  registerCdev o (registerNode unregPciDriver o)

/-- `example5_exit` begins with `cancel_work_sync(&test_wq->real_work)`, which has
no result if `test_wq` is null. -/
def example5Exit (r : Registry) : Option Registry :=
  if r.testWq then some (unregisterNode r) else none

end Hw6

inductive Variant where
  | hw3
  | hw5
  | hw6
  deriving DecidableEq

namespace Variant

/-- What the module registers. -/
def items : Variant → List Item
  | hw3 => [.region, .cdev, .pciDriver]
  | hw5 | hw6 => [.region, .cdev, .pciDriver, .devClass, .devNode]

def init : Variant → Outcomes → Registry → Registry × Int
  | hw3 => Hw3.blinkDriverInit
  | hw5 => Hw5.blinkDriverInit
  | hw6 => Hw6.blinkDriverInit

def exit : Variant → Registry → Option Registry
  | hw3 => Hw3.example5Exit
  | hw5 => Hw5.example5Exit
  | hw6 => Hw6.example5Exit

/-- Every call of the init after `cdev_add` succeeds. -/
def complete (o : Outcomes) : Variant → Bool
  | hw3 => o.pciRegisterDriver
  | hw5 | hw6 => o.pciRegisterDriver && o.classCreate && o.deviceCreate

/-- The exit can run: HW6 has allocated `test_wq`. -/
def ready (r : Registry) : Variant → Bool
  | hw3 | hw5 => true
  | hw6 => r.testWq

end Variant

/-! ## Loads and unloads -/

/-- `going` is a module whose exit has crashed: it is neither loaded nor unloaded
any more. -/
inductive Phase where
  | unloaded
  | live
  | going
  deriving DecidableEq

structure Module where
  phase : Phase
  registry : Registry

/-- Before the first load. -/
def Module.boot : Module := ⟨.unloaded, ⟨.empty, .null, false⟩⟩

/-- An attempt to load the module, with the outcomes of the calls of its init; a
probe that allocates `test_wq`; an attempt to unload the module. -/
inductive Event where
  | load (o : Outcomes)
  | probe
  | unload

/-- The kernel runs the init of a module that is not loaded, binds devices to a
module that is, and runs its exit. A module whose init fails is not loaded. -/
def step (v : Variant) (m : Module) : Event → Option Module
  | .load o =>
      if m.phase = .unloaded then
        let after := v.init o m.registry.fresh
        some ⟨if after.2 = 0 then .live else .unloaded, after.1⟩
      else some m
  | .probe => if m.phase = .live then some { m with registry.testWq := true } else none
  | .unload =>
      if m.phase = .live then
        match v.exit m.registry with
        | some r => some ⟨.unloaded, r⟩
        | none => some { m with phase := .going }
      else some m

/-- What an init should do: with 0 every item is held, otherwise none, and only
what is held is released. -/
structure InitOk (v : Variant) (before : Registry) (after : Registry × Int) : Prop where
  fails : after.2 ≠ 0 → after.1.ledger.Empty
  holds : after.2 = 0 → ∀ i ∈ v.items, 0 < after.1.ledger.held i
  proper : after.1.ledger.stray = before.ledger.stray

/-- What an exit should do: run to its end, leave nothing and release only what is
held. -/
def ExitOk (before : Registry) (after : Option Registry) : Prop :=
  ∃ r, after = some r ∧ r.ledger.Empty ∧ r.ledger.stray = before.ledger.stray

/-- Every init and every exit that runs does what it should. -/
def Balanced (v : Variant) (m : Module) : Event → Prop
  | .load o => m.phase = .unloaded → InitOk v m.registry.fresh (v.init o m.registry.fresh)
  | .probe => True
  | .unload => m.phase = .live → ExitOk m.registry (v.exit m.registry)

/-- No init fails after its first two steps, and no exit finds `test_wq` unset. -/
def Orderly (v : Variant) (m : Module) : Event → Prop
  | .load o => m.phase = .unloaded →
      o.allocChrdevRegion = false ∨ o.cdevAdd = false ∨ v.complete o = true
  | .probe => True
  | .unload => m.phase = .live → v.ready m.registry = true

/-! ## Init and exit -/

/-- Each item of the module is registered once, and nothing else. -/
structure Registered (v : Variant) (r : Registry) : Prop where
  held : ∀ i, r.ledger.held i = if i ∈ v.items then 1 else 0
  myClass : .devClass ∈ v.items → r.myClass = .valid

@[simp] theorem Registry.acquire_ledger (r : Registry) (i : Item) :
    (r.acquire i).ledger = r.ledger.acquire i := rfl

@[simp] theorem Registry.release_ledger (r : Registry) (i : Item) :
    (r.release i).ledger = r.ledger.release i := rfl

section Ladder

variable {v : Variant} {o : Outcomes} {r : Registry} {later : Registry → Registry × Int}

theorem registerCdev_no_region (region : o.allocChrdevRegion = false) :
    registerCdev o later r = (r, -1) := by
  simp [registerCdev, region]

theorem registerCdev_no_cdev (region : o.allocChrdevRegion = true) (cdev : o.cdevAdd = false) :
    registerCdev o later r = ((r.acquire .region).release .region, -1) := by
  simp [registerCdev, region, cdev]

theorem registerCdev_both (region : o.allocChrdevRegion = true) (cdev : o.cdevAdd = true) :
    registerCdev o later r = later ((r.acquire .region).acquire .cdev) := by
  simp [registerCdev, region, cdev]

@[simp] theorem deviceDestroy_region (cls : Ptr) (r : Registry) :
    (deviceDestroy cls r).ledger.held .region = r.ledger.held .region := by
  unfold deviceDestroy
  split
  · simp [Ledger.release_held]
  · rfl

@[simp] theorem classDestroy_region (cls : Ptr) (r : Registry) :
    (classDestroy cls r).ledger.held .region = r.ledger.held .region := by
  unfold classDestroy
  split
  · simp [Ledger.release_held]
  · rfl

/-- A failure of `class_create` or `device_create` is not noticed. -/
theorem registerNode_ret (pciDriver : o.pciRegisterDriver = true) :
    (registerNode later o r).2 = 0 := by
  unfold registerNode classCreate deviceCreate
  cases o.classCreate <;> cases o.deviceCreate <;> simp [pciDriver, Registry.acquire]

theorem registerNode_devNode (pciDriver : o.pciRegisterDriver = true)
    (missing : (o.classCreate && o.deviceCreate) = false) :
    (registerNode later o r).1.ledger.held .devNode = r.ledger.held .devNode := by
  unfold registerNode classCreate deviceCreate
  cases cls : o.classCreate with
  | false => simp [pciDriver, Ledger.acquire_held]
  | true =>
      have node : o.deviceCreate = false := by simpa [cls] using missing
      simp [pciDriver, node, Ledger.acquire_held]

theorem registerNode_complete (pciDriver : o.pciRegisterDriver = true)
    (cls : o.classCreate = true) (node : o.deviceCreate = true) :
    registerNode later o r =
      (({ (r.acquire .pciDriver).acquire .devClass with myClass := .valid } : Registry).acquire
        .devNode, 0) := by
  simp [registerNode, classCreate, deviceCreate, pciDriver, cls, node]

/-- How `blinkDriver_init` goes on after `cdev_add`. -/
def Variant.register (o : Outcomes) : Variant → Registry → Registry × Int
  | hw3 => Hw3.registerDriver o
  | hw5 => registerNode Hw5.unregPciDriver o
  | hw6 => registerNode Hw6.unregPciDriver o

theorem init_eq (v : Variant) (o : Outcomes) (r : Registry) :
    v.init o r = registerCdev o (v.register o) r := by
  cases v <;> rfl

/-- An init that fails in its first two steps leaves nothing. -/
theorem init_early (empty : r.ledger.Empty)
    (early : o.allocChrdevRegion = false ∨ o.cdevAdd = false) :
    (v.init o r).2 = -1 ∧ (v.init o r).1.ledger.Empty ∧
      (v.init o r).1.ledger.stray = r.ledger.stray := by
  rw [init_eq]
  cases region : o.allocChrdevRegion with
  | false =>
      rw [registerCdev_no_region region]
      exact ⟨rfl, empty, rfl⟩
  | true =>
      have cdev : o.cdevAdd = false := by simpa [region] using early
      rw [registerCdev_no_cdev region cdev]
      refine ⟨rfl, fun i => ?_, ?_⟩
      · simp [Ledger.release_acquire_held, empty i]
      · simp [Ledger.release_stray]

theorem register_complete (complete : v.complete o = true) :
    (v.register o r).2 = 0 ∧ (v.register o r).1.ledger.stray = r.ledger.stray ∧
      (.devClass ∈ v.items → (v.register o r).1.myClass = .valid) ∧
      ∀ i, (v.register o r).1.ledger.held i =
        r.ledger.held i + if i ∈ v.items ∧ i ≠ .region ∧ i ≠ .cdev then 1 else 0 := by
  cases v with
  | hw3 =>
      have whole : Variant.hw3.register o r = (r.acquire .pciDriver, 0) := if_pos complete
      rw [whole]
      refine ⟨rfl, rfl, fun has => absurd has (by decide), fun i => ?_⟩
      cases i <;> simp [Ledger.acquire_held, Variant.items]
  | hw5 | hw6 =>
      simp only [Variant.complete, Bool.and_eq_true] at complete
      rw [Variant.register, registerNode_complete complete.1.1 complete.1.2 complete.2]
      refine ⟨rfl, rfl, fun _ => rfl, fun i => ?_⟩
      cases i <;> simp [Ledger.acquire_held, Variant.items]

/-- An init in which nothing fails registers everything. -/
theorem init_complete (empty : r.ledger.Empty) (region : o.allocChrdevRegion = true)
    (cdev : o.cdevAdd = true) (complete : v.complete o = true) :
    (v.init o r).2 = 0 ∧ Registered v (v.init o r).1 ∧
      (v.init o r).1.ledger.stray = r.ledger.stray := by
  rw [init_eq, registerCdev_both region cdev]
  obtain ⟨ret, stray, myClass, held⟩ :=
    register_complete (r := (r.acquire .region).acquire .cdev) complete
  refine ⟨ret, ⟨fun i => ?_, myClass⟩, stray⟩
  rw [held]
  cases v <;> cases i <;> simp [Ledger.acquire_held, empty _, Variant.items]

/-- An init that fails later keeps the region or does not hold the node. -/
theorem register_incomplete (incomplete : v.complete o = false) :
    ((v.register o r).2 ≠ 0 ∧ (v.register o r).1.ledger.held .region = r.ledger.held .region) ∨
      (.devNode ∈ v.items ∧ (v.register o r).2 = 0 ∧
        (v.register o r).1.ledger.held .devNode = r.ledger.held .devNode) := by
  cases pciDriver : o.pciRegisterDriver with
  | false =>
      left
      cases v with
      | hw3 | hw5 =>
          simp [Variant.register, Hw3.registerDriver, Hw3.unregPciDriver, registerNode,
            Hw5.unregPciDriver, pciDriver, Ledger.release_held]
      | hw6 =>
          simp [Variant.register, registerNode, Hw6.unregPciDriver, unregDevCreate, destroyClass,
            pciDriver, Ledger.release_held]
  | true =>
      right
      cases v with
      | hw3 => exact Bool.noConfusion (pciDriver.symm.trans incomplete)
      | hw5 | hw6 =>
          have missing : (o.classCreate && o.deviceCreate) = false := by
            simpa [Variant.complete, pciDriver] using incomplete
          exact ⟨by decide, registerNode_ret pciDriver, registerNode_devNode pciDriver missing⟩

theorem not_initOk_of_incomplete (empty : r.ledger.Empty) (region : o.allocChrdevRegion = true)
    (cdev : o.cdevAdd = true) (incomplete : v.complete o = false) : ¬ InitOk v r (v.init o r) := by
  rw [init_eq, registerCdev_both region cdev]
  intro ok
  rcases register_incomplete (r := (r.acquire .region).acquire .cdev) incomplete with
    ⟨fails, kept⟩ | ⟨has, ret, missing⟩
  · have none := ok.fails fails .region
    rw [kept] at none
    simp [Ledger.acquire_held] at none
  · have held := ok.holds ret .devNode has
    rw [missing] at held
    simp [Ledger.acquire_held, empty _] at held

theorem initOk_iff (empty : r.ledger.Empty) :
    InitOk v r (v.init o r) ↔
      o.allocChrdevRegion = false ∨ o.cdevAdd = false ∨ v.complete o = true := by
  by_cases early : o.allocChrdevRegion = false ∨ o.cdevAdd = false
  · obtain ⟨ret, left, proper⟩ := init_early (v := v) empty early
    exact iff_of_true ⟨fun _ => left, fun zero => absurd (ret.symm.trans zero) (by decide), proper⟩
      (or_assoc.mp (Or.inl early))
  · obtain ⟨region, cdev⟩ := not_or.mp early
    rw [Bool.not_eq_false] at region cdev
    cases complete : v.complete o with
    | false =>
        have not := not_initOk_of_incomplete empty region cdev complete
        simpa [region, cdev] using not
    | true =>
        obtain ⟨ret, registered, proper⟩ := init_complete empty region cdev complete
        refine iff_of_true ⟨fun nonzero => (nonzero ret).elim, fun _ i member => ?_, proper⟩
          (Or.inr (Or.inr rfl))
        rw [registered.held, if_pos member]
        exact Nat.one_pos

/-- The exit of HW5 and HW6, if the class was created. -/
theorem unregisterNode_eq (valid : r.myClass = .valid) :
    unregisterNode r = ((unregisterCdev r).release .devNode).release .devClass := by
  have same : (unregisterCdev r).myClass = .valid := valid
  simp [unregisterNode, deviceDestroy, classDestroy, valid, Registry.release, same]

/-- An exit that runs to its end releases what is registered. -/
theorem exit_ready (registered : Registered v r) (ready : v.ready r = true) :
    ExitOk r (v.exit r) := by
  have held := registered.held
  cases v with
  | hw3 =>
      refine ⟨_, rfl, fun i => ?_, ?_⟩
      · cases i <;> simp [unregisterCdev, Ledger.release_held, held, Variant.items]
      · simp [unregisterCdev, Ledger.release_stray, Ledger.release_held, held, Variant.items]
  | hw5 | hw6 =>
      have valid := registered.myClass (by decide)
      refine ⟨unregisterNode r, ?_, fun i => ?_, ?_⟩
      · first | rfl | exact if_pos ready
      · rw [unregisterNode_eq valid]
        cases i <;> simp [unregisterCdev, Ledger.release_held, held, Variant.items]
      · rw [unregisterNode_eq valid]
        simp [unregisterCdev, Ledger.release_stray, Ledger.release_held, held, Variant.items]

theorem exitOk_iff (registered : Registered v r) : ExitOk r (v.exit r) ↔ v.ready r = true := by
  constructor
  · rintro ⟨after, done, -⟩
    cases v with
    | hw3 | hw5 => rfl
    | hw6 =>
        rcases Option.ite_none_right_eq_some.mp done with ⟨ready, -⟩
        exact ready
  · exact exit_ready registered

end Ladder

/-! ## Whole sequences -/

/-- A module that is not loaded has registered nothing, one that is loaded
everything; none has crashed. -/
def Settled (v : Variant) (m : Module) : Prop :=
  match m.phase with
  | .unloaded => m.registry.ledger.Empty
  | .live => Registered v m.registry
  | .going => False

section Runs

variable {v : Variant} {m m' t : Module} {e : Event} {trace : List (Module × Event)}

theorem Settled.empty (settled : Settled v m) (unloaded : m.phase = .unloaded) :
    m.registry.ledger.Empty := by
  rwa [Settled, unloaded] at settled

theorem Settled.registered (settled : Settled v m) (live : m.phase = .live) :
    Registered v m.registry := by
  rwa [Settled, live] at settled

theorem Settled.balanced_iff_orderly (settled : Settled v m) : Balanced v m e ↔ Orderly v m e := by
  cases e with
  | load o => exact imp_congr_right fun unloaded => initOk_iff (settled.empty unloaded)
  | probe => exact Iff.rfl
  | unload => exact imp_congr_right fun live => exitOk_iff (settled.registered live)

/-- An init in order leaves the module registered and loaded, or neither. -/
theorem settled_init {r : Registry} {o : Outcomes} (empty : r.ledger.Empty)
    (orderly : o.allocChrdevRegion = false ∨ o.cdevAdd = false ∨ v.complete o = true) :
    Settled v ⟨if (v.init o r).2 = 0 then .live else .unloaded, (v.init o r).1⟩ := by
  by_cases early : o.allocChrdevRegion = false ∨ o.cdevAdd = false
  · obtain ⟨ret, left, -⟩ := init_early (v := v) empty early
    rw [ret]
    exact left
  · obtain ⟨region, cdev⟩ := not_or.mp early
    rw [Bool.not_eq_false] at region cdev
    have complete : v.complete o = true := by simpa [region, cdev] using orderly
    obtain ⟨ret, registered, -⟩ := init_complete empty region cdev complete
    rw [ret]
    exact registered

theorem Settled.step (settled : Settled v m) (orderly : Orderly v m e)
    (edge : step v m e = some m') : Settled v m' := by
  cases e with
  | load o =>
      by_cases unloaded : m.phase = .unloaded
      · cases (if_pos unloaded).symm.trans edge
        exact settled_init (settled.empty unloaded) (orderly unloaded)
      · cases (if_neg unloaded).symm.trans edge
        exact settled
  | probe =>
      obtain ⟨live, probed⟩ := Option.ite_none_right_eq_some.mp edge
      cases probed
      have registered := settled.registered live
      rw [Settled, live]
      exact ⟨registered.held, registered.myClass⟩
  | unload =>
      by_cases live : m.phase = .live
      · obtain ⟨r, done, empty, -⟩ := exit_ready (settled.registered live) (orderly live)
        simp only [Registration.step, if_pos live, done] at edge
        cases edge
        exact empty
      · cases (if_neg live).symm.trans edge
        exact settled

theorem Settled.boot : Settled v .boot := fun _ => rfl

theorem Settled.balanced_run (settled : Settled v m) (run : Run (Registration.step v) m trace t) :
    Meets (Balanced v) trace ↔ Meets (Orderly v) trace :=
  run.meets_iff (fun _ _ => Settled.balanced_iff_orderly) (fun _ _ _ => Settled.step) settled

/-- **Loads and unloads balance** exactly if no init fails after `cdev_add`, and no
exit of HW6 finds `test_wq` unset: this for every sequence of loads, probes and
unloads, and every outcome of the calls an init makes. -/
theorem registrations_balance_iff (v : Variant) (run : Run (step v) .boot trace t) :
    Meets (Balanced v) trace ↔ Meets (Orderly v) trace :=
  Settled.boot.balanced_run run

end Runs

instance (v : Variant) (m : Module) : ∀ e, Decidable (Orderly v m e)
  | .load o => inferInstanceAs (Decidable (m.phase = .unloaded →
      o.allocChrdevRegion = false ∨ o.cdevAdd = false ∨ v.complete o = true))
  | .probe => inferInstanceAs (Decidable True)
  | .unload => inferInstanceAs (Decidable (m.phase = .live → v.ready m.registry = true))

/-- HW6 is loaded, and unloaded after a probe; the next load fails at
`cdev_add`, and one more succeeds. -/
theorem registrations_balance_reloaded :
    ∃ t trace, Run (step .hw6) .boot trace t ∧ Meets (Balanced .hw6) trace ∧
      t.phase = .live := by
  obtain ⟨t, trace, run, orderly, live⟩ := Run.of_traced_any (step .hw6) .boot
    [.load ⟨true, true, true, true, true⟩, .probe, .unload,
      .load ⟨true, false, true, true, true⟩, .load ⟨true, true, true, true, true⟩]
    (fun r => Meets (Orderly .hw6) r.1 ∧ r.2.phase = .live) (by decide +kernel)
  exact ⟨t, trace, run, (registrations_balance_iff .hw6 run).mpr orderly, live⟩

theorem unbalanced {v : Variant} (events : List Event) (P : Module → Prop) [DecidablePred P]
    (checked : (traced (step v) .boot events).any
      (fun r => decide (¬ Meets (Orderly v) r.1 ∧ P r.2)) = true) :
    ∃ t trace, Run (step v) .boot trace t ∧ ¬ Meets (Balanced v) trace ∧ P t := by
  obtain ⟨t, trace, run, disorderly, holds⟩ := Run.of_traced_any (step v) .boot events _ checked
  have left : ¬ Meets (Balanced v) trace := fun balanced =>
    disorderly ((Settled.boot.balanced_run run).mp balanced)
  exact ⟨t, trace, run, left, holds⟩

/-- If `pci_register_driver` fails, a failed load leaves the region and the cdev
behind, and an unregistration (in HW6 also the destruction of a node and a class)
of what is not there. If `class_create` fails, HW5 is loaded without a class. If
HW6 is unloaded before any probe, its exit crashes. -/
theorem registrations_left_behind :
    (∃ t trace, Run (step .hw3) .boot trace t ∧ ¬ Meets (Balanced .hw3) trace ∧
      t.phase = .unloaded ∧ t.registry.ledger.held .cdev = 1 ∧ t.registry.ledger.stray = 1) ∧
    (∃ t trace, Run (step .hw6) .boot trace t ∧ ¬ Meets (Balanced .hw6) trace ∧
      t.phase = .unloaded ∧ t.registry.ledger.held .cdev = 1 ∧ t.registry.ledger.stray = 3) ∧
    (∃ t trace, Run (step .hw5) .boot trace t ∧ ¬ Meets (Balanced .hw5) trace ∧
      t.phase = .live ∧ t.registry.ledger.held .devClass = 0) ∧
    ∃ t trace, Run (step .hw6) .boot trace t ∧ ¬ Meets (Balanced .hw6) trace ∧
      t.phase = .going ∧ t.registry.ledger.held .devNode = 1 :=
  ⟨unbalanced [.load ⟨true, true, false, true, true⟩] _ (by decide +kernel),
    unbalanced [.load ⟨true, true, false, true, true⟩] _ (by decide +kernel),
    unbalanced [.load ⟨true, true, true, false, true⟩] _ (by decide +kernel),
    unbalanced [.load ⟨true, true, true, true, true⟩, .unload] _ (by decide +kernel)⟩

/-! ## HW2 -/

namespace Hw2

def example5Init (o : Outcomes) : Registry → Registry × Int :=
  registerCdev o fun r => (r, 0)

def example5Exit (r : Registry) : Registry := (r.release .cdev).release .region

/-- Loads and unloads of HW2, which has no devices to bind. -/
def step (m : Module) : Event → Option Module
  | .load o =>
      if m.phase = .unloaded then
        let after := example5Init o m.registry.fresh
        some ⟨if after.2 = 0 then .live else .unloaded, after.1⟩
      else some m
  | .probe => none
  | .unload =>
      if m.phase = .live then some ⟨.unloaded, example5Exit m.registry⟩ else some m

/-- The region and the cdev are there while the module is loaded and nothing is
otherwise; nothing was ever released that was not there. -/
structure Kept (m : Module) : Prop where
  held : ∀ i, m.registry.ledger.held i =
    if m.phase = .live ∧ (i = .region ∨ i = .cdev) then 1 else 0
  proper : m.registry.ledger.stray = 0

theorem Kept.load {r : Registry} (empty : r.ledger.Empty) (proper : r.ledger.stray = 0)
    (o : Outcomes) :
    Kept ⟨if (example5Init o r).2 = 0 then .live else .unloaded, (example5Init o r).1⟩ := by
  unfold example5Init
  cases region : o.allocChrdevRegion with
  | false =>
      rw [registerCdev_no_region region]
      exact ⟨fun i => by simp [empty i], proper⟩
  | true =>
      cases cdev : o.cdevAdd with
      | false =>
          rw [registerCdev_no_cdev region cdev]
          exact ⟨fun i => by simp [Ledger.release_acquire_held, empty i],
            by simp [Ledger.release_stray, proper]⟩
      | true =>
          rw [registerCdev_both region cdev]
          refine ⟨fun i => ?_, by simp [proper]⟩
          cases i <;> simp [Ledger.acquire_held, empty _]

theorem Kept.step {m m' : Module} {e : Event} (kept : Kept m) (edge : step m e = some m') :
    Kept m' := by
  have held := kept.held
  cases e with
  | load o =>
      by_cases unloaded : m.phase = .unloaded
      · cases (if_pos unloaded).symm.trans edge
        have empty : m.registry.fresh.ledger.Empty := fun i => by
          have none := held i
          rw [unloaded] at none
          exact none.trans (if_neg nofun)
        exact .load empty kept.proper o
      · cases (if_neg unloaded).symm.trans edge
        exact kept
  | probe => cases edge
  | unload =>
      by_cases live : m.phase = .live
      · cases (if_pos live).symm.trans edge
        refine ⟨fun i => ?_, ?_⟩
        · cases i <;> simp [example5Exit, Ledger.release_held, held, live]
        · simp [example5Exit, Ledger.release_stray, Ledger.release_held, held, live, kept.proper]
      · cases (if_neg live).symm.trans edge
        exact kept

/-- HW2 balances: over every sequence of loads and unloads and every outcome of the two
calls of its init. -/
theorem kept_of_run {t : Module} {trace : List (Module × Event)} (run : Run step .boot trace t) :
    Kept t := by
  induction run with
  | refl => exact ⟨fun _ => rfl, rfl⟩
  | snoc _ edge ih => exact ih.step edge

end Hw2

end BlinkDriver.Registration
