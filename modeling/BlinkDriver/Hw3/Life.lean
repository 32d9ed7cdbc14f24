import BlinkDriver.CharDev.LedValue
import BlinkDriver.Hw5.Teardown

/-!
# The life of HW3

`program` lets the calls of HW3 reach `LEDCTL` at any time. In the driver they reach it
through `myPci.hw_addr`, which `pci_blinkDriver_probe` sets and
`pci_blinkDriver_remove` unmaps, and neither `example5_read` nor `example5_write` looks
whether there is a device. `Life` is the module from one load to the next with its
calls, its probes and its removals; an access through an address that is not mapped is
the end of it.

`calls_reach_device` says when that happens, and that calls which begin while the device
is bound and end before it is unbound are calls of `program`.
-/

namespace BlinkDriver.Hw3

open Transition
open Hw5 (HwAddr Pci ProbePc RemovePc)

/-! ## The driver's functions -/

/-- `myPci.hw_addr` and `mydev.led_initial_val`. -/
structure Device where
  hwAddr : HwAddr
  ledInitialVal : BitVec 64
  deriving DecidableEq

/-- The same two among the globals of HW5. -/
def Device.toHw5 (d : Device) (ledctl : BitVec 32) : Hw5.Globals :=
  { (Hw5.State.off ledctl).g with hwAddr := d.hwAddr, ledInitialVal := d.ledInitialVal }

def Device.ofHw5 (g : Hw5.Globals) : Device := ⟨g.hwAddr, g.ledInitialVal⟩

/-- The next statement of `pci_blinkDriver_probe`; they are those of HW5. -/
def probe (ok : Bool) (ledctl : BitVec 32) (d : Device) (pc : ProbePc) : Device × Pci :=
  let next := Hw5.probe ok (d.toHw5 ledctl) pc
  (.ofHw5 next.1, next.2)

/-- The next statement of `pci_blinkDriver_remove`; they are those of HW5. -/
def remove (ledctl : BitVec 32) (d : Device) (pc : RemovePc) : Device × Pci :=
  let next := Hw5.remove (d.toHw5 ledctl) pc
  (.ofHw5 next.1, next.2)

/-- The next access of a call is its `readl` or its `writel`. -/
def Call.accesses : Call → Bool
  | .opening _ => false
  | .reading k => decide (k.pc = .readl)
  | .writing k =>
      match k.pc with
      | .store _ => true
      | _ => false

/-- A read or a write that has not returned. -/
def Call.busy : Call → Bool
  | .opening _ => false
  | .reading k => decide (k.pc ≠ .returned)
  | .writing k => decide (k.pc ≠ .returned)

/-! ## The system -/

/-- `exiting` is `example5_exit` in `pci_unregister_driver`; what follows does not
concern the device. -/
inductive Phase where
  | unloaded
  | live
  | exiting
  deriving DecidableEq

/-- The globals and `LEDCTL`, the calls since the module was loaded, the driver's record
of the device, what the module loader and the PCI core are doing, and whether a call has
made an access through an address that is not mapped. -/
structure Life where
  globals : Led
  calls : List Call
  device : Device
  phase : Phase
  pci : Pci
  crashed : Bool

/-- The module has never been loaded. -/
def Life.off (ledctl : BitVec 32) : Life where
  globals := ⟨0, 0, ledctl⟩
  calls := []
  device := ⟨.null, 0⟩
  phase := .unloaded
  pci := .unbound
  crashed := false

/-- Who moves. The module is loaded; the PCI core starts a probe, makes its next statement, unbinds
the device, or makes the next statement of the removal; a process begins a call or makes
its next statement; another agent stores into `LEDCTL`; the module is asked to exit, for
which no read or write may be in progress, and goes on with it. -/
inductive Event where
  | load
  | probe
  | probeStep (ok : Bool)
  | unbind
  | removeStep
  | start (request : Request)
  | move (i : Nat) (ok : Bool)
  | poke (led : BitVec 32)
  | exit
  | exitStep

namespace Life

/-- The next access of call `i`. -/
def move (s : Life) (i : Nat) (ok : Bool) : Option Life :=
  (s.calls[i]?).bind fun c =>
    if c.accesses = true ∧ s.device.hwAddr ≠ .mapped then some { s with crashed := true }
    else (program.move ok s.globals c).map fun next =>
      { s with globals := next.1, calls := s.calls.set i next.2 }

def next (s : Life) : Event → Option Life
  | .load =>
      if s.phase = .unloaded then
        some { s with
          globals := ⟨0, 0, s.globals.ledctl⟩, calls := [], device := ⟨.null, 0⟩
          phase := .live }
      else none
  | .probe =>
      if s.phase = .live ∧ s.pci = .unbound then some { s with pci := .probing .request } else none
  | .probeStep ok =>
      match s.pci with
      | .probing pc =>
          let next := probe ok s.globals.ledctl s.device pc
          some { s with device := next.1, pci := next.2 }
      | _ => none
  | .unbind =>
      if s.phase = .live ∧ s.pci = .bound then some { s with pci := .removing .unmap } else none
  | .removeStep =>
      match s.pci with
      | .removing pc =>
          let next := remove s.globals.ledctl s.device pc
          some { s with device := next.1, pci := next.2 }
      | _ => none
  | .start request =>
      if s.phase = .live then some { s with calls := s.calls ++ [program.start request] } else none
  | .move i ok => s.move i ok
  | .poke led => some { s with globals := program.env led s.globals }
  | .exit =>
      if s.phase = .live ∧ s.calls.all (fun c => !c.busy) = true then
        some { s with phase := .exiting }
      else none
  | .exitStep =>
      match s.phase, s.pci with
      | .exiting, .bound => some { s with pci := .removing .unmap }
      | .exiting, .unbound => some { s with phase := .unloaded }
      | _, _ => none

/-- Nothing follows a crash. -/
def step (s : Life) (l : Event) : Option Life := if s.crashed then none else s.next l

/-- The step is the access of a call to `LEDCTL`. -/
def Accesses (s : Life) (l : Event) : Prop :=
  ∃ i ok c, l = .move i ok ∧ s.calls[i]? = some c ∧ c.accesses = true

/-- A read or a write begins only while the device is bound, and the device is unbound
only while none is in progress. -/
def Careful (s : Life) : Event → Prop
  | .start (.read _ _ _) | .start (.write _) => s.pci = .bound
  | .unbind => ∀ c ∈ s.calls, c.busy = false
  | _ => True

/-- The calls since the load, and the globals they share. -/
def serving (s : Life) : Interleaving.State Led Call := ⟨s.globals, fun i => s.calls[i]?⟩

end Life

/-! ## What one step can do -/

inductive Life.Step (s : Life) : Event → Life → Prop
  | load (phase : s.phase = .unloaded) :
      s.Step .load { s with
        globals := ⟨0, 0, s.globals.ledctl⟩, calls := [], device := ⟨.null, 0⟩
        phase := .live }
  | probe (phase : s.phase = .live) (pci : s.pci = .unbound) :
      s.Step .probe { s with pci := .probing .request }
  | probeStep {ok : Bool} {pc : ProbePc} (pci : s.pci = .probing pc) :
      s.Step (.probeStep ok) { s with
        device := (probe ok s.globals.ledctl s.device pc).1
        pci := (probe ok s.globals.ledctl s.device pc).2 }
  | unbind (phase : s.phase = .live) (pci : s.pci = .bound) :
      s.Step .unbind { s with pci := .removing .unmap }
  | removeStep {pc : RemovePc} (pci : s.pci = .removing pc) :
      s.Step .removeStep { s with
        device := (remove s.globals.ledctl s.device pc).1
        pci := (remove s.globals.ledctl s.device pc).2 }
  | start {request : Request} (phase : s.phase = .live) :
      s.Step (.start request) { s with calls := s.calls ++ [program.start request] }
  | crash {i : Nat} {ok : Bool} {c : Call} (running : s.calls[i]? = some c)
      (access : c.accesses = true) (gone : s.device.hwAddr ≠ .mapped) :
      s.Step (.move i ok) { s with crashed := true }
  | move {i : Nat} {ok : Bool} {c c' : Call} {g : Led} (running : s.calls[i]? = some c)
      (reaches : c.accesses = true → s.device.hwAddr = .mapped)
      (made : program.move ok s.globals c = some (g, c')) :
      s.Step (.move i ok) { s with globals := g, calls := s.calls.set i c' }
  | poke {led : BitVec 32} :
      s.Step (.poke led) { s with globals := program.env led s.globals }
  | exit (phase : s.phase = .live) (free : ∀ c ∈ s.calls, c.busy = false) :
      s.Step .exit { s with phase := .exiting }
  | unregister (phase : s.phase = .exiting) (pci : s.pci = .bound) :
      s.Step .exitStep { s with pci := .removing .unmap }
  | leave (phase : s.phase = .exiting) (pci : s.pci = .unbound) :
      s.Step .exitStep { s with phase := .unloaded }

theorem Life.Step.of_move {s t : Life} {i : Nat} {ok : Bool} (moved : s.move i ok = some t) :
    s.Step (.move i ok) t := by
  rcases Option.bind_eq_some_iff.mp moved with ⟨c, running, made⟩
  split at made
  · rename_i gone
    cases made
    exact .crash running gone.1 gone.2
  · rename_i there
    rcases Option.map_eq_some_iff.mp made with ⟨⟨g, c'⟩, next, rfl⟩
    exact .move running (fun access => of_not_not fun gone => there ⟨access, gone⟩) next

theorem Life.Step.of_step {s t : Life} {l : Event} (moved : s.step l = some t) :
    s.crashed = false ∧ s.Step l t := by
  rcases Option.ite_none_left_eq_some.mp moved with ⟨alive, moved⟩
  refine ⟨Bool.eq_false_of_not_eq_true alive, ?_⟩
  cases l with
  | load =>
      rcases Option.ite_none_right_eq_some.mp moved with ⟨phase, same⟩
      cases same
      exact .load phase
  | probe =>
      rcases Option.ite_none_right_eq_some.mp moved with ⟨free, same⟩
      cases same
      exact .probe free.1 free.2
  | probeStep ok =>
      simp only [Life.next] at moved
      split at moved
      · rename_i pc pci
        cases moved
        exact .probeStep pci
      · cases moved
  | unbind =>
      rcases Option.ite_none_right_eq_some.mp moved with ⟨there, same⟩
      cases same
      exact .unbind there.1 there.2
  | removeStep =>
      simp only [Life.next] at moved
      split at moved
      · rename_i pc pci
        cases moved
        exact .removeStep pci
      · cases moved
  | start request =>
      rcases Option.ite_none_right_eq_some.mp moved with ⟨phase, same⟩
      cases same
      exact .start phase
  | move i ok => exact .of_move moved
  | poke led =>
      cases moved
      exact .poke
  | exit =>
      rcases Option.ite_none_right_eq_some.mp moved with ⟨free, same⟩
      cases same
      exact .exit free.1 fun c member => by simpa using List.all_eq_true.mp free.2 c member
  | exitStep =>
      simp only [Life.next] at moved
      split at moved
      · rename_i phase pci
        cases moved
        exact .unregister phase pci
      · rename_i phase pci
        cases moved
        exact .leave phase pci
      · cases moved

/-! ## The mapping -/

/-- An unloaded module has no device, `hw_addr` is a live mapping exactly from `ioremap`
to `iounmap`, and a module that is exiting serves no call. -/
structure Kept (s : Life) : Prop where
  unloaded : s.phase = .unloaded → s.pci = .unbound
  mapped : s.device.hwAddr = .mapped ↔ s.pci.maps = true
  exiting : s.phase = .exiting → ∀ c ∈ s.calls, c.busy = false

theorem Call.busy_of_accesses {c : Call} (access : c.accesses = true) : c.busy = true := by
  cases c with
  | opening => cases access
  | reading k =>
      have pc : k.pc = .readl := of_decide_eq_true access
      simp [busy, pc]
  | writing k =>
      cases pc : k.pc with
      | store v => simp [busy, pc]
      | _ => simp [accesses, pc] at access

/-- A read or a write that has returned does not move any more. -/
theorem Call.busy_of_move {ok : Bool} {g g' : Led} {c c' : Call}
    (made : program.move ok g c = some (g', c')) (busy : c'.busy = true) : c.busy = true := by
  cases c with
  | opening returned =>
      rcases Option.map_eq_some_iff.mp made with ⟨_, -, same⟩
      cases same
      cases busy
  | reading k =>
      by_cases pc : k.pc = .returned
      · simp [program, example5Read, pc] at made
      · exact decide_eq_true pc
  | writing k =>
      by_cases pc : k.pc = .returned
      · simp [program, example5Write, CharDev.exampleWrite, pc] at made
      · exact decide_eq_true pc

/-- After a move, whoever is busy was busy before. -/
theorem busy_of_set {calls : List Call} {ok : Bool} {g g' : Led} {i : Nat} {c c' : Call}
    (running : calls[i]? = some c) (made : program.move ok g c = some (g', c')) {x : Call}
    (member : x ∈ calls.set i c') (busy : x.busy = true) : ∃ y ∈ calls, y.busy = true := by
  rcases List.mem_or_eq_of_mem_set member with before | rfl
  · exact ⟨x, before, busy⟩
  · exact ⟨c, List.mem_of_getElem? running, Call.busy_of_move made busy⟩

theorem Kept.off (ledctl : BitVec 32) : Kept (.off ledctl) :=
  ⟨fun _ => rfl, ⟨nofun, nofun⟩, nofun⟩

/-- The PCI core does something with the device. -/
theorem Kept.turn {s : Life} (kept : Kept s) {device : Device} {pci : Pci}
    (there : s.phase ≠ .unloaded) (mapped : device.hwAddr = .mapped ↔ pci.maps = true) :
    Kept { s with device, pci } :=
  ⟨fun gone => absurd gone there, mapped, kept.exiting⟩

/-- The PCI core turns to the device or away from it. -/
theorem Kept.maps {s : Life} (kept : Kept s) {pci : Pci} (same : s.pci.maps = pci.maps) :
    s.device.hwAddr = .mapped ↔ pci.maps = true := by
  rw [← same]
  exact kept.mapped

theorem Kept.loaded {s : Life} (kept : Kept s) (pci : s.pci ≠ .unbound) : s.phase ≠ .unloaded :=
  fun gone => pci (kept.unloaded gone)

theorem Kept.step {s t : Life} {l : Event} (kept : Kept s) (moved : s.Step l t) : Kept t := by
  cases moved with
  | load phase =>
      have pci := kept.unloaded phase
      refine ⟨fun gone => ?_, ⟨fun mapped => ?_, fun maps => ?_⟩, fun exiting => ?_⟩
      · cases gone
      · cases mapped
      · simp [pci, Pci.maps] at maps
      · cases exiting
  | probe phase pci =>
      apply kept.turn
      · simp [phase]
      · exact kept.maps (by rw [pci]; rfl)
  | @probeStep ok pc pci =>
      apply kept.turn
      · exact kept.loaded (by simp [pci])
      · exact Hw5.mappedWhile_probe ok (s.device.toHw5 s.globals.ledctl) pc
          (kept.maps (by rw [pci]))
  | unbind phase pci =>
      apply kept.turn
      · simp [phase]
      · exact kept.maps (by rw [pci]; rfl)
  | @removeStep pc pci =>
      apply kept.turn
      · exact kept.loaded (by simp [pci])
      · cases pc with
        | unmap => exact iff_of_false (fun mapped => by cases mapped) Bool.false_ne_true
        | release => exact kept.maps (by rw [pci]; rfl)
  | start phase =>
      refine ⟨kept.unloaded, kept.mapped, fun exiting => ?_⟩
      cases phase.symm.trans exiting
  | crash => exact ⟨kept.unloaded, kept.mapped, kept.exiting⟩
  | @move i ok c c' g running reaches made =>
      refine ⟨kept.unloaded, kept.mapped, fun exiting x member => ?_⟩
      apply Bool.eq_false_of_not_eq_true
      intro busy
      rcases busy_of_set running made member busy with ⟨y, before, working⟩
      cases (kept.exiting exiting y before).symm.trans working
  | poke => exact ⟨kept.unloaded, kept.mapped, kept.exiting⟩
  | exit phase free =>
      refine ⟨fun gone => ?_, kept.mapped, fun _ => free⟩
      cases gone
  | unregister phase pci =>
      apply kept.turn
      · simp [phase]
      · exact kept.maps (by rw [pci]; rfl)
  | leave phase pci =>
      refine ⟨fun _ => pci, kept.mapped, fun exiting => ?_⟩
      cases exiting

/-! ## Calls that have a device -/

/-- A call is in progress only while the device is bound. -/
def Attended (s : Life) : Prop := ∀ c ∈ s.calls, c.busy = true → s.pci = .bound

/-- Nobody is in progress, so the device may go. -/
theorem Attended.of_free {s : Life} (free : ∀ c ∈ s.calls, c.busy = false) : Attended s :=
  fun c member busy => absurd ((free c member).symm.trans busy) nofun

theorem Attended.step {s t : Life} {l : Event} (attended : Attended s) (kept : Kept s)
    (careful : s.Careful l) (moved : s.Step l t) : Attended t := by
  cases moved with
  | load phase => exact fun c member => absurd member List.not_mem_nil
  | probe phase pci =>
      intro c member busy
      exact absurd (pci.symm.trans (attended c member busy)) nofun
  | probeStep pci | removeStep pci =>
      intro c member busy
      exact absurd (pci.symm.trans (attended c member busy)) nofun
  | unbind phase pci => exact .of_free careful
  | @start request phase =>
      intro c member busy
      rcases List.mem_append.mp member with before | new
      · exact attended c before busy
      · cases List.mem_singleton.mp new
        cases request with
        | openFile => cases busy
        | read | write => exact careful
  | crash | poke | exit => exact attended
  | @move i ok c c' g running reaches made =>
      intro x member busy
      rcases busy_of_set running made member busy with ⟨y, before, working⟩
      exact attended y before working
  | unregister phase pci => exact .of_free (kept.exiting phase)
  | leave phase pci => exact attended

/-- The calls since the load are a run of `program`. -/
def Serves (s : Life) : Prop :=
  ∃ ledctl trace, Run program.step (.idle ⟨0, 0, ledctl⟩) trace s.serving

theorem serving_start (s : Life) (c : Call) :
    ({ s with calls := s.calls ++ [c] } : Life).serving =
      s.serving.put s.globals s.calls.length c := by
  have calls : ∀ i, (s.calls ++ [c])[i]? =
      Function.update (fun i => s.calls[i]?) s.calls.length (some c) i := by
    intro i
    rcases Nat.lt_trichotomy i s.calls.length with old | rfl | beyond
    · rw [Function.update_of_ne (Nat.ne_of_lt old), List.getElem?_append_left old]
    · rw [Function.update_self, List.getElem?_concat_length]
    · rw [Function.update_of_ne (Nat.ne_of_gt beyond), List.getElem?_eq_none (by simp; omega),
        List.getElem?_eq_none (Nat.le_of_lt beyond)]
  simp only [Life.serving, Interleaving.State.put, funext calls]

theorem serving_move {s : Life} {i : Nat} {c : Call} (running : s.calls[i]? = some c) (g : Led)
    (c' : Call) :
    ({ s with globals := g, calls := s.calls.set i c' } : Life).serving =
      s.serving.put g i c' := by
  have within := (List.getElem?_eq_some_iff.mp running).1
  have calls : ∀ j, (s.calls.set i c')[j]? =
      Function.update (fun j => s.calls[j]?) i (some c') j := by
    intro j
    by_cases same : j = i
    · subst same
      rw [Function.update_self, List.getElem?_set_self within]
    · rw [Function.update_of_ne same, List.getElem?_set_ne (Ne.symm same)]
  simp only [Life.serving, Interleaving.State.put, funext calls]

theorem Serves.step {s t : Life} {l : Event} (serves : Serves s) (moved : s.Step l t) :
    Serves t := by
  rcases serves with ⟨ledctl, trace, run⟩
  cases moved with
  | load phase => exact ⟨s.globals.ledctl, [], .refl⟩
  | probe | probeStep | unbind | removeStep | exit | unregister | leave | crash =>
      exact ⟨ledctl, trace, run⟩
  | @start request phase =>
      have vacant : s.serving.calls s.calls.length = none := List.getElem?_eq_none (Nat.le_refl _)
      have began : program.step s.serving (.start s.calls.length request) =
          some (s.serving.put s.globals s.calls.length (program.start request)) := by
        simp only [Interleaving.Program.step, vacant]
        rfl
      rw [← serving_start] at began
      exact ⟨ledctl, _, run.snoc began⟩
  | @move i ok c c' g running reaches made =>
      have slot : s.serving.calls i = some c := running
      have went : program.step s.serving (.move i ok) = some (s.serving.put g i c') := by
        have next : program.move ok s.serving.globals c = some (g, c') := made
        simp only [Interleaving.Program.step, slot, Option.bind_some, next, Option.map_some]
      rw [← serving_move running] at went
      exact ⟨ledctl, _, run.snoc went⟩
  | @poke led =>
      have stored : program.step s.serving (.env led) =
          some ({ s with globals := program.env led s.globals } : Life).serving := rfl
      exact ⟨ledctl, _, run.snoc stored⟩

/-! ## Whole runs -/

/-- A step crashes exactly if it is an access while the PCI core keeps no mapping. -/
theorem Kept.crashes_iff {s t : Life} {l : Event} (kept : Kept s) (alive : s.crashed = false)
    (moved : s.Step l t) : t.crashed = true ↔ s.Accesses l ∧ s.pci.maps = false := by
  have goesOn : ¬ s.crashed = true := by simp [alive]
  cases moved with
  | crash running access gone =>
      refine iff_of_true rfl ⟨⟨_, _, _, rfl, running, access⟩, ?_⟩
      exact Bool.eq_false_of_not_eq_true fun maps => gone (kept.mapped.mpr maps)
  | @move i ok c c' g running reaches made =>
      apply iff_of_false goesOn
      intro both
      rcases both with ⟨⟨j, ok', x, same, slot, access⟩, unmapped⟩
      cases same
      cases running.symm.trans slot
      exact absurd (unmapped.symm.trans (kept.mapped.mp (reaches access))) nofun
  | _ =>
      apply iff_of_false goesOn
      intro both
      rcases both with ⟨⟨j, ok', x, same, -, -⟩, -⟩
      cases same

/-- A call that is attended to finds the device. -/
theorem Attended.maps {s : Life} {l : Event} (attended : Attended s) (access : s.Accesses l) :
    s.pci.maps = true := by
  rcases access with ⟨i, ok, c, -, running, reaches⟩
  rw [attended c (List.mem_of_getElem? running) (Call.busy_of_accesses reaches)]
  rfl

section Runs

variable {ledctl : BitVec 32} {t : Life} {trace : List (Life × Event)}

theorem kept_of_run (run : Run Life.step (.off ledctl) trace t) : Kept t ∧ Serves t := by
  induction run with
  | refl => exact ⟨.off ledctl, ledctl, [], .refl⟩
  | snoc _ edge ih =>
      have moved := (Life.Step.of_step edge).2
      exact ⟨ih.1.step moved, ih.2.step moved⟩

theorem crashed_iff (run : Run Life.step (.off ledctl) trace t) :
    t.crashed = true ↔ ∃ p ∈ trace, p.1.Accesses p.2 ∧ p.1.pci.maps = false := by
  induction run with
  | refl => exact iff_of_false nofun fun ⟨_, member, _⟩ => absurd member List.not_mem_nil
  | @snoc trace a b l front edge ih =>
      rcases Life.Step.of_step edge with ⟨alive, moved⟩
      rw [(kept_of_run front).1.crashes_iff alive moved]
      have safe : ¬ ∃ p ∈ trace, p.1.Accesses p.2 ∧ p.1.pci.maps = false := by
        rw [← ih, alive]
        exact Bool.false_ne_true
      constructor
      · intro both
        exact ⟨(a, l), by simp, both⟩
      · rintro ⟨p, member, both⟩
        rcases List.mem_append.mp member with before | last
        · exact absurd ⟨p, before, both⟩ safe
        · cases List.mem_singleton.mp last
          exact both

theorem attended_of_run (run : Run Life.step (.off ledctl) trace t)
    (careful : Meets Life.Careful trace) : ∀ u ∈ visited trace t, Attended u := by
  have step : ∀ a l b, Kept a ∧ Attended a → a.Careful l → a.step l = some b →
      Kept b ∧ Attended b := by
    intro a l b both careful edge
    have moved := (Life.Step.of_step edge).2
    exact ⟨both.1.step moved, both.2.step both.1 careful moved⟩
  have start : Kept (.off ledctl) ∧ Attended (.off ledctl) := ⟨.off ledctl, .of_free nofun⟩
  exact fun u member => (run.invariant_visited step careful start u member).2

/-- **The calls reach the device.** In every run over any order of loads, probes, calls,
unbinds and exits, a call crashes exactly if it makes its access to `LEDCTL` outside of
the stretch from the `ioremap` of a probe to the `iounmap` of a removal; the calls since
the load are a run of `program`, up to a crash; and nothing crashes if reads and writes
begin only while the device is bound and it is unbound only while none is in progress. -/
theorem calls_reach_device (run : Run Life.step (.off ledctl) trace t) :
    (t.crashed = true ↔ ∃ p ∈ trace, p.1.Accesses p.2 ∧ p.1.pci.maps = false) ∧
      (∃ led calls, Run program.step (.idle ⟨0, 0, led⟩) calls t.serving) ∧
      (Meets Life.Careful trace → t.crashed = false) := by
  refine ⟨crashed_iff run, (kept_of_run run).2, fun careful => ?_⟩
  apply Bool.eq_false_of_not_eq_true
  intro crashed
  rcases (crashed_iff run).mp crashed with ⟨p, member, access, unmapped⟩
  have attended := attended_of_run run careful p.1 (mem_visited_of_mem member)
  exact absurd ((attended.maps access).symm.trans unmapped) nofun

end Runs

/-- A write reaches the device; after the device is unbound, a read crashes. -/
theorem calls_reach_device_unbound :
    ∃ t trace, Run Life.step (.off 0) trace t ∧ t.globals.ledctl = 0x80 ∧
      ∃ p ∈ trace, p.1.Accesses p.2 ∧ p.1.pci.maps = false := by
  rcases Run.of_exec_any Life.step (.off 0)
    (.load :: .probe :: List.replicate 3 (.probeStep true) ++ .start (.write ledOn) ::
      List.replicate 11 (.move 0 true) ++ .unbind :: .removeStep :: .removeStep ::
      .start (.read false 4 0) :: List.replicate 3 (.move 1 true))
    (fun t => t.globals.ledctl = 0x80 ∧ t.crashed = true) (by decide +kernel)
    with ⟨t, trace, run, -, lit, crashed⟩
  exact ⟨t, trace, run, lit, (calls_reach_device run).1.mp crashed⟩

end BlinkDriver.Hw3
