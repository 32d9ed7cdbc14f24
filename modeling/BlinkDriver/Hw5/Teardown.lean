import BlinkDriver.Hw5.System

/-!
# The timer against removal and unloading

`my_callback` stores through `hw_addr` and arms the timer again, and nothing in
`pci_blinkDriver_remove` concerns the timer: the first expiry after an unbind
stores through an address that is gone. An open arms the timer whether or not
there is a device. And `del_timer` does not wait for a callback that has begun,
which arms the timer again behind it. `timer_outlives` has a run for each.

`not_outlived` says that there is nothing else: in a run in which opens arm the
timer only while the registers are mapped, the registers are unmapped only while
the timer is off, and `del_timer` finds no callback running, the callback stores
to mapped registers only and an unloaded module has left no timer behind.
-/

namespace BlinkDriver.Hw5

open Transition

/-- The callback is not running, and nothing is queued that could make it. -/
def State.TimerOff (s : State) : Prop := s.g.timer.Quiet ∧ s.callback = none

/-- The step is the store to `LEDCTL` by `my_callback`. -/
def StoresLed (s : State) (l : Label) : Prop := l = .callbackStep ∧ s.callback = some .writeLed

/-- The timer outlives neither the device nor the module. -/
structure NotOutlived (trace : List (State × Label)) (t : State) : Prop where
  device : Meets (fun s l => StoresLed s l → s.g.hwAddr = .mapped) trace
  module : ∀ u ∈ visited trace t, u.phase = .unloaded → u.TimerOff

/-- An open arms the timer only while the registers are mapped, the registers are
unmapped only while the timer is off, and `del_timer` finds the callback not
running and no entry it cannot delete. -/
def Careful (s : State) : Label → Prop
  | .move i _ => s.calls[i]? = some (.opening .arm) → s.g.hwAddr = .mapped
  | .removeStep => s.pci = .removing .unmap → s.TimerOff
  | .exitStep => s.phase = .exiting .delTimer → s.callback = none ∧ s.g.timer.stale = 0
  | _ => True

instance (s : State) : Decidable s.TimerOff := inferInstanceAs (Decidable (_ ∧ _))

instance (s : State) : ∀ l, Decidable (Careful s l)
  | .move i _ =>
      inferInstanceAs (Decidable (s.calls[i]? = some (.opening .arm) → s.g.hwAddr = .mapped))
  | .removeStep => inferInstanceAs (Decidable (s.pci = .removing .unmap → s.TimerOff))
  | .exitStep =>
      inferInstanceAs (Decidable
        (s.phase = .exiting .delTimer → s.callback = none ∧ s.g.timer.stale = 0))
  | .load _ | .setParam _ | .probe | .probeStep _ | .unbind | .start _ | .close _ | .expire _
  | .callbackStep | .exit => inferInstanceAs (Decidable True)

/-! ## The mapping -/

/-- The PCI core is between a successful `ioremap` and the `iounmap` of the
removal. -/
def Pci.maps : Pci → Bool
  | .probing .readLed | .bound | .removing .unmap => true
  | _ => false

/-- `hw_addr` is a live mapping exactly from `ioremap` to `iounmap`. -/
def MappedWhile (s : State) : Prop := s.g.hwAddr = .mapped ↔ s.pci.maps = true

theorem CallStep.hwAddr {g g' : Globals} {c c' : Call} (statement : CallStep g c g' c') :
    g'.hwAddr = g.hwAddr := by
  cases statement with
  | opening statement => cases statement <;> rfl
  | reading => rfl
  | writing => rfl

theorem myCallback_hwAddr (g : Globals) (pc : CallbackPc) :
    (myCallback g pc).1.hwAddr = g.hwAddr := by
  cases pc <;> rfl

theorem mappedWhile_probe (ok : Bool) (g : Globals) (pc : ProbePc)
    (before : g.hwAddr = .mapped ↔ (Pci.probing pc).maps = true) :
    (probe ok g pc).1.hwAddr = .mapped ↔ (probe ok g pc).2.maps = true := by
  cases pc with
  | request => cases ok <;> exact before
  | map => cases ok <;> exact ⟨fun same => by cases same <;> rfl, fun same => by cases same <;> rfl⟩
  | _ => exact before

theorem MappedWhile.step {s t : State} {l : Label} (inv : MappedWhile s)
    (unloaded : s.phase = .unloaded → s.pci = .unbound) (moved : Step s l t) : MappedWhile t := by
  unfold MappedWhile at inv ⊢
  cases moved with
  | load phase =>
      simp only [Globals.loaded, unloaded phase, Pci.maps, reduceCtorEq, Bool.false_eq_true]
  | probe _ pci =>
      rw [pci] at inv
      exact inv
  | @probeStep ok pc pci =>
      rw [pci] at inv
      exact mappedWhile_probe ok s.g pc inv
  | unbind _ pci =>
      rw [pci] at inv
      exact inv
  | @removeStep pc pci =>
      rw [pci] at inv
      cases pc with
      | unmap => exact ⟨nofun, nofun⟩
      | release => exact inv
  | move _ statement => rw [statement.hwAddr]; exact inv
  | @callback pc running => rw [myCallback_hwAddr]; exact inv
  | exitStep statement =>
      cases statement with
      | remove _ pci =>
          rw [pci] at inv
          exact inv
      | _ => exact inv
  | _ => exact inv

/-! ## The timer -/

/-- A call leaves the timer alone, initialises it, or arms it. -/
theorem CallStep.timer {g g' : Globals} {c c' : Call} (statement : CallStep g c g' c') :
    g'.timer = g.timer ∨ g'.timer = g.timer.setup ∨ c = .opening .arm := by
  cases statement with
  | opening statement =>
      cases statement with
      | setup => exact Or.inr (Or.inl rfl)
      | arm => exact Or.inr (Or.inr rfl)
      | _ => exact Or.inl rfl
  | reading => exact Or.inl rfl
  | writing => exact Or.inl rfl

theorem probe_timer (ok : Bool) (g : Globals) (pc : ProbePc) :
    (probe ok g pc).1.timer = g.timer := by
  cases pc with
  | map => cases ok <;> rfl
  | _ => rfl

theorem remove_timer (g : Globals) (pc : RemovePc) : (remove g pc).1.timer = g.timer := by
  cases pc <;> rfl

/-- Only the mapping of a probe changes `hw_addr`. -/
theorem probe_hwAddr {ok : Bool} {g : Globals} {pc : ProbePc} (other : pc ≠ .map) :
    (probe ok g pc).1.hwAddr = g.hwAddr := by
  cases pc with
  | map => exact (other rfl).elim
  | _ => rfl

/-- `del_timer` has been executed and the module has not been loaded again. -/
def Phase.pastDelete : Phase → Bool
  | .live | .exiting .delTimer => false
  | .exiting .unregister | .exiting .cleanup | .unloaded => true

/-- What holds in every state of a careful run. -/
structure TimerInv (s : State) : Prop where
  mapping : MappedWhile s
  unbound : s.phase.registered = false → s.pci = .unbound
  active : ¬ s.TimerOff → s.g.hwAddr = .mapped
  deleted : s.phase.pastDelete = true → s.TimerOff
  done : s.phase ≠ .live → ∀ c ∈ s.calls, c.done = true

theorem timerInv_off (ledctl : BitVec 32) : TimerInv (.off ledctl) where
  mapping := ⟨nofun, nofun⟩
  unbound _ := rfl
  active running := (running ⟨Timer.quiet_blank, rfl⟩).elim
  deleted _ := ⟨Timer.quiet_blank, rfl⟩
  done _ := nofun

section Step

variable {s t : State} {l : Label}

theorem TimerInv.live_of_move (inv : TimerInv s) {i : Nat} {g' : Globals} {c c' : Call}
    (slot : s.calls[i]? = some c) (statement : CallStep s.g c g' c') : s.phase = .live := by
  by_contra ending
  have done := inv.done ending c (List.mem_of_getElem? slot)
  rw [statement.not_done] at done
  cases done

theorem TimerInv.unbound_step (inv : TimerInv s) (moved : Step s l t) :
    t.phase.registered = false → t.pci = .unbound := by
  cases moved with
  | load => nofun
  | probe registered => exact fun gone => absurd (registered.symm.trans gone) nofun
  | probeStep pci => exact fun gone => absurd (pci.symm.trans (inv.unbound gone)) nofun
  | unbind registered => exact fun gone => absurd (registered.symm.trans gone) nofun
  | removeStep pci => exact fun gone => absurd (pci.symm.trans (inv.unbound gone)) nofun
  | exit => nofun
  | exitStep statement =>
      cases statement with
      | delTimer => nofun
      | remove phase => exact fun gone => absurd (phase ▸ gone) nofun
      | unregister _ pci => exact fun _ => pci
      | cleanup phase => exact fun _ => inv.unbound (by rw [phase]; rfl)
  | _ => exact inv.unbound

theorem TimerInv.active_step (inv : TimerInv s) (careful : Careful s l) (moved : Step s l t) :
    ¬ t.TimerOff → t.g.hwAddr = .mapped := by
  cases moved with
  | load phase =>
      have off := inv.deleted (by rw [phase]; rfl)
      exact fun running => (running ⟨off.1.renew, off.2⟩).elim
  | @probeStep ok pc pci =>
      intro running
      rw [State.TimerOff, probe_timer] at running
      have mapped := inv.active running
      by_cases mapping : pc = .map
      · -- a probe that is about to map finds nothing mapped
        subst mapping
        have maps := inv.mapping.mp mapped
        rw [pci] at maps
        cases maps
      · exact (probe_hwAddr mapping).trans mapped
  | @removeStep pc pci =>
      intro running
      rw [State.TimerOff, remove_timer] at running
      cases pc with
      | unmap => exact (running (careful pci)).elim
      | release => exact inv.active running
  | @move i ok g' c c' slot statement =>
      intro running
      rw [statement.hwAddr]
      rcases statement.timer with same | initialised | rfl
      · rw [State.TimerOff, same] at running
        exact inv.active running
      · rw [State.TimerOff, initialised] at running
        exact inv.active fun off => running ⟨off.1.setup, off.2⟩
      · exact careful slot
  | @expire entry timer rest fired =>
      exact fun _ => inv.active fun off => absurd (fired.symm.trans (off.1.fire entry)) nofun
  | @callback pc running =>
      intro _
      rw [myCallback_hwAddr]
      exact inv.active fun off => absurd (running.symm.trans off.2) nofun
  | exitStep statement =>
      cases statement with
      | delTimer phase =>
          obtain ⟨rest, stale⟩ := careful phase
          exact fun running => (running ⟨Timer.quiet_delete stale, rest⟩).elim
      | _ => exact inv.active
  | _ => exact inv.active

theorem TimerInv.deleted_step (inv : TimerInv s) (careful : Careful s l) (moved : Step s l t) :
    t.phase.pastDelete = true → t.TimerOff := by
  cases moved with
  | load => nofun
  | @probeStep ok pc pci =>
      intro past
      rw [State.TimerOff, probe_timer]
      exact inv.deleted past
  | @removeStep pc pci =>
      intro past
      rw [State.TimerOff, remove_timer]
      exact inv.deleted past
  | move slot statement =>
      have live := inv.live_of_move slot statement
      exact fun past => absurd (live ▸ past) nofun
  | @expire entry timer rest fired =>
      intro past
      have off := inv.deleted past
      exact absurd (fired.symm.trans (off.1.fire entry)) nofun
  | callback running =>
      intro past
      exact absurd (running.symm.trans (inv.deleted past).2) nofun
  | exit => nofun
  | exitStep statement =>
      cases statement with
      | delTimer phase =>
          obtain ⟨rest, stale⟩ := careful phase
          exact fun _ => ⟨Timer.quiet_delete stale, rest⟩
      | remove phase => exact fun _ => inv.deleted (by rw [phase]; rfl)
      | unregister phase => exact fun _ => inv.deleted (by rw [phase]; rfl)
      | cleanup phase => exact fun _ => inv.deleted (by rw [phase]; rfl)
  | _ => exact inv.deleted

theorem TimerInv.done_step (inv : TimerInv s) (moved : Step s l t) :
    t.phase ≠ .live → ∀ c ∈ t.calls, c.done = true := by
  cases moved with
  | load => exact fun _ => nofun
  | start phase => exact fun ending => (ending phase).elim
  | move slot statement =>
      exact fun ending => (ending (inv.live_of_move slot statement)).elim
  | close slot =>
      intro ending c member
      rcases List.mem_or_eq_of_mem_set member with before | rfl
      · exact inv.done ending c before
      · rfl
  | exit _ done => exact fun _ => List.all_eq_true.mp done
  | exitStep statement =>
      cases statement with
      | delTimer phase => exact fun _ => inv.done (by rw [phase]; nofun)
      | remove phase => exact fun _ => inv.done (by rw [phase]; nofun)
      | unregister phase => exact fun _ => inv.done (by rw [phase]; nofun)
      | cleanup phase => exact fun _ => inv.done (by rw [phase]; nofun)
  | _ => exact inv.done

theorem TimerInv.step (inv : TimerInv s) (careful : Careful s l) (moved : Step s l t) :
    TimerInv t where
  mapping := inv.mapping.step (fun phase => inv.unbound (by rw [phase]; rfl)) moved
  unbound := inv.unbound_step moved
  active := inv.active_step careful moved
  deleted := inv.deleted_step careful moved
  done := inv.done_step moved

end Step

/-! ## Whole runs -/

section Runs

variable {ledctl : BitVec 32} {t : State} {trace : List (State × Label)}

theorem timerInv_of_run (run : Run step (.off ledctl) trace t) (careful : Meets Careful trace) :
    ∀ u ∈ visited trace t, TimerInv u :=
  run.invariant_visited
    (fun _ _ _ inv careful moved => TimerInv.step inv careful (Step.of_step moved))
    careful (timerInv_off ledctl)

/-- **The timer goes first.** In every run over any order of loads, probes,
opens, reads, writes, expiries, unbinds and exits in which opens arm the timer
only while the registers are mapped, the registers are unmapped only while the
timer is off, and `del_timer` finds the callback at rest, `my_callback` stores to
mapped registers only, and whenever the module is not loaded the timer is off. -/
theorem not_outlived (run : Run step (.off ledctl) trace t) (careful : Meets Careful trace) :
    NotOutlived trace t where
  device := by
    intro entry member stores
    have inv := timerInv_of_run run careful entry.1 (mem_visited_of_mem member)
    exact inv.active fun off => absurd (stores.2.symm.trans off.2) nofun
  module := by
    intro u passed phase
    exact (timerInv_of_run run careful u passed).deleted (by rw [phase]; rfl)

end Runs

/-- A store that finds the registers unmapped is all it takes. -/
theorem outlived_of_store {s u : State} {trace : List (State × Label)} (run : Run step s trace u)
    (running : u.callback = some .writeLed) (gone : u.g.hwAddr ≠ .mapped) :
    ∃ t trace, Run step s trace t ∧ ¬ NotOutlived trace t ∧ t.g.hwAddr = u.g.hwAddr := by
  have edge : step u .callbackStep = some { u with
      g := (myCallback u.g .writeLed).1, callback := (myCallback u.g .writeLed).2 } := by
    simp only [step, running, Option.map_some]
  refine ⟨_, _, run.snoc edge, fun fine => gone ?_, rfl⟩
  exact fine.device (u, .callbackStep) (List.mem_append_right _ (List.mem_singleton_self _))
    ⟨rfl, running⟩

/-- The module is loaded with a blink rate of 2 and its probe succeeds. -/
def bringUp : List Label :=
  [.load 2, .probe, .probeStep true, .probeStep true, .probeStep true]

/-- Process `i` opens the file; no other call begins meanwhile. -/
def opened (i : Nat) : List Label := .start .openFile :: List.replicate 7 (.move i true)

/-- An expiry and the whole callback. -/
def blink : List Label := .expire .current :: List.replicate 4 .callbackStep

/-- `example5_exit` of a module whose device is bound. -/
def takenDown : List Label :=
  [.exit, .exitStep, .exitStep, .removeStep, .removeStep, .exitStep, .exitStep]

/-- A careful life: an open, two expiries, and an exit between expiries. -/
theorem not_outlived_by_blinking :
    ∃ t trace, Run step (.off 0x800000) trace t ∧ t.phase = .unloaded ∧ NotOutlived trace t := by
  obtain ⟨t, trace, run, -, phase⟩ := Run.of_exec_any (restrict Careful step) (.off 0x800000)
    (bringUp ++ opened 0 ++ blink ++ .close 0 :: blink ++ takenDown)
    (fun t => t.phase = .unloaded) (by decide +kernel)
  obtain ⟨run, careful⟩ := run.of_restrict
  exact ⟨t, trace, run, phase, not_outlived run careful⟩

/-- The callback stores through an address that is gone after an unbind, and
through `NULL` when there has never been a device; and the timer is armed after
an exit whose `del_timer` found the callback running. -/
theorem timer_outlives :
    (∃ t trace, Run step (.off 0) trace t ∧ ¬ NotOutlived trace t ∧ t.g.hwAddr = .unmapped) ∧
      (∃ t trace, Run step (.off 0) trace t ∧ ¬ NotOutlived trace t ∧ t.g.hwAddr = .null) ∧
      ∃ t trace, Run step (.off 0) trace t ∧ ¬ NotOutlived trace t ∧
        t.phase = .unloaded ∧ t.g.timer.armed = some 1000 := by
  refine ⟨?_, ?_, ?_⟩
  · obtain ⟨u, trace, run, -, running, gone⟩ := Run.of_exec_any step (.off 0)
      (bringUp ++ opened 0 ++ [.unbind, .removeStep, .removeStep, .expire .current, .callbackStep])
      (fun u => u.callback = some .writeLed ∧ u.g.hwAddr = .unmapped) (by decide +kernel)
    obtain ⟨t, trace, run, outlived, same⟩ := outlived_of_store run running (by rw [gone]; nofun)
    exact ⟨t, trace, run, outlived, same.trans gone⟩
  · obtain ⟨u, trace, run, -, running, gone⟩ := Run.of_exec_any step (.off 0)
      (.load 2 :: opened 0 ++ [.expire .current, .callbackStep])
      (fun u => u.callback = some .writeLed ∧ u.g.hwAddr = .null) (by decide +kernel)
    obtain ⟨t, trace, run, outlived, same⟩ := outlived_of_store run running (by rw [gone]; nofun)
    exact ⟨t, trace, run, outlived, same.trans gone⟩
  · obtain ⟨t, trace, run, -, phase, armed⟩ := Run.of_exec_any step (.off 0)
      (bringUp ++ opened 0 ++ .close 0 :: .expire .current :: takenDown ++
        List.replicate 3 .callbackStep)
      (fun t => t.phase = .unloaded ∧ t.g.timer.armed = some 1000) (by decide +kernel)
    refine ⟨t, trace, run, fun fine => ?_, phase, armed⟩
    have off := fine.module t (mem_visited_end trace t) phase
    exact absurd (armed.symm.trans off.1.1) nofun

end BlinkDriver.Hw5
