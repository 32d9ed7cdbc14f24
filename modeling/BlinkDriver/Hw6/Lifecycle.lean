import BlinkDriver.Lib.Transition
import BlinkDriver.Hw6.Facts

/-!
# Use before setup and after teardown

* `safe_of_careful`: every access is to something that is there, provided that
  reads only happen while the registers are mapped, that the worker is at rest
  when a remove begins to free the ring, that the allocation of `test_wq`
  succeeds and that an exit comes after it. Nothing in the source sees to any of
  the four.
* `exit_without_device`, `work_after_remove`: two runs that go wrong.

`LifeInv` carries the knowledge of `Facts` along with what the driver core does,
so that a running handler, a work item and a read always find what they need.
-/

namespace BlinkDriver.Hw6

open Transition

/-! ## The invariant -/

/-- The knowledge belongs to what the core does. -/
def Facts.Follows (f : Facts) : DevPc → Prop
  | .unbound => f = .unbound
  | .probing rest => guarded rest f = true
  | .failing rest => straight .failing rest f = true
  | .bound => f = .bound
  | .removing rest => straight .removing rest f = true
  | .dead => f.consistent = true

structure LifeInv (s : Life) : Prop where
  known : ∃ f : Facts, f.Hold s ∧ f.Follows s.dev
  handler : s.sys.irq ≠ .idle → s.Requested
  readers : ∀ u ∈ s.users, u.reading = true → s.Mapped
  closed : s.module ≠ .live → ∀ u ∈ s.users, u = .closed
  absent : s.module = .unloaded ∨ s.module = .cleanup → s.dev = .unbound
  exiting : s.module = .cancelWork → s.Allocated

namespace Facts

variable {f : Facts}

theorem guarded_cons {op : Op} {rest : List Op} (fits : guarded (op :: rest) f = true) :
    f.consistent = true ∧ op.allowed .probing f = true ∧ guarded rest (op.after true f) = true ∧
      ∀ label, op.exit = some label → straight .failing label (op.after false f) = true := by
  simp only [guarded, Bool.and_eq_true] at fits
  refine ⟨fits.1.1.1, fits.1.1.2, fits.1.2, fun label exits => ?_⟩
  simpa only [exits] using fits.2

theorem straight_cons {phase : Phase} {op : Op} {rest : List Op}
    (fits : straight phase (op :: rest) f = true) :
    f.consistent = true ∧ op.allowed phase f = true ∧
      straight phase rest (op.after true f) = true := by
  simpa only [straight, Bool.and_eq_true, and_assoc] using fits

theorem Follows.consistent {dev : DevPc} (follows : f.Follows dev) : f.consistent = true := by
  cases dev with
  | unbound => cases follows; rfl
  | bound => cases follows; rfl
  | dead => exact follows
  | probing rest =>
      cases rest with
      | nil =>
          simp only [Follows, guarded, Bool.and_eq_true] at follows
          exact follows.1.1.1
      | cons => exact (guarded_cons follows).1
  | failing rest | removing rest =>
      cases rest with
      | nil =>
          simp only [Follows, straight, Bool.and_eq_true] at follows
          exact follows.1.1.1
      | cons => exact (straight_cons follows).1

theorem consistent_irq (fits : f.consistent = true) (irq : f.irq = true) :
    f.busy = true ∧ f.mapped = true ∧ f.wq = true := by
  simp only [consistent, irq, Bool.true_or, Bool.not_true, Bool.false_or, Bool.and_eq_true] at fits
  exact ⟨fits.2, fits.1.1.1, fits.1.1.2⟩

theorem consistent_busy (fits : f.consistent = true) (busy : f.busy = true) :
    f.mapped = true ∧ f.ready = true := by
  simp only [consistent, busy, Bool.or_true, Bool.not_true, Bool.false_or, Bool.and_eq_true] at fits
  exact ⟨fits.1.1.1, fits.1.2⟩

namespace Hold

variable {s t : Life}

/-- What is known holds of a state with the same world in which the work item is
at rest if it was. -/
theorem of_same (hold : f.Hold s) (world : t.world = s.world)
    (rest : s.WorkAtRest → t.WorkAtRest) : f.Hold t := by
  obtain ⟨world', _, _, _, _⟩ := t
  cases world
  exact ⟨hold.mapped, hold.single, hold.clear, hold.wq, hold.owner, hold.ready, hold.line,
    hold.irq, fun quiet => rest (hold.busy quiet)⟩

theorem unbound (hold : f.Hold s) (clear : f.clear = true) (irq : f.irq = false)
    (busy : f.busy = false) : Facts.unbound.Hold s :=
  ⟨nofun, hold.single, fun _ => hold.clear clear, nofun, hold.owner, nofun, hold.line,
    fun _ => hold.irq irq, fun _ => hold.busy busy⟩

theorem bound (hold : f.Hold s) (mapped : f.mapped = true) (wq : f.wq = true)
    (ready : f.ready = true) : Facts.bound.Hold s :=
  ⟨fun _ => hold.mapped mapped, hold.single, nofun, fun _ => hold.wq wq, hold.owner,
    fun _ => hold.ready ready, hold.line, nofun, nofun⟩

/-- Nothing is mapped when that is known. -/
theorem not_mapped (hold : f.Hold s) (clear : f.clear = true) : ¬ s.Mapped := by
  intro mapped
  have held := mapped.2
  rw [hold.clear clear] at held
  exact lt_irrefl 0 held

/-- An installed handler may be running. -/
theorem requested (hold : f.Hold s) (requested : s.Requested) : f.irq = true := by
  by_contra none
  rw [Life.Requested, hold.irq (Bool.eq_false_iff.mpr none)] at requested
  exact lt_irrefl 0 requested

theorem working (hold : f.Hold s) (working : ¬ s.WorkAtRest) : f.busy = true := by
  by_contra none
  exact working (hold.busy (Bool.eq_false_iff.mpr none))

end Hold

end Facts

namespace LifeInv

variable {s : Life}

/-- The handler finds the registers and `test_wq`. -/
theorem of_handler (inv : LifeInv s) (running : s.sys.irq ≠ .idle) : s.Mapped ∧ s.Allocated := by
  obtain ⟨f, hold, follows⟩ := inv.known
  have irq := hold.requested (inv.handler running)
  obtain ⟨-, mapped, wq⟩ := Facts.consistent_irq follows.consistent irq
  exact ⟨hold.mapped mapped, hold.wq wq⟩

/-- A work item that is not at rest finds the registers and the ring. -/
theorem of_work (inv : LifeInv s) (working : ¬ s.WorkAtRest) : s.Mapped ∧ s.Ready := by
  obtain ⟨f, hold, follows⟩ := inv.known
  obtain ⟨mapped, ready⟩ := Facts.consistent_busy follows.consistent (hold.working working)
  exact ⟨hold.mapped mapped, hold.ready ready⟩

end LifeInv

/-- Before the first load nothing is there. -/
theorem Life.Fresh.inv {s : Life} (fresh : s.Fresh) : LifeInv s := by
  obtain ⟨world, irq, work, queued, dev, module, users⟩ := fresh
  have unmapped : s.world.ledger.held (device, .mapping) = 0 := by rw [world]; rfl
  have unheld : s.world.ledger.held (device, .irq) = 0 := by rw [world]; rfl
  have ring : s.world.rxRing = none := by rw [world]; rfl
  refine ⟨⟨.unbound, ⟨nofun, unmapped.le.trans (Nat.zero_le _), fun _ => unmapped, nofun, ?_, nofun,
    unheld.le.trans (Nat.zero_le _), fun _ => unheld, fun _ => ⟨queued, work⟩⟩, ?_⟩, ?_, ?_, ?_,
    ?_, ?_⟩
  · intro d there
    rw [ring] at there
    cases there
  · rw [dev]
    rfl
  · exact fun running => (running irq).elim
  · intro u member
    rw [users] at member
    cases member
  · intro _ u member
    rw [users] at member
    cases member
  · exact fun _ => dev
  · intro cancelling
    rw [module] at cancelling
    cases cancelling

/-! ## One step -/

namespace LifeInv

variable {s : Life}

/-- A change of users only. -/
theorem with_users (inv : LifeInv s) {users : List UserPc}
    (readers : ∀ u ∈ users, u.reading = true → s.Mapped)
    (closed : s.module ≠ .live → ∀ u ∈ users, u = .closed) : LifeInv { s with users } := by
  obtain ⟨f, hold, follows⟩ := inv.known
  exact ⟨⟨f, hold.of_same rfl id, follows⟩, inv.handler, readers, closed, inv.absent, inv.exiting⟩

/-- One user goes on to `u`. -/
theorem set_user (inv : LifeInv s) {i : Nat} {u : UserPc} (reads : u.reading = true → s.Mapped)
    (live : s.module ≠ .live → u = .closed) : LifeInv { s with users := s.users.set i u } := by
  refine inv.with_users (fun v member => ?_) (fun gone v member => ?_)
  · rcases List.mem_or_eq_of_mem_set member with before | rfl
    · exact inv.readers v before
    · exact reads
  · rcases List.mem_or_eq_of_mem_set member with before | rfl
    · exact inv.closed gone v before
    · exact live gone

/-- A file that is not closed is open in a live module. -/
theorem live_of_user (inv : LifeInv s) {i : Nat} {u : UserPc} (user : s.users[i]? = some u)
    (opened : u ≠ .closed) : s.module = .live := by
  by_contra gone
  exact opened (inv.closed gone u (List.mem_of_getElem? user))

/-- A move of the device, the handler or the worker that starts no handler unless
it is installed and wakes the work item only from a running handler. -/
theorem with_sys (inv : LifeInv s) {sys : State}
    (handler : sys.irq ≠ .idle → s.Requested)
    (work : s.sys.irq = .idle → s.WorkAtRest → { s with sys }.WorkAtRest) :
    LifeInv { s with sys } := by
  obtain ⟨f, hold, follows⟩ := inv.known
  refine ⟨⟨f, ⟨hold.mapped, hold.single, hold.clear, hold.wq, hold.owner, hold.ready, hold.line,
    hold.irq, fun quiet => ?_⟩, follows⟩, handler, inv.readers, inv.closed, inv.absent,
    inv.exiting⟩
  refine work ?_ (hold.busy quiet)
  by_contra running
  have irq := hold.requested (inv.handler running)
  rw [(Facts.consistent_irq follows.consistent irq).1] at quiet
  cases quiet

/-- A change of registers only. -/
theorem with_regs (inv : LifeInv s) (regs : Regs) :
    LifeInv { s with sys := { s.sys with regs } } :=
  inv.with_sys inv.handler fun _ rest => rest

/-- The moves of the running driver. -/
theorem sys_step (inv : LifeInv s) {l : Label} {sys : State} (moved : Step s.sys l sys)
    (installed : l = .interrupt → s.Requested) : LifeInv { s with sys } := by
  cases moved with
  | receive | raise | poke => exact inv.with_sys inv.handler fun _ rest => rest
  | interrupt => exact inv.with_sys (fun _ => installed rfl) fun _ rest => rest
  | irq access =>
      exact inv.with_sys (fun _ => inv.handler access.running) fun idle =>
        (access.running idle).elim
  | dispatch ready =>
      refine inv.with_sys inv.handler fun _ rest => ?_
      rw [rest.1] at ready
      cases ready
  | work access =>
      have same : sys.irq = s.sys.irq := by cases access <;> rfl
      exact inv.with_sys (same ▸ inv.handler) fun _ rest => (access.running rest.2).elim

end LifeInv

/-- What a step of the core guarantees besides what is known: a probe allocates
`test_wq`, and a remove waits for the handler and meets `Careful`. -/
structure Life.Timely (s : Life) (outcome : Option (BitVec 64)) (phase : Phase) (op : Op) :
    Prop where
  came : phase = .probing → op = .kmallocTestWq → outcome.isSome = true
  waits : phase = .removing → op = .freeIrq → s.sys.irq = .idle
  rest : phase = .removing → op = .dmaUnmapSingle 0 → s.WorkAtRest
  quiet : phase = .removing → op = .iounmap → ∀ u ∈ s.users, u.reading = false

section Operation

variable {s : Life} {f : Facts} {phase : Phase} {op : Op} {outcome : Option (BitVec 64)}
  {w : World}

theorem Life.Timely.probing (came : op = .kmallocTestWq → outcome.isSome = true) :
    s.Timely outcome .probing op :=
  ⟨fun _ => came, by simp, by simp, by simp⟩

theorem Life.Timely.failing : s.Timely outcome .failing op :=
  ⟨by simp, by simp, by simp, by simp⟩

theorem Life.Timely.removing (waits : op = .freeIrq → s.sys.irq = .idle)
    (rest : op = .dmaUnmapSingle 0 → s.WorkAtRest)
    (quiet : op = .iounmap → ∀ u ∈ s.users, u.reading = false) : s.Timely outcome .removing op :=
  ⟨by simp, fun _ => waits, fun _ => rest, fun _ => quiet⟩

namespace LifeInv

/-- The first descriptor is freed only when the work item is at rest. -/
theorem workAtRest (hold : f.Hold s) (allowed : op.allowed phase f = true)
    (timely : s.Timely outcome phase op) (i : Fin 16) (frees : op = .dmaUnmapSingle i) :
    s.WorkAtRest := by
  subst frees
  simp only [Op.allowed, Bool.and_eq_true, Bool.or_eq_true, Bool.not_eq_true',
    decide_eq_true_eq] at allowed
  rcases allowed.2 with resting | ⟨removing, first⟩
  · exact hold.busy resting
  · exact timely.rest removing (congrArg _ (Fin.ext first))

/-- The handler stays installed while it runs. -/
theorem handler_after (inv : LifeInv s) (allowed : op.allowed phase f = true)
    (timely : s.Timely outcome phase op) (done : op.exec device outcome s.world = some w)
    (running : s.sys.irq ≠ .idle) : 0 < w.ledger.held (device, .irq) := by
  have keeps : op.releases ≠ some .irq := by
    intro drops
    obtain rfl := Op.releases_irq drops
    simp only [Op.allowed, Bool.and_eq_true, decide_eq_true_eq] at allowed
    exact running (timely.waits allowed.1 rfl)
  exact (inv.handler running).trans_le ((Op.exec_entry done).held_le keeps device)

/-- The registers stay mapped while they are read. -/
theorem readers_after (inv : LifeInv s) (hold : f.Hold s) (allowed : op.allowed phase f = true)
    (timely : s.Timely outcome phase op) (done : op.exec device outcome s.world = some w)
    {u : UserPc} (member : u ∈ s.users) (reading : u.reading = true) :
    w.hwAddr = some device ∧ 0 < w.ledger.held (device, .mapping) := by
  have mapped := inv.readers u member reading
  by_cases maps : op = .ioremap
  · subst maps
    simp only [Op.allowed, Bool.and_eq_true] at allowed
    exact (hold.not_mapped allowed.1.1.2 mapped).elim
  · by_cases unmaps : op = .iounmap
    · subst unmaps
      simp only [Op.allowed, Bool.and_eq_true] at allowed
      by_cases removing : phase = .removing
      · rw [timely.quiet removing rfl u member] at reading
        cases reading
      · rw [if_neg removing] at allowed
        exact (hold.not_mapped allowed.2 mapped).elim
    · refine ⟨((Op.exec_frame done).hwAddr maps).trans mapped.1, mapped.2.trans_le ?_⟩
      exact (Op.exec_entry done).held_le (fun drops => unmaps (Op.releases_mapping drops)) device

/-- `test_wq` stays allocated while the module exits. -/
theorem exiting_after (inv : LifeInv s) (allowed : op.allowed phase f = true)
    (timely : s.Timely outcome phase op) (done : op.exec device outcome s.world = some w)
    (cancelling : s.module = .cancelWork) : w.testWq.isSome = true := by
  by_cases allocates : op = .kmallocTestWq
  · subst allocates
    simp only [Op.allowed, Bool.and_eq_true, decide_eq_true_eq] at allowed
    exact Op.exec_kmallocTestWq done (timely.came allowed.1.1 rfl)
  · rw [(Op.exec_frame done).testWq allocates]
    exact inv.exiting cancelling

/-- One operation of a probe or remove. -/
theorem op_step (inv : LifeInv s) {dev : DevPc} (hold : f.Hold s)
    (allowed : op.allowed phase f = true) (timely : s.Timely outcome phase op)
    (done : op.exec device outcome s.world = some w) (present : s.dev ≠ .unbound)
    (follows : (op.after outcome.isSome f).Follows dev) : LifeInv (s.after op w dev) where
  known := ⟨_, hold.after allowed (workAtRest hold allowed timely) done dev, follows⟩
  handler := inv.handler_after allowed timely done
  readers := fun _ => inv.readers_after hold allowed timely done
  closed := inv.closed
  absent := fun gone => (present (inv.absent gone)).elim
  exiting := inv.exiting_after allowed timely done

end LifeInv

end Operation

namespace LifeInv

variable {s : Life}

/-- The core begins or ends something with the device. -/
theorem with_dev (inv : LifeInv s) {f : Facts} {dev : DevPc} (hold : f.Hold s)
    (follows : f.Follows dev)
    (present : s.dev ≠ .unbound ∨ s.module ≠ .unloaded ∧ s.module ≠ .cleanup) :
    LifeInv { s with dev } := by
  refine ⟨⟨f, hold.of_same rfl id, follows⟩, inv.handler, inv.readers, inv.closed, fun gone => ?_,
    inv.exiting⟩
  rcases present with bound | loaded
  · exact (bound (inv.absent gone)).elim
  · exact (gone.elim loaded.1 loaded.2).elim

theorem dev_step (inv : LifeInv s) {outcome : Option (BitVec 64)} {t : Life}
    (careful : s.Careful (.devStep outcome)) (moved : DevStep s outcome t) : LifeInv t := by
  obtain ⟨f, hold, follows⟩ := inv.known
  cases moved with
  | bind pc =>
      rw [pc] at follows
      simp only [Facts.Follows, guarded, Bool.and_eq_true] at follows
      have bound := hold.bound follows.1.1.2 follows.1.2 follows.2
      exact inv.with_dev bound rfl (Or.inl (by simp [pc]))
  | release pc =>
      have ends : f.clear = true ∧ f.irq = false ∧ f.busy = false := by
        rcases pc with pc | pc
        all_goals
          rw [pc] at follows
          simp only [Facts.Follows, straight, Bool.and_eq_true, Bool.not_eq_true'] at follows
          exact ⟨follows.1.1.2, follows.1.2, follows.2⟩
      exact inv.with_dev (hold.unbound ends.1 ends.2.1 ends.2.2) rfl
        (Or.inl (by rcases pc with pc | pc <;> simp [pc]))
  | die pc =>
      exact inv.with_dev hold follows.consistent
        (Or.inl (by rcases pc with pc | pc | pc <;> simp [pc]))
  | @goto op rest label w pc done failed exits =>
      rw [pc] at follows
      obtain ⟨-, allowed, -, leaves⟩ := Facts.guarded_cons follows
      refine inv.op_step hold allowed (.probing ?_) done (by simp [pc]) ?_
      · intro same
        subst same
        cases exits
      · rw [failed]
        exact leaves label exits
  | @probe op rest w pc done stays =>
      rw [pc] at follows
      simp only [Life.Careful, pc] at careful
      obtain ⟨-, allowed, next, -⟩ := Facts.guarded_cons follows
      have came : op = .kmallocTestWq → outcome.isSome = true := by
        intro same
        subst same
        exact careful
      refine inv.op_step hold allowed (.probing came) done (by simp [pc]) ?_
      have same : op.after outcome.isSome f = op.after true f := by
        rcases stays with succeeded | passes
        · rw [succeeded]
        · by_cases allocates : op = .kmallocTestWq
          · rw [came allocates]
          · refine Op.after_eq _ _ ?_ allocates
            intro same
            subst same
            cases passes
      rw [same]
      exact next
  | @fail op rest w pc done =>
      rw [pc] at follows
      obtain ⟨-, allowed, next⟩ := Facts.straight_cons follows
      refine inv.op_step hold allowed .failing done (by simp [pc]) ?_
      rw [Op.after_eq_of_allowed _ _ allowed (by simp)]
      exact next
  | @remove op rest w pc waits done =>
      rw [pc] at follows
      simp only [Life.Careful, pc] at careful
      obtain ⟨-, allowed, next⟩ := Facts.straight_cons follows
      refine inv.op_step hold allowed (.removing waits ?_ ?_) done (by simp [pc]) ?_
      · intro same
        subst same
        exact careful rfl
      · intro same
        subst same
        exact careful
      · rw [Op.after_eq_of_allowed _ _ allowed (by simp)]
        exact next

/-- The module goes on when all files are closed. -/
theorem with_module (inv : LifeInv s) {module : ModPc} (closed : ∀ u ∈ s.users, u = .closed)
    (absent : module = .unloaded ∨ module = .cleanup → s.dev = .unbound)
    (exiting : module = .cancelWork → s.Allocated) : LifeInv { s with module } := by
  obtain ⟨f, hold, follows⟩ := inv.known
  exact ⟨⟨f, hold.of_same rfl id, follows⟩, inv.handler, inv.readers, fun _ => closed, absent,
    exiting⟩

/-- The core removes a bound device. -/
theorem remove (inv : LifeInv s) (bound : s.dev = .bound) :
    LifeInv { s with dev := .removing pciBlinkDriverRemove } := by
  obtain ⟨f, hold, follows⟩ := inv.known
  rw [bound] at follows
  cases follows
  exact inv.with_dev hold straight_remove (Or.inl (by simp [bound]))

theorem exit_step (inv : LifeInv s) {t : Life} (moved : s.exitStep = some t) : LifeInv t := by
  have closed : s.module ≠ .live → ∀ u ∈ s.users, u = .closed := inv.closed
  unfold Life.exitStep at moved
  split at moved
  case h_1 cancelling =>
      rw [cancelling] at closed
      split at moved
      · cases moved
        have quiet : LifeInv { s with sys := { s.sys with queued := false } } :=
          inv.with_sys inv.handler fun _ rest => ⟨rfl, rest.2⟩
        exact quiet.with_module (closed (by simp)) (by simp) (by simp)
      · cases moved
  case h_2 unregistering =>
      rw [unregistering] at closed
      split at moved
      · rename_i bound
        cases moved
        exact inv.remove bound
      · rename_i unbound
        cases moved
        exact inv.with_module (closed (by simp)) (fun _ => unbound) (by simp)
      · cases moved
  case h_3 cleaning =>
      rw [cleaning] at closed
      cases moved
      exact inv.with_module (closed (by simp)) (fun _ => inv.absent (Or.inr cleaning)) (by simp)
  case h_4 => cases moved

theorem load (inv : LifeInv s) (unloaded : s.module = .unloaded) :
    LifeInv { s with
      module := .live
      world := { s.world with hwAddr := none, testWq := none, rxRing := none } } := by
  obtain ⟨f, hold, follows⟩ := inv.known
  have unbound := inv.absent (Or.inl unloaded)
  have gone : s.module ≠ .live := by simp [unloaded]
  rw [unbound] at follows
  cases follows
  refine ⟨⟨.unbound, ⟨nofun, hold.single, hold.clear, nofun, nofun, nofun, hold.line, hold.irq,
    hold.busy⟩, ?_⟩, inv.handler, fun u member reading => ?_, fun live => (live rfl).elim, nofun,
    nofun⟩
  · rw [unbound]
    rfl
  · rw [inv.closed gone u member] at reading
    cases reading

/-- **The step.** -/
theorem step (inv : LifeInv s) {e : Event} {t : Life} (careful : s.Careful e)
    (moved : s.step e = some t) : LifeInv t := by
  cases e with
  | load =>
      simp only [Life.step] at moved
      split at moved
      · rename_i unloaded
        cases moved
        exact inv.load unloaded
      · cases moved
  | openFile =>
      simp only [Life.step] at moved
      split at moved
      · rename_i live
        cases moved
        refine inv.with_users (fun u member reading => ?_) fun gone => (gone live).elim
        rcases List.mem_append.mp member with before | new
        · exact inv.readers u before reading
        · cases List.mem_singleton.mp new
          cases reading
      · cases moved
  | closeFile i =>
      simp only [Life.step] at moved
      split at moved
      · cases moved
        exact inv.set_user (by simp [UserPc.reading]) fun _ => rfl
      · cases moved
  | read i =>
      simp only [Life.step] at moved
      split at moved
      · rename_i user
        cases moved
        have live := inv.live_of_user user (by simp)
        exact inv.set_user (fun _ => careful) fun gone => (gone live).elim
      · cases moved
  | readStep i =>
      simp only [Life.step] at moved
      split at moved
      · rename_i user
        cases moved
        have mapped := inv.readers _ (List.mem_of_getElem? user) rfl
        exact (inv.with_regs _).set_user (fun _ => mapped) fun gone =>
          (gone (inv.live_of_user user (by simp))).elim
      · rename_i user
        cases moved
        exact (inv.with_regs _).set_user (by simp [UserPc.reading]) fun gone =>
          (gone (inv.live_of_user user (by simp))).elim
      · cases moved
  | sys l =>
      obtain ⟨sys, access, installed, rfl⟩ := Life.sys_step moved
      exact inv.sys_step access installed
  | probe =>
      simp only [Life.step] at moved
      split at moved
      · rename_i ready
        cases moved
        obtain ⟨f, hold, follows⟩ := inv.known
        rw [ready.1] at follows
        cases follows
        exact inv.with_dev hold guarded_probe (Or.inr ready.2)
      · cases moved
  | unbind =>
      simp only [Life.step] at moved
      split at moved
      · rename_i bound
        cases moved
        exact inv.remove bound
      · cases moved
  | devStep outcome => exact inv.dev_step careful (.of_devStep moved)
  | exit =>
      simp only [Life.step] at moved
      split at moved
      · rename_i idle
        cases moved
        exact inv.with_module idle.2 (by simp) fun _ => careful
      · cases moved
  | exitStep => exact inv.exit_step moved

/-- What the next operation accesses is there. -/
theorem safe_op (inv : LifeInv s) {op : Op} {rest : List Op}
    (pc : s.dev = .probing (op :: rest) ∨ s.dev = .failing (op :: rest) ∨
      s.dev = .removing (op :: rest)) : s.SafeOp op := by
  obtain ⟨f, hold, follows⟩ := inv.known
  have allowed : ∃ phase, op.allowed phase f = true := by
    rcases pc with pc | pc | pc <;> rw [pc] at follows
    · exact ⟨_, (Facts.guarded_cons follows).2.1⟩
    · exact ⟨_, (Facts.straight_cons follows).2.1⟩
    · exact ⟨_, (Facts.straight_cons follows).2.1⟩
  obtain ⟨phase, allowed⟩ := allowed
  refine ⟨fun accesses => hold.mapped (Op.mapped_of_allowed allowed accesses), ?_⟩
  intro same
  subst same
  exact hold.wq allowed

/-- Whatever comes next finds what it accesses. -/
theorem safe (inv : LifeInv s) (e : Event) : s.Safe e := by
  cases e with
  | sys l =>
      cases l with
      | irqStep =>
          simp only [Life.Safe]
          split
          · trivial
          · rename_i pc
            exact (inv.of_handler (by simp [pc])).2
          · rename_i running _
            exact (inv.of_handler running).1
      | workStep =>
          have found : s.sys.work ≠ .idle → s.Mapped ∧ s.Ready := fun running =>
            inv.of_work fun rest => running rest.2
          simp only [Life.Safe]
          split
          · trivial
          · trivial
          · rename_i pc
            exact (found (by simp [pc])).2
          · rename_i pc
            exact (found (by simp [pc])).2
          · rename_i pc
            exact (found (by simp [pc])).2
          · rename_i running _ _ _ _
            exact (found running).1
      | _ => trivial
  | readStep i =>
      intro u user reading
      exact inv.readers u (List.mem_of_getElem? user) reading
  | devStep outcome =>
      simp only [Life.Safe]
      split
      · rename_i pc
        exact inv.safe_op (Or.inl pc)
      · rename_i pc
        exact inv.safe_op (Or.inr (Or.inl pc))
      · rename_i pc
        exact inv.safe_op (Or.inr (Or.inr pc))
      · trivial
  | exitStep => exact inv.exiting
  | _ => trivial

end LifeInv

/-- **Nothing is used after teardown or before setup when these run with care.**
In every run from a fresh start whose steps all meet `Careful`, every step finds
what it accesses, and the work item is at rest whenever the registers are not
mapped. -/
theorem safe_of_careful {s t : Life} {trace : List (Life × Event)} (fresh : s.Fresh)
    (run : Run Life.step s trace t) (careful : Meets Life.Careful trace) :
    (∀ p ∈ trace, p.1.Safe p.2) ∧ ∀ u ∈ visited trace t, ¬ u.Mapped → u.WorkAtRest := by
  have inv : ∀ u ∈ visited trace t, LifeInv u :=
    run.invariant_visited (fun _ _ _ inv ok moved => inv.step ok moved) careful fresh.inv
  refine ⟨fun p member => ?_, fun u passed unmapped => ?_⟩
  · exact (inv p.1 (mem_visited_of_mem member)).safe p.2
  · by_contra working
    exact unmapped ((inv u passed).of_work working).1

/-- Before the first load, all registers zero. -/
def Life.fresh : Life where
  world := .boot
  sys := { State.afterProbe with regs := ⟨0, 0, 0, 0, 0, 0, 0, 0, 0, 0⟩ }
  dev := .unbound
  module := .unloaded
  users := []

theorem Life.fresh_fresh : Life.fresh.Fresh := ⟨rfl, rfl, rfl, rfl, rfl, rfl, rfl⟩

/-- A load, a probe and what makes an interrupt queue the work item. -/
def Event.bringUp : List Event :=
  [.load, .openFile, .probe] ++
  List.replicate (pciBlinkDriverProbe.length + 1) (.devStep (some 1)) ++
  [.sys (.receive .blank), .sys (.raise rxdmt0), .sys .interrupt] ++
  List.replicate 8 (.sys .irqStep)

/-- All operations of a remove. -/
def Event.takeDown : List Event :=
  List.replicate (pciBlinkDriverRemove.length + 1) (.devStep none)

/-- A life from load to exit: the device is probed, a descriptor is processed, a
user reads the head and the tail, the file is closed and the module exits. -/
theorem safe_of_careful_life :
    ∃ t trace, Run Life.step .fresh trace t ∧ t.module = .unloaded ∧
      t.sys.processed.length = 1 ∧ (∀ p ∈ trace, p.1.Safe p.2) ∧
      ∀ u ∈ visited trace t, ¬ u.Mapped → u.WorkAtRest := by
  obtain ⟨t, trace, run, -, unloaded, processed⟩ :=
    Run.of_exec_any (restrict Life.Careful Life.step) .fresh
      (Event.bringUp ++ [.sys .dispatch] ++ List.replicate 15 (.sys .workStep) ++
        [.read 0, .readStep 0, .readStep 0, .closeFile 0, .exit, .exitStep, .exitStep] ++
        Event.takeDown ++ [.exitStep, .exitStep])
      (fun t => t.module = .unloaded ∧ t.sys.processed.length = 1) (by decide +kernel)
  obtain ⟨run, careful⟩ := run.of_restrict
  exact ⟨t, trace, run, unloaded, processed, safe_of_careful Life.fresh_fresh run careful⟩

/-- The module is loaded, no device matches, and it exits: `cancel_work_sync` is
called on a null `test_wq`. -/
theorem exit_without_device :
    ∃ t trace, Run Life.step .fresh trace t ∧ ¬ ∀ p ∈ trace, p.1.Safe p.2 := by
  obtain ⟨s, trace, run, -, cancelling, null, moves⟩ := Run.of_exec_any Life.step .fresh
    [.load, .exit]
    (fun s => s.module = .cancelWork ∧ ¬ s.Allocated ∧ (s.step .exitStep).isSome = true)
    (by decide +kernel)
  obtain ⟨t, moved⟩ := Option.isSome_iff_exists.mp moves
  refine ⟨t, _, run.snoc moved, fun safe => null ?_⟩
  exact safe (s, .exitStep) (List.mem_append_right _ (List.mem_singleton_self _)) cancelling

/-- The device is unbound while the work item is queued: the item is still queued
when the registers are no longer mapped, and then runs. -/
theorem work_after_remove :
    ∃ t trace, Run Life.step .fresh trace t ∧ ¬ (∀ p ∈ trace, p.1.Safe p.2) ∧
      ∃ u ∈ visited trace t, u.dev = .unbound ∧ ¬ u.Mapped ∧ ¬ u.WorkAtRest := by
  obtain ⟨s, trace, run, -, gone, unmapped, queued, moves⟩ := Run.of_exec_any Life.step .fresh
    (Event.bringUp ++ [.unbind] ++ Event.takeDown ++ [.sys .dispatch, .sys .workStep])
    (fun s => s.dev = .unbound ∧ ¬ s.Mapped ∧ s.sys.work = .readLedOff ∧
      (s.step (.sys .workStep)).isSome = true)
    (by decide +kernel)
  obtain ⟨t, moved⟩ := Option.isSome_iff_exists.mp moves
  refine ⟨t, _, run.snoc moved, fun safe => unmapped ?_, s, ?_, gone, unmapped, fun rest => ?_⟩
  · have found := safe (s, .sys .workStep) (List.mem_append_right _ (List.mem_singleton_self _))
    simpa only [Life.Safe, queued] using found
  · rw [visited_snoc]
    exact List.mem_append_left _ (mem_visited_end ..)
  · rw [rest.2] at queued
    cases queued

end BlinkDriver.Hw6
