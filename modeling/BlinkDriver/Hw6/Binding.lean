import BlinkDriver.Hw6.Lifecycle
import BlinkDriver.Hw6.Rest

/-!
# The running driver in the life of the module

The results about the ring, the threshold interrupt and the LEDs are about runs of
`State` that start where the interrupt is unmasked. This module connects them to the
life of the module, in which devices are probed, unbound and probed again.

`binding_refines` says that from the last store of a probe on, until the device is
probed again, the life is such a run, if what earlier bindings logged is left out. So
the descriptors completed since the probe are printed once, in order, and none of an
earlier binding is. Only `cancel_work_sync` in the exit of the module does what no move
of the running driver does, if it finds the work item queued; the ring is handed over
as before all the same.

What is assumed of the device is `Life.Attached`: it receives only while the receiver
is enabled, and interrupts only for a cause that is pending and unmasked. `Readied` is
what is known of the registers before an operation of a probe, in the manner of `Facts`.
-/

namespace BlinkDriver.Hw6

open Transition HandoverRing

/-! ## Leaving out earlier bindings -/

/-- The first `c` completed and the first `p` printed descriptors left out. -/
def State.since (c p : Nat) (s : State) : State :=
  { s with completed := s.completed.drop c, processed := s.processed.drop p }

/-- As many have been logged. -/
structure Logged (c p : Nat) (s : State) : Prop where
  completed : c ≤ s.completed.length
  processed : p ≤ s.processed.length

section Since

variable {c p : Nat} {s t : State}

/-- What was logged before plays no part in what the handler does. -/
theorem IrqStep.since (access : IrqStep s t) : irqHandler (s.since c p) = some (t.since c p) := by
  cases access with
  | none pc clear =>
      simp only [irqHandler, State.since, pc, readl, clear, ne_eq, not_false_eq_true, if_true]
  | readIcr pc raised =>
      simp only [irqHandler, State.since, pc, readl, raised, ne_eq, not_true_eq_false, if_false]
  | writeImc pc =>
      have masked : s.regs.ims &&& ~~~(0xFFFFFFFF : U32) = 0 := by simp
      simp only [irqHandler, State.since, pc, writel, masked]
  | readIms pc | readLed pc | writeLed pc | schedule pc | writeIcr pc | writeIms pc =>
      simp only [irqHandler, State.since, pc, readl, writel]

/-- Nor in what the worker does. -/
theorem WorkStep.since (logged : Logged c p s) (access : WorkStep s t) :
    threadFunction (s.since c p) = some (t.since c p) := by
  cases access with
  | readHead pc pending =>
      simp only [threadFunction, State.since, pc, readl, pending, ne_eq, not_false_eq_true, if_true]
  | done pc empty =>
      simp only [threadFunction, State.since, pc, readl, empty, ne_eq, not_true_eq_false, if_false]
  | readLength pc =>
      simp only [threadFunction, State.since, pc, List.drop_append_of_le_length logged.processed]
  | sleep pc | readLedOff pc | writeLedOff pc | readTail pc | readData pc | readStatus pc
  | logHead pc | logTail pc | writeTail pc | readLed pc | writeLed pc =>
      simp only [threadFunction, State.since, pc, readl, writel]

/-- A move of the system is one without the earlier logs. -/
theorem Logged.since {l : Label} (logged : Logged c p s) (moved : Step s l t) :
    step (s.since c p) l = some (t.since c p) := by
  cases moved with
  | receive room =>
      simp only [step, State.since, room, if_false,
        List.drop_append_of_le_length logged.completed]
  | raise => rfl
  | interrupt rest => simp only [step, State.since, rest, if_true]
  | irq access => exact access.since
  | dispatch ready rest => simp only [step, State.since, ready, rest, and_self, if_true]
  | work access => exact access.since logged
  | poke irqRest workRest => simp only [step, State.since, irqRest, workRest, and_self, if_true]

theorem Logged.step {l : Label} (logged : Logged c p s) (moved : Step s l t) : Logged c p t := by
  cases moved with
  | receive => exact ⟨logged.completed.trans (by simp), logged.processed⟩
  | raise | interrupt | dispatch | poke => exact ⟨logged.completed, logged.processed⟩
  | irq access => cases access <;> exact ⟨logged.completed, logged.processed⟩
  | work access =>
      cases access with
      | readLength => exact ⟨logged.completed, logged.processed.trans (by simp)⟩
      | _ => exact ⟨logged.completed, logged.processed⟩

end Since

/-! ## What is known of the registers during a probe -/

/-- `RCTL.EN`. -/
def Regs.Receives (regs : Regs) : Prop := regs.rctl.getLsbD 1 = true

/-- A probe has operations to go. -/
def DevPc.preparing : DevPc → Bool
  | .probing (_ :: _) => true
  | _ => false

/-- The device receives only while the receiver is enabled and interrupts only for a
cause that is pending and unmasked; nobody else stores into `LEDCTL` during a probe. -/
def Life.Attached (s : Life) : Event → Prop
  | .sys (.receive _) => s.sys.regs.Receives
  | .sys .interrupt => s.sys.regs.icr &&& s.sys.regs.ims ≠ 0
  | .sys (.poke _) => s.dev.preparing = false
  | _ => True

instance (s : Life) (e : Event) : Decidable (s.Attached e) := by
  unfold Life.Attached Regs.Receives
  split <;> infer_instance

/-- The ring has been set up, and since then only the device has moved. -/
def Filled (s : State) : Prop :=
  ∃ ready fill, RingSetUp ready ∧ ready.regs.ims = 0 ∧ ready.irq = .idle ∧ ready.queued = false ∧
    Run step ready fill s ∧ Meets DeviceOnly fill

/-- What is known: the receiver is off, the interrupts are masked, the head is 0, the
tail is 15, the ring has been set up for this binding, the handler is not installed. -/
structure Readied where
  off : Bool
  masked : Bool
  head : Bool
  tail : Bool
  filled : Bool
  unrequested : Bool

/-- The head stays where it is only while the receiver is off. -/
structure Readied.Hold (k : Readied) (s : Life) : Prop where
  idle : s.sys.irq = .idle
  rest : s.WorkAtRest
  off : k.off = true → s.sys.regs.rctl = 0
  masked : k.masked = true → s.sys.regs.ims = 0
  head : k.head = true → k.off = true ∧ s.sys.regs.rdh0 = 0
  tail : k.tail = true → s.sys.regs.rdt0 = 0xF
  filled : k.filled = true → ∃ c p, Logged c p s.sys ∧ Filled (s.sys.since c p)
  unrequested : k.unrequested = true → s.world.ledger.held (device, .irq) = 0

/-- What is known after a write. -/
def Readied.writel (k : Readied) (v : U32) : Reg → Readied
  | .ctrl => { k with off := k.off || decide (v &&& ctrlRst ≠ 0), filled := false }
  | .imc => { k with masked := k.masked || decide (v = 0xFFFFFFFF), filled := false }
  | .ims => { k with masked := false, filled := false }
  | .rdh0 => { k with head := k.off && decide (v = 0), filled := false }
  | .rdt0 => { k with tail := decide (v = 0xF), filled := false }
  | .rctl =>
      { k with off := false, head := false, filled := k.off && k.masked && k.head && k.tail }
  | .icr | .ledctl | .rdbal0 | .rdbah0 | .rdlen0 => { k with filled := false }

/-- What is known after an operation. -/
def Op.readies (op : Op) (k : Readied) : Readied :=
  match op with
  | .writel v r => k.writel v r
  | .readl _ | .writelRdbah | .writelRdbal | .writelRdlen | .writelCtrl =>
      { k with filled := false }
  | .requestIrq | .freeIrq => { k with unrequested := false }
  | _ => k

/-- No handler can start, and the interrupt is unmasked last, with the ring set up. -/
def primed : List Op → Readied → Bool
  | [], _ => true
  | op :: rest, k =>
      (k.unrequested || k.masked) &&
        (decide (op ≠ .writel 0x10 .ims) || (k.filled && rest.isEmpty)) &&
        primed rest (op.readies k)

/-- At the beginning of a probe. -/
def Readied.initial : Readied := ⟨false, false, false, false, false, true⟩

theorem primed_probe : primed pciBlinkDriverProbe .initial = true := by decide

namespace Readied.Hold

variable {k : Readied} {s t : Life}

/-- What is known holds of a state with the same registers, functions and ledger. -/
theorem of_same (hold : k.Hold s) (sys : t.sys = s.sys)
    (ledger : t.world.ledger = s.world.ledger) : k.Hold t where
  idle := sys ▸ hold.idle
  rest := ⟨sys ▸ hold.rest.1, sys ▸ hold.rest.2⟩
  off known := sys ▸ hold.off known
  masked known := sys ▸ hold.masked known
  head known := sys ▸ hold.head known
  tail known := sys ▸ hold.tail known
  filled known := sys ▸ hold.filled known
  unrequested known := ledger ▸ hold.unrequested known

/-- A ring with head 0 and tail 15 on which neither function runs is set up, whatever
was logged before. -/
theorem filled_now {sys : State} (idle : sys.irq = .idle) (queued : sys.queued = false)
    (work : sys.work = .idle) (masked : sys.regs.ims = 0) (head : sys.regs.rdh0 = 0)
    (tail : sys.regs.rdt0 = 0xF) : ∃ c p, Logged c p sys ∧ Filled (sys.since c p) := by
  refine ⟨sys.completed.length, sys.processed.length, ⟨le_rfl, le_rfl⟩,
    sys.since _ _, [], ⟨head, tail, work, ?_, ?_⟩, masked, idle, queued, .refl, meets_nil⟩
  · exact List.drop_length
  · exact List.drop_length

/-- A write of `CTRL` moves neither head nor tail, and a reset turns the receiver off. -/
theorem writel_ctrl (v : U32) (regs : Regs) :
    (v &&& ctrlRst ≠ 0 ∨ regs.rctl = 0 → (Hw6.writel v .ctrl regs).rctl = 0) ∧
    (Hw6.writel v .ctrl regs).ims = regs.ims ∧ (Hw6.writel v .ctrl regs).rdh0 = regs.rdh0 ∧
    (Hw6.writel v .ctrl regs).rdt0 = regs.rdt0 := by
  by_cases resets : v &&& ctrlRst = 0
  · rw [Hw6.writel, if_pos resets]
    exact ⟨fun either => either.resolve_left fun other => other resets, rfl, rfl, rfl⟩
  · rw [Hw6.writel, if_neg resets]
    exact ⟨fun _ => rfl, rfl, rfl, rfl⟩

/-- The registers after an operation. -/
theorem after_regs (hold : k.Hold s) (op : Op) (w : World) :
    ((op.readies k).off = true → (op.regs w s.sys.regs).rctl = 0) ∧
    ((op.readies k).masked = true → (op.regs w s.sys.regs).ims = 0) ∧
    ((op.readies k).head = true → (op.readies k).off = true ∧ (op.regs w s.sys.regs).rdh0 = 0) ∧
    ((op.readies k).tail = true → (op.regs w s.sys.regs).rdt0 = 0xF) := by
  have same := And.intro hold.off (And.intro hold.masked (And.intro hold.head hold.tail))
  cases op with
  | writel v r =>
      cases r with
      | ctrl =>
          rcases writel_ctrl v s.sys.regs with ⟨rctl, ims, rdh0, rdt0⟩
          refine ⟨fun known => rctl ?_, fun known => ims.trans (hold.masked known),
            fun known => ?_, fun known => rdt0.trans (hold.tail known)⟩
          · rcases Bool.or_eq_true_iff.mp known with before | resets
            · exact Or.inr (hold.off before)
            · exact Or.inl (of_decide_eq_true resets)
          · rcases hold.head known with ⟨before, first⟩
            exact ⟨Bool.or_eq_true_iff.mpr (Or.inl before), rdh0.trans first⟩
      | imc =>
          refine ⟨hold.off, fun known => ?_, hold.head, hold.tail⟩
          change s.sys.regs.ims &&& ~~~v = 0
          rcases Bool.or_eq_true_iff.mp known with before | every
          · rw [hold.masked before]
            exact BitVec.zero_and
          · rw [of_decide_eq_true every]
            simp
      | ims => exact ⟨hold.off, nofun, hold.head, hold.tail⟩
      | rctl => exact ⟨nofun, hold.masked, nofun, hold.tail⟩
      | rdh0 =>
          refine ⟨hold.off, hold.masked, fun known => ?_, hold.tail⟩
          rcases Bool.and_eq_true_iff.mp known with ⟨off, first⟩
          exact ⟨off, of_decide_eq_true first⟩
      | rdt0 => exact ⟨hold.off, hold.masked, hold.head, fun known => of_decide_eq_true known⟩
      | icr | ledctl | rdbal0 | rdbah0 | rdlen0 => exact same
  | readl r => cases r <;> exact same
  | writelCtrl =>
      rcases writel_ctrl (s.sys.regs.ctrl ||| 0x60) s.sys.regs with ⟨rctl, ims, rdh0, rdt0⟩
      exact ⟨fun known => rctl (Or.inr (hold.off known)),
        fun known => ims.trans (hold.masked known),
        fun known => ⟨(hold.head known).1, rdh0.trans (hold.head known).2⟩,
        fun known => rdt0.trans (hold.tail known)⟩
  | _ => exact same

/-- What is known after an operation holds after it. -/
theorem after (hold : k.Hold s) {op : Op} {outcome : Option (BitVec 64)} {w : World}
    (done : op.exec device outcome s.world = some w) (dev : DevPc) :
    (op.readies k).Hold (s.after op w dev) := by
  rcases hold.after_regs op w with ⟨off, masked, head, tail⟩
  refine ⟨hold.idle, hold.rest, off, masked, head, tail, fun known => ?_, fun known => ?_⟩
  · cases op with
    | writel v r =>
        cases r with
        | rctl =>
            simp only [Op.readies, Readied.writel, Bool.and_eq_true] at known
            rcases known with ⟨⟨⟨-, quiet⟩, first⟩, last⟩
            exact filled_now hold.idle hold.rest.1 hold.rest.2 (hold.masked quiet)
              (hold.head first).2 (hold.tail last)
        | _ => cases known
    | readl | writelRdbah | writelRdbal | writelRdlen | writelCtrl => cases known
    | _ => exact hold.filled known
  · have line := (Op.exec_entry done).held_eq (r := .irq)
    by_cases requests : op = .requestIrq
    · rw [requests] at known
      cases known
    by_cases frees : op = .freeIrq
    · rw [frees] at known
      cases known
    have before : k.unrequested = true := by
      cases op with
      | requestIrq => exact (requests rfl).elim
      | freeIrq => exact (frees rfl).elim
      | writel v r => cases r <;> exact known
      | _ => exact known
    exact (line (fun gets => requests (Op.acquires_irq gets))
      (fun drops => frees (Op.releases_irq drops)) device).trans (hold.unrequested before)

/-- The device fills the ring on; nothing else moves. -/
theorem sys_step (hold : k.Hold s) (closed : k.unrequested = true ∨ k.masked = true) {l : Label}
    {sys : State} (moved : Step s.sys l sys) (installed : l = .interrupt → s.Requested)
    (attached : s.Attached (.sys l)) (preparing : s.dev.preparing = true) :
    k.Hold { s with sys } := by
  have grows : DeviceOnly s.sys l → k.filled = true → ∃ c p, Logged c p sys ∧
      Filled (sys.since c p) := by
    intro alone known
    obtain ⟨c, p, logged, ready, fill, setUp, masked, irq, queued, run, device⟩ := hold.filled known
    refine ⟨c, p, logged.step moved, ready, _, setUp, masked, irq, queued,
      run.snoc (logged.since moved), meets_append.mpr ⟨device, meets_singleton.mpr ?_⟩⟩
    cases l <;> exact alone
  cases moved with
  | receive room =>
      have on : k.off ≠ true := by
        intro known
        have enabled : s.sys.regs.rctl.getLsbD 1 = true := attached
        rw [hold.off known] at enabled
        cases enabled
      exact ⟨hold.idle, hold.rest, fun known => (on known).elim,
        fun known => (Regs.receive_ims _).trans (hold.masked known),
        fun known => (on (hold.head known).1).elim,
        fun known => (Regs.receive_rdt0 _).trans (hold.tail known), grows trivial,
        hold.unrequested⟩
  | raise =>
      exact ⟨hold.idle, hold.rest, hold.off, hold.masked, hold.head, hold.tail, grows trivial,
        hold.unrequested⟩
  | interrupt =>
      rcases closed with none | masked
      · have some := installed rfl
        rw [Life.Requested, hold.unrequested none] at some
        exact (lt_irrefl 0 some).elim
      · have pending : s.sys.regs.icr &&& s.sys.regs.ims ≠ 0 := attached
        rw [hold.masked masked] at pending
        exact (pending BitVec.and_zero).elim
  | irq access => exact (access.running hold.idle).elim
  | dispatch ready =>
      rw [hold.rest.1] at ready
      cases ready
  | work access => exact (access.running hold.rest.2).elim
  | poke =>
      have ready : s.dev.preparing = false := attached
      rw [preparing] at ready
      cases ready

end Readied.Hold

/-- While a probe has operations to go, enough is known for them. -/
def Prepared (s : Life) : Prop :=
  ∀ op rest, s.dev = .probing (op :: rest) →
    ∃ k : Readied, k.Hold s ∧ primed (op :: rest) k = true

theorem primed_cons {op : Op} {rest : List Op} {k : Readied} (fits : primed (op :: rest) k = true) :
    (k.unrequested = true ∨ k.masked = true) ∧
      (op = .writel 0x10 .ims → k.filled = true ∧ rest = []) ∧
      primed rest (op.readies k) = true := by
  simp only [primed, Bool.and_eq_true, Bool.or_eq_true, decide_eq_true_eq,
    List.isEmpty_iff] at fits
  exact ⟨fits.1.1, fun same => fits.1.2.resolve_left fun other => other same, fits.2⟩

namespace Prepared

variable {s t : Life}

/-- A step that leaves the core, the registers, the functions and the ledger alone. -/
theorem of_same (prepared : Prepared s) (dev : t.dev = s.dev) (sys : t.sys = s.sys)
    (ledger : t.world.ledger = s.world.ledger) : Prepared t := by
  intro op rest pc
  rcases prepared op rest (dev ▸ pc) with ⟨k, hold, fits⟩
  exact ⟨k, hold.of_same sys ledger, fits⟩

/-- The core is doing something else. -/
theorem of_other (other : ∀ op rest, t.dev ≠ .probing (op :: rest)) : Prepared t :=
  fun op rest pc => (other op rest pc).elim

theorem of_removing (rest : List Op) : Prepared { s with dev := .removing rest } := by
  intro op rest' pc
  cases pc

/-- An unbound device has neither a handler nor a work item. -/
theorem of_unbound (inv : LifeInv s) (unbound : s.dev = .unbound) :
    Prepared { s with dev := .probing pciBlinkDriverProbe } := by
  rcases inv.known with ⟨f, hold, follows⟩
  rw [unbound] at follows
  cases follows
  have none := hold.irq rfl
  have idle : s.sys.irq = .idle := by
    by_contra running
    have some := inv.handler running
    rw [Life.Requested, none] at some
    exact lt_irrefl 0 some
  intro op rest pc
  refine ⟨.initial, ⟨idle, hold.busy rfl, ?_, ?_, ?_, ?_, ?_, fun _ => none⟩, ?_⟩
  case refine_6 =>
      rw [← DevPc.probing.inj pc]
      exact primed_probe
  -- Of the registers nothing is known before the first operation.
  all_goals
    intro known
    cases known

theorem dev_step (prepared : Prepared s) {outcome : Option (BitVec 64)}
    (moved : DevStep s outcome t) : Prepared t := by
  cases moved with
  | bind | release | die | goto | fail | remove => exact .of_other nofun
  | @probe op rest w pc done =>
      intro op' rest' next
      cases next
      rcases prepared op _ pc with ⟨k, hold, fits⟩
      exact ⟨_, hold.after done _, (primed_cons fits).2.2⟩

theorem sys_step (prepared : Prepared s) {l : Label} {sys : State} (moved : Step s.sys l sys)
    (installed : l = .interrupt → s.Requested) (attached : s.Attached (.sys l)) :
    Prepared { s with sys } := by
  intro op rest pc
  rcases prepared op rest pc with ⟨k, hold, fits⟩
  have preparing : s.dev.preparing = true := by rw [show s.dev = _ from pc]; rfl
  exact ⟨k, hold.sys_step (primed_cons fits).1 moved installed attached preparing, fits⟩

theorem exit_step (prepared : Prepared s) (moved : s.exitStep = some t) : Prepared t := by
  unfold Life.exitStep at moved
  split at moved
  case h_1 =>
      split at moved
      · cases moved
        intro op rest pc
        rcases prepared op rest pc with ⟨k, hold, fits⟩
        refine ⟨k, hold.of_same ?_ rfl, fits⟩
        change { s.sys with queued := false } = s.sys
        rw [← hold.rest.1]
      · cases moved
  case h_2 =>
      split at moved
      · cases moved
        exact .of_other nofun
      · cases moved
        exact prepared.of_same rfl rfl rfl
      · cases moved
  case h_3 =>
      cases moved
      exact prepared.of_same rfl rfl rfl
  case h_4 => cases moved

theorem step (inv : LifeInv s) (prepared : Prepared s) {e : Event} (attached : s.Attached e)
    (moved : s.step e = some t) : Prepared t := by
  cases e with
  | load | openFile | closeFile | read | exit =>
      simp only [Life.step] at moved
      split at moved
      · cases moved
        exact prepared.of_same rfl rfl rfl
      · cases moved
  | readStep i =>
      simp only [Life.step] at moved
      split at moved
      · cases moved
        exact prepared.of_same rfl rfl rfl
      · cases moved
        exact prepared.of_same rfl rfl rfl
      · cases moved
  | sys l =>
      rcases Life.sys_step moved with ⟨sys, access, installed, rfl⟩
      exact prepared.sys_step access installed attached
  | probe =>
      simp only [Life.step] at moved
      split at moved
      · rename_i ready
        cases moved
        exact .of_unbound inv ready.1
      · cases moved
  | unbind =>
      simp only [Life.step] at moved
      split at moved
      · cases moved
        exact .of_removing _
      · cases moved
  | devStep outcome => exact prepared.dev_step (.of_devStep moved)
  | exitStep => exact prepared.exit_step moved

end Prepared

/-! ## After the probe -/

/-- The event does not probe the device again. -/
def Event.Stays : Event → Prop
  | .probe => False
  | _ => True

/-- `cancel_work_sync` takes a queued work item away. -/
def Life.Cancels (s : Life) : Event → Prop
  | .exitStep => s.module = .cancelWork ∧ s.sys.queued = true
  | _ => False

/-- The move of the running driver that an event is, if it is one. -/
def Event.label : Event → Option Label
  | .sys l => some l
  | _ => none

instance (s : Life) (e : Event) : Decidable (s.Cancels e) := by
  unfold Life.Cancels
  split <;> infer_instance

instance : ∀ e : Event, Decidable e.Stays
  | .probe => inferInstanceAs (Decidable False)
  | .load | .openFile | .closeFile _ | .read _ | .readStep _ | .sys _ | .unbind | .devStep _
  | .exit | .exitStep => inferInstanceAs (Decidable True)

/-- No operation of the core that is to come accesses a register. -/
def DevPc.HandsOff : DevPc → Prop
  | .unbound | .bound | .dead => True
  | .probing rest => rest = []
  | .failing _ => False
  | .removing rest => ∀ op ∈ rest, op.accesses = false

theorem remove_accesses : ∀ op ∈ pciBlinkDriverRemove, op.accesses = false := by decide

theorem Op.regs_of_not_accesses {op : Op} (apart : op.accesses = false) (w : World) (regs : Regs) :
    op.regs w regs = regs := by
  cases op with
  | readl | writel | writelRdbah | writelRdbal | writelRdlen | writelCtrl => cases apart
  | _ => rfl

/-- What an event does to the registers and the functions: nothing, or it is a move of
the running driver, or it takes the queued work item away. -/
inductive Event.Does (s : Life) (e : Event) : State → Prop
  | nothing (quiet : e.label = none) : e.Does s s.sys
  | moves {l : Label} {sys : State} (moves : e.label = some l) (access : Step s.sys l sys) :
      e.Does s sys
  | cancels (cancels : s.Cancels e) : e.Does s { s.sys with queued := false }

theorem Life.dev_step_handsOff {s t : Life} {outcome : Option (BitVec 64)}
    (off : s.dev.HandsOff) (moved : DevStep s outcome t) : t.dev.HandsOff ∧ t.sys = s.sys := by
  cases moved with
  | bind | release => exact ⟨trivial, rfl⟩
  | die => exact ⟨trivial, rfl⟩
  | goto pc | probe pc =>
      rw [pc] at off
      cases off
  | fail pc =>
      rw [pc] at off
      exact off.elim
  | @remove op rest w pc =>
      rw [pc] at off
      rcases List.forall_mem_cons.mp off with ⟨apart, later⟩
      refine ⟨later, ?_⟩
      change { s.sys with regs := op.regs w s.sys.regs } = s.sys
      rw [Op.regs_of_not_accesses apart]

/-- A step of the exit: the first takes the work item away, and the others leave the
registers and the functions alone. -/
theorem Life.exitStep_handsOff {s t : Life} (off : s.dev.HandsOff)
    (moved : s.exitStep = some t) : t.dev.HandsOff ∧ Event.exitStep.Does s t.sys := by
  unfold Life.exitStep at moved
  split at moved
  case h_1 phase =>
      split at moved
      · cases moved
        refine ⟨off, ?_⟩
        cases queued : s.sys.queued with
        | true => exact .cancels ⟨phase, queued⟩
        | false =>
            have same : { s.sys with queued := false } = s.sys := by rw [← queued]
            dsimp only
            rw [same]
            exact .nothing rfl
      · cases moved
  case h_2 =>
      split at moved
      · cases moved
        exact ⟨remove_accesses, .nothing rfl⟩
      · cases moved
        exact ⟨off, .nothing rfl⟩
      · cases moved
  case h_3 =>
      cases moved
      exact ⟨off, .nothing rfl⟩
  case h_4 => cases moved

theorem Life.step_handsOff {s t : Life} {e : Event} (off : s.dev.HandsOff) (stays : e.Stays)
    (moved : s.step e = some t) : t.dev.HandsOff ∧ e.Does s t.sys := by
  cases e with
  | load | openFile | closeFile | read | exit =>
      simp only [Life.step] at moved
      split at moved
      · cases moved
        exact ⟨off, .nothing rfl⟩
      · cases moved
  | readStep i =>
      simp only [Life.step] at moved
      split at moved
      · cases moved
        exact ⟨off, .nothing rfl⟩
      · cases moved
        exact ⟨off, .nothing rfl⟩
      · cases moved
  | sys l =>
      rcases Life.sys_step moved with ⟨sys, access, -, rfl⟩
      exact ⟨off, .moves rfl access⟩
  | unbind =>
      simp only [Life.step] at moved
      split at moved
      · cases moved
        exact ⟨remove_accesses, .nothing rfl⟩
      · cases moved
  | devStep outcome =>
      rcases Life.dev_step_handsOff off (.of_devStep moved) with ⟨later, same⟩
      rw [same]
      exact ⟨later, .nothing rfl⟩
  | exitStep => exact Life.exitStep_handsOff off moved
  | probe => exact stays.elim

/-- What holds from there on until the device is probed again: the core accesses no
register, the ring is handed over, and as long as no work item is taken away the life is
a run of the running driver. -/
structure Follows (c p : Nat) (begun : State) (back : List (Life × Event)) (t : Life) :
    Prop where
  off : t.dev.HandsOff
  logged : Logged c p t.sys
  ring : ∃ w, RingInv (t.sys.since c p) w
  refines : (∀ q ∈ back, ¬ q.1.Cancels q.2) → ∃ moves, Run Hw6.step begun moves
    (t.sys.since c p) ∧ moves.map Prod.snd = back.filterMap fun q => q.2.label

theorem Follows.step {c p : Nat} {begun : State} {back : List (Life × Event)} {s t : Life}
    {e : Event} (follows : Follows c p begun back s) (stays : e.Stays)
    (moved : s.step e = some t) : Follows c p begun (back ++ [(s, e)]) t := by
  rcases Life.step_handsOff follows.off stays moved with ⟨off, does⟩
  rcases follows.ring with ⟨w, ring⟩
  have whole : (back ++ [(s, e)]).filterMap (fun q => q.2.label) =
      (back.filterMap fun q => q.2.label) ++ e.label.toList := by
    rw [List.filterMap_append, List.filterMap_cons]
    cases e.label <;> rfl
  have earlier (none : ∀ q ∈ back ++ [(s, e)], ¬ q.1.Cancels q.2) :=
    follows.refines fun q member => none q (List.mem_append_left _ member)
  generalize same : t.sys = sys at does
  cases does with
  | nothing quiet =>
      refine ⟨off, same ▸ follows.logged, same ▸ follows.ring, fun none => ?_⟩
      rcases earlier none with ⟨moves, run, labels⟩
      refine ⟨moves, same ▸ run, ?_⟩
      rw [whole, quiet, labels, Option.toList_none, List.append_nil]
  | @moves l _ label access =>
      have logged := follows.logged.step access
      have moved := follows.logged.since access
      rcases ring.step (.of_step moved) with ⟨w', -, ring'⟩
      refine ⟨off, same ▸ logged, ⟨w', same ▸ ring'⟩, fun none => ?_⟩
      rcases earlier none with ⟨moves, run, labels⟩
      refine ⟨moves ++ [(s.sys.since c p, l)], same ▸ run.snoc moved, ?_⟩
      rw [whole, label, List.map_append, labels]
      rfl
  | cancels cancels =>
      have kept : RingKept (s.sys.since c p) (State.since c p { s.sys with queued := false }) :=
        ⟨rfl, rfl, rfl, rfl, rfl⟩
      have logged : Logged c p t.sys :=
        ⟨same ▸ follows.logged.completed, same ▸ follows.logged.processed⟩
      refine ⟨off, logged, ⟨w, same ▸ ring.frame kept rfl⟩, fun none => ?_⟩
      exact (none _ (List.mem_append_right _ (List.mem_singleton_self _)) cancels).elim

theorem Life.run_handsOff {a t : Life} {back : List (Life × Event)} {c p : Nat}
    (off : a.dev.HandsOff) (logged : Logged c p a.sys)
    (ring : ∃ w, RingInv (a.sys.since c p) w) (run : Run Life.step a back t)
    (stays : ∀ q ∈ back, q.2.Stays) : Follows c p (a.sys.since c p) back t := by
  induction run with
  | refl => exact ⟨off, logged, ring, fun _ => ⟨[], .refl, rfl⟩⟩
  | snoc _ edge ih =>
      rcases List.forall_mem_append.mp stays with ⟨before, last⟩
      exact (ih before).step (last _ (List.mem_singleton_self _)) edge

/-- The last store of a probe unmasks the interrupt of a ring that was set up for this
binding. -/
theorem Prepared.unmasked {a b : Life} {outcome : Option (BitVec 64)} {rest : List Op}
    (inv : LifeInv a) (prepared : Prepared a)
    (unmasks : a.dev = .probing (.writel 0x10 .ims :: rest))
    (moved : a.step (.devStep outcome) = some b) :
    b.dev.HandsOff ∧ ∃ c p, Logged c p a.sys ∧ Logged c p b.sys ∧ Unmasked (b.sys.since c p) := by
  rcases prepared _ _ unmasks with ⟨k, hold, fits⟩
  rcases (primed_cons fits).2.1 rfl with ⟨filled, rfl⟩
  obtain ⟨c, p, logged, ready, fill, setUp, masked, irq, queued, run, device⟩ := hold.filled filled
  have mapped := (inv.safe_op (Or.inl unmasks)).1 rfl
  have next : b = a.after (.writel 0x10 .ims) a.world (.probing []) := by
    simp only [Life.step, Life.devStep, unmasks, Op.exec, mapped.1, Option.map_some, Op.exit,
      ite_self, Option.some.injEq] at moved
    exact moved.symm
  subst next
  exact ⟨rfl, c, p, logged, ⟨logged.completed, logged.processed⟩, ready, fill, a.sys.since c p,
    setUp, masked, irq, queued, run, device, rfl⟩

/-- What is known at every point of a careful life. -/
theorem Life.Fresh.prepared {s t : Life} {trace : List (Life × Event)} (fresh : s.Fresh)
    (run : Run Life.step s trace t) (careful : Meets Life.Careful trace)
    (attached : Meets Life.Attached trace) : LifeInv t ∧ Prepared t := by
  induction run with
  | refl =>
      refine ⟨fresh.inv, .of_other fun op rest => ?_⟩
      rw [fresh.dev]
      nofun
  | snoc _ edge ih =>
      rcases meets_append.mp careful with ⟨carefulFront, careful⟩
      rcases meets_append.mp attached with ⟨attachedFront, attached⟩
      rcases ih carefulFront attachedFront with ⟨inv, prepared⟩
      exact ⟨inv.step (meets_singleton.mp careful) edge,
        prepared.step inv (meets_singleton.mp attached) edge⟩

/-- **A binding is a run of the running driver.** In every careful life, take any probe
up to its last store, which unmasks the interrupt. Until the device is probed again,
what the device, the handler and the worker do is a run of the running driver that
starts with that store, if what was logged before the ring was set up is left out, and
as long as the exit of the module takes no queued work item away; opens, closes and
reads of the file, the remove, and the rest of the exit, are not seen in it. In any
case the worker prints a prefix of what the device completes in this binding, which
starts with descriptor 0 and goes round the ring; outside the gap between printing and
returning a descriptor the backlog is the distance from `RDT` to `RDH`, and with the
free slots it makes 15; and the descriptor the worker holds is never one the device may
fill. -/
theorem binding_refines {s t a : Life} {trace front back : List (Life × Event)}
    {outcome : Option (BitVec 64)} {rest : List Op} (fresh : s.Fresh)
    (run : Run Life.step s trace t) (careful : Meets Life.Careful trace)
    (attached : Meets Life.Attached trace)
    (split : trace = front ++ (a, .devStep outcome) :: back)
    (unmasks : a.dev = .probing (.writel 0x10 .ims :: rest)) (stays : ∀ q ∈ back, q.2.Stays) :
    ∃ c p begun, Logged c p a.sys ∧ Unmasked begun ∧
      ((∀ q ∈ back, ¬ q.1.Cancels q.2) → ∃ moves, Run step begun moves (t.sys.since c p) ∧
        moves.map Prod.snd = back.filterMap fun q => q.2.label) ∧
      t.sys.processed.drop p <+: (t.sys.completed.drop c).map printed ∧
      (∀ k, ∀ h : k < (t.sys.completed.drop c).length, (t.sys.completed.drop c)[k].1 = k % 16) ∧
      (t.sys.work.inGap = false →
        ((t.sys.completed.drop c).length : Int) - (t.sys.processed.drop p).length =
            ((t.sys.regs.rdh0.toNat : Int) - t.sys.regs.rdt0.toNat - 1) % 16 ∧
          ((t.sys.completed.drop c).length : Int) - (t.sys.processed.drop p).length +
            t.sys.regs.freeCount = 15) ∧
      ∀ tail, t.sys.work.holding = some tail →
        ¬ Between 16 t.sys.regs.rdh0.toNat t.sys.regs.rdt0.toNat tail.toNat := by
  subst split
  rcases Run.of_append run with ⟨u, before, later⟩
  rcases later.of_cons with ⟨same, b, moved, after⟩
  cases same
  obtain ⟨inv, prepared⟩ := fresh.prepared before (meets_append.mp careful).1
    (meets_append.mp attached).1
  rcases prepared.unmasked inv unmasks moved with ⟨off, c, p, logged, kept, unmasked⟩
  have follows := Life.run_handsOff off kept unmasked.inv.ring after stays
  rcases follows.ring with ⟨w, ring⟩
  exact ⟨c, p, _, logged, unmasked, follows.refines, ring.handed⟩

/-- The device is bound, a packet arrives, the file is closed, and the module exits, up to
the removal of the device. -/
def Event.lastBinding : List Event :=
  [.devStep (some 1), .sys (.receive .blank), .closeFile 0, .exit, .exitStep, .exitStep]

/-- A step that keeps all the conditions and takes no work item away. -/
def Life.Orderly (s : Life) (e : Event) : Prop := s.Careful e ∧ s.Attached e ∧ ¬ s.Cancels e

instance (s : Life) (e : Event) : Decidable (s.Orderly e) := inferInstanceAs (Decidable (_ ∧ _))

/-- A second binding: one descriptor was printed in the first, the device has been
removed and probed again, and has completed another one when the module exits. -/
theorem binding_refines_second_probe :
    ∃ t : Life, ∃ c p begun moves, Unmasked begun ∧ Run step begun moves (t.sys.since c p) ∧
      moves.map Prod.snd = [.receive .blank] ∧ t.module = .unregister ∧
      t.sys.completed.length = 2 ∧
      t.sys.processed.drop p <+: (t.sys.completed.drop c).map printed := by
  rcases Run.of_exec_any (restrict Life.Orderly Life.step) .fresh
    (Event.bringUp ++ [.sys .dispatch] ++ List.replicate 15 (.sys .workStep) ++ [.unbind] ++
      Event.takeDown ++ [.probe] ++
      List.replicate (pciBlinkDriverProbe.length - 1) (.devStep (some 1)))
    (fun a => a.dev = .probing [.writel 0x10 .ims] ∧
      ((exec (restrict Life.Orderly Life.step) a (.devStep (some 1) :: Event.lastBinding)).any
          fun t => decide (t.module = .unregister ∧ t.sys.completed.length = 2)) = true)
    (by decide +kernel) with ⟨a, front, before, -, unmasks, goes⟩
  rcases Run.of_exec_any _ a _ _ goes with ⟨t, back, after, labels, exiting, count⟩
  rcases (before.trans after).of_restrict with ⟨run, ok⟩
  cases back with
  | nil => cases labels
  | cons q back =>
      rcases q with ⟨a', e⟩
      rcases after.of_cons with ⟨rfl, -⟩
      rcases List.cons.inj labels with ⟨first, others⟩
      dsimp only at first
      subst first
      have stays : ∀ q ∈ back, q.2.Stays := by
        intro q member
        have listed : q.2 ∈ Event.lastBinding := others ▸ List.mem_map_of_mem member
        have all : ∀ e ∈ Event.lastBinding, e.Stays := by decide
        exact all _ listed
      have keeps : ∀ q ∈ back, ¬ q.1.Cancels q.2 := fun q member =>
        (ok q (List.mem_append_right _ (List.mem_cons_of_mem _ member))).2.2
      rcases binding_refines Life.fresh_fresh run (ok.mono fun _ _ all => all.1)
        (ok.mono fun _ _ all => all.2.1) rfl unmasks stays with
        ⟨c, p, begun, -, unmasked, refines, part, -⟩
      rcases refines keeps with ⟨moves, refined, same⟩
      refine ⟨t, c, p, begun, moves, unmasked, refined, ?_, exiting, count, part⟩
      have seen : (back.filterMap fun q => q.2.label) =
          Event.lastBinding.filterMap Event.label := by
        rw [← others, List.filterMap_map]
        rfl
      rw [same, seen]
      rfl

end BlinkDriver.Hw6
