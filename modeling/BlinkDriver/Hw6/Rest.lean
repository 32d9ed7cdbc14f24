import BlinkDriver.Hw6.Drain
import BlinkDriver.Hw6.LedRace
import BlinkDriver.Hw6.Threshold

/-!
# Coming to rest

How much the handler and the worker still have to do is bounded by what the
registers and their program points show (`State.stepsLeft`): ten accesses for a
descriptor of the backlog, a worker run if one is queued, a handler run if a cause is
pending. Every step of theirs takes something off, a packet adds ten, and a cause
adds one handler run and the worker run it queues.

* `steps_amortized`: in every run the steps of the driver are paid for by its
  packets and causes.
* `comes_to_rest`: once these stop, the driver stops too, with the interrupt mask
  restored, LED 0 off and, where no interrupt was lost, more than half of the ring free.
* `runs_paid`: the worker is started at most once for each time the ring falls to half
  free, and before that prints nothing.
-/

namespace BlinkDriver.Hw6

open Transition HandoverRing

/-! ## What is left to do -/

/-- The accesses of the worker run under way, and of those that will give back the
rest of the backlog. -/
def State.workLeft (s : State) : Nat :=
  match s.work with
  | .idle => 10 * s.regs.backlog
  | .sleep => 10 * s.regs.backlog + 5
  | .readLedOff => 10 * s.regs.backlog + 4
  | .writeLedOff _ => 10 * s.regs.backlog + 3
  | _ => s.accessesLeft

/-- The accesses of the handler, with the six steps of the worker run it may queue. -/
def IrqPc.left : IrqPc → Nat
  | .idle => 0
  | .readIcr => 14
  | .readIms => 13
  | .writeImc _ => 12
  | .readLed _ => 11
  | .writeLed _ _ => 10
  | .schedule _ => 9
  | .writeIcr _ => 2
  | .writeIms _ => 1

/-- A handler run to come, unless the one that has begun will clear the causes. -/
def State.causeLeft (s : State) : Nat := if s.regs.icr ≠ 0 ∧ s.irq ≠ .readIcr then 15 else 0

/-- The start of a queued worker run, and its accesses outside the iterations. -/
def State.queueLeft (s : State) : Nat := if s.queued = true then 6 else 0

/-- At most so many steps the handler and the worker take if nothing more happens. -/
def State.stepsLeft (s : State) : Nat := s.workLeft + s.queueLeft + s.irq.left + s.causeLeft

/-- A step of the handler or the worker, its start included. -/
def stepped (_ : State) : Label → Nat
  | .interrupt | .irqStep | .dispatch | .workStep => 1
  | .receive _ | .raise _ | .poke _ => 0

/-- A cause is raised: by the device, or by a receive that leaves half of the ring
free. -/
def caused (s : State) : Label → Nat
  | .receive _ => if s.regs.receive.freeCount = 8 then 1 else 0
  | .raise _ => 1
  | _ => 0

/-- The handler is started for a cause that is pending and unmasked. -/
def Prompted (s : State) : Label → Prop
  | .interrupt => s.regs.icr &&& s.regs.ims ≠ 0
  | _ => True

/-- A step of the handler or the worker. -/
def OwnStep (s : State) : Label → Prop
  | .interrupt => s.regs.icr &&& s.regs.ims ≠ 0
  | .irqStep | .dispatch | .workStep => True
  | .receive _ | .raise _ | .poke _ => False

instance (s : State) : ∀ l, Decidable (Prompted s l)
  | .interrupt => inferInstanceAs (Decidable (s.regs.icr &&& s.regs.ims ≠ 0))
  | .receive _ | .raise _ | .irqStep | .dispatch | .workStep | .poke _ =>
      inferInstanceAs (Decidable True)

instance (s : State) : ∀ l, Decidable (OwnStep s l)
  | .interrupt => inferInstanceAs (Decidable (s.regs.icr &&& s.regs.ims ≠ 0))
  | .irqStep | .dispatch | .workStep => inferInstanceAs (Decidable True)
  | .receive _ | .raise _ | .poke _ => inferInstanceAs (Decidable False)

theorem OwnStep.prompted {s : State} {l : Label} (own : OwnStep s l) : Prompted s l := by
  cases l with
  | interrupt => exact own
  | _ => trivial

theorem OwnStep.counts {s : State} {l : Label} (own : OwnStep s l) :
    stepped s l = 1 ∧ received s l = 0 ∧ caused s l = 0 := by
  cases l with
  | receive | raise | poke => exact own.elim
  | interrupt | irqStep | dispatch | workStep => exact ⟨rfl, rfl, rfl⟩

/-! ## What a step takes off -/

/-- Outside the loop the worker takes the registers of the ring as they are. -/
theorem LoopInv.of_ring {s : State} {w : Window 16} (ring : RingInv s w)
    (looping : s.work.looping = true) : LoopInv s w where
  inside := Or.inl looping
  head := ring.head
  tail := ring.tail
  test := ring.test
  hold := ring.hold

/-- In the loop the accesses left are those of the loop. -/
theorem State.workLeft_looping {s : State} (looping : s.work.looping = true) :
    s.workLeft = s.accessesLeft := by
  rw [State.workLeft]
  cases pc : s.work with
  | idle | sleep | readLedOff | writeLedOff led =>
      rw [pc] at looping
      cases looping
  | _ => rfl

/-- A worker that leaves the loop has nothing left. -/
theorem WorkStep.looping_cases {s t : State} (access : WorkStep s t)
    (looping : s.work.looping = true) :
    t.work.looping = true ∨ t.work = .idle ∧ s.work = .readHead s.regs.rdh0 ∧ t.regs = s.regs := by
  cases access with
  | sleep pc | readLedOff pc | writeLedOff pc =>
      rw [pc] at looping
      cases looping
  | done pc empty => exact Or.inr ⟨rfl, empty ▸ pc, rfl⟩
  | readTail | readHead | readData | readStatus | readLength | logHead | logTail | writeTail
  | readLed | writeLed => exact Or.inl rfl

theorem RingInv.workLeft {s t : State} {w : Window 16} (ring : RingInv s w)
    (access : WorkStep s t) : t.workLeft + 1 = s.workLeft := by
  by_cases looping : s.work.looping = true
  · have inv := LoopInv.of_ring ring looping
    have pays : 1 + t.accessesLeft = s.accessesLeft + 10 * 0 :=
      (inv.workStep looping access).2.accesses
    rw [State.workLeft_looping looping]
    rcases access.looping_cases looping with inside | ⟨idle, pc, regs⟩
    · rw [State.workLeft_looping inside]
      omega
    · have left : s.accessesLeft = 10 * s.regs.backlog + 1 := by rw [State.accessesLeft, pc]
      have none : t.accessesLeft = 0 := by rw [State.accessesLeft, idle]
      have all : t.workLeft = 10 * s.regs.backlog := by rw [State.workLeft, idle, regs]
      omega
  · cases access with
    | sleep pc => simp only [State.workLeft, pc]
    | readLedOff pc => simp only [State.workLeft, pc]
    | writeLedOff pc => simp only [State.workLeft, State.accessesLeft, pc]; rfl
    | readTail pc | readHead pc | done pc | readData pc | readStatus pc | readLength pc
    | logHead pc | logTail pc | writeTail pc | readLed pc | writeLed pc =>
        rw [pc] at looping
        exact (looping rfl).elim

/-- The handler and the device's causes are not the worker's. -/
theorem State.workLeft_eq {s t : State} (backlog : t.regs.backlog = s.regs.backlog)
    (work : t.work = s.work) : t.workLeft = s.workLeft := by
  rw [State.workLeft, State.workLeft, State.accessesLeft, State.accessesLeft, backlog, work]

theorem State.causeLeft_le (s : State) : s.causeLeft ≤ 15 := by
  rw [State.causeLeft]
  split <;> omega

theorem State.causeLeft_zero {s : State} (none : s.regs.icr = 0) : s.causeLeft = 0 :=
  if_neg fun pending => pending.1 none

/-- Where no cause comes up, none is left that was not. -/
theorem State.causeLeft_mono {s t : State} (quiet : s.regs.icr = 0 → t.regs.icr = 0)
    (late : s.irq ≠ .readIcr) : t.causeLeft ≤ s.causeLeft := by
  by_cases none : s.regs.icr = 0
  · rw [State.causeLeft_zero (quiet none)]
    exact Nat.zero_le _
  · rw [show s.causeLeft = 15 from if_pos ⟨none, late⟩]
    exact t.causeLeft_le

theorem IrqStep.stepsLeft {s t : State} (access : IrqStep s t) :
    t.stepsLeft + 1 ≤ s.stepsLeft := by
  obtain ⟨kept, same⟩ := RingKept.of_irqStep access
  have work : t.workLeft = s.workLeft := State.workLeft_eq kept.backlog same
  have pays : t.queueLeft + t.irq.left + 1 ≤ s.queueLeft + s.irq.left ∧
      t.causeLeft ≤ s.causeLeft := by
    cases access with
    | none pc =>
        refine ⟨?_, (State.causeLeft_zero rfl).trans_le (Nat.zero_le _)⟩
        rw [pc]
        exact Nat.add_le_add_left (by decide : 0 + 1 ≤ 14) s.queueLeft
    | readIcr pc =>
        refine ⟨?_, (State.causeLeft_zero rfl).trans_le (Nat.zero_le _)⟩
        rw [pc]
        exact Nat.le_refl _
    | readIms pc | writeImc pc | readLed pc | writeLed pc | writeIms pc =>
        refine ⟨?_, State.causeLeft_mono id (by rw [pc]; nofun)⟩
        rw [pc]
        exact Nat.le_refl _
    | schedule pc =>
        refine ⟨?_, State.causeLeft_mono id (by rw [pc]; nofun)⟩
        rw [pc]
        exact Nat.le_add_left _ s.queueLeft
    | writeIcr pc =>
        refine ⟨?_, State.causeLeft_mono (fun none => ?_) (by rw [pc]; nofun)⟩
        · rw [pc]
          exact Nat.le_refl _
        · change s.regs.icr &&& ~~~rxdmt0 = 0
          rw [none]
          exact BitVec.zero_and
  rw [State.stepsLeft, State.stepsLeft, work]
  omega

theorem RingInv.stepsLeft {s t : State} {w : Window 16} (ring : RingInv s w)
    (access : WorkStep s t) : t.stepsLeft + 1 = s.stepsLeft := by
  have work := ring.workLeft access
  have irq : t.irq = s.irq := by cases access <;> rfl
  have queue : t.queueLeft = s.queueLeft := by cases access <;> rfl
  have causes : t.causeLeft = s.causeLeft := by cases access <;> rfl
  rw [State.stepsLeft, State.stepsLeft, queue, irq, causes]
  omega

theorem RingInv.backlog {s : State} {w : Window 16} (ring : RingInv s w) :
    s.regs.backlog = w.produced - w.consumed :=
  Regs.backlog_of_window ring.head ring.tail

/-- A packet adds an iteration, and a handler run if it raises the cause. -/
theorem RingInv.stepsLeft_receive {s t : State} {w : Window 16} (ring : RingInv s w)
    (contents : Descriptor) (room : s.regs.rdh0 ≠ s.regs.rdt0)
    (moved : t = { s with
      regs := s.regs.receive
      rxDE := Function.update s.rxDE s.regs.rdh0.toNat contents
      completed := s.completed ++ [(s.regs.rdh0.toNat, contents)] }) :
    t.stepsLeft ≤ s.stepsLeft + (10 + 15 * caused s (.receive contents)) := by
  have work : t.workLeft = s.workLeft + 10 := by
    by_cases looping : s.work.looping = true
    · have pays : 0 + t.accessesLeft = s.accessesLeft + 10 * 1 :=
        ((LoopInv.of_ring ring looping).receive contents looping room moved).2.accesses
      have inside : t.work.looping = true := by rw [moved]; exact looping
      rw [State.workLeft_looping inside, State.workLeft_looping looping]
      omega
    · have lower := w.consumed_le
      have next := ring.receive contents room
      rw [← moved] at next
      have more : t.regs.backlog = s.regs.backlog + 1 := by
        rw [next.backlog, ring.backlog]
        simp only [Window.produce]
        omega
      have work : t.work = s.work := by rw [moved]
      rw [State.workLeft, State.workLeft, more, work]
      cases pc : s.work with
      | idle | sleep | readLedOff | writeLedOff led =>
          dsimp only
          omega
      | _ =>
          rw [pc] at looping
          exact (looping rfl).elim
  have causes : t.causeLeft ≤ s.causeLeft + 15 * caused s (.receive contents) := by
    by_cases crossing : s.regs.receive.freeCount = 8
    · rw [caused, if_pos crossing]
      exact t.causeLeft_le.trans (Nat.le_add_left ..)
    · have icr : t.regs.icr = s.regs.icr := by
        rw [moved]
        exact (Regs.receive_icr _).trans (if_neg crossing)
      have irq : t.irq = s.irq := by rw [moved]
      rw [State.causeLeft, State.causeLeft, icr, irq]
      exact Nat.le_add_right ..
  have irq : t.irq = s.irq := by rw [moved]
  have queue : t.queueLeft = s.queueLeft := by rw [moved]; rfl
  rw [State.stepsLeft, State.stepsLeft, queue, irq]
  omega

/-- Every step of the system is paid for. -/
theorem RingInv.pays {s t : State} {w : Window 16} {l : Label} (ring : RingInv s w)
    (prompted : Prompted s l) (moved : Step s l t) :
    stepped s l + t.stepsLeft ≤ s.stepsLeft + (10 * received s l + 15 * caused s l) := by
  cases moved with
  | @receive contents room =>
      have paid := ring.stepsLeft_receive contents room rfl
      change 0 + _ ≤ _ + (10 * 1 + _)
      omega
  | @raise causes =>
      have causes :=
        State.causeLeft_le { s with regs := { s.regs with icr := s.regs.icr ||| causes } }
      change 0 + (s.workLeft + s.queueLeft + s.irq.left + _) ≤
        s.workLeft + s.queueLeft + s.irq.left + s.causeLeft + 15 * 1
      omega
  | interrupt rest =>
      have pending : s.regs.icr ≠ 0 := by
        intro none
        rw [Prompted, none] at prompted
        exact prompted BitVec.zero_and
      have before : s.causeLeft = 15 := if_pos ⟨pending, by rw [rest]; nofun⟩
      have after : State.causeLeft { s with irq := .readIcr } = 0 := if_neg fun other => other.2 rfl
      change 1 + (s.workLeft + s.queueLeft + 14 + State.causeLeft _) ≤
        s.workLeft + s.queueLeft + s.irq.left + s.causeLeft + 0
      rw [after, before]
      omega
  | irq access =>
      have paid := access.stepsLeft
      change 1 + _ ≤ _ + 0
      omega
  | dispatch ready rest =>
      have queued : s.queueLeft = 6 := if_pos ready
      have idle : s.workLeft = 10 * s.regs.backlog := by rw [State.workLeft, rest]
      change 1 + (10 * s.regs.backlog + 5 + 0 + s.irq.left + s.causeLeft) ≤
        s.workLeft + s.queueLeft + s.irq.left + s.causeLeft + 0
      omega
  | work access =>
      have paid := ring.stepsLeft access
      change 1 + _ ≤ _ + 0
      omega
  | poke => exact Nat.le_of_eq (Nat.zero_add _)

/-- What is left is ten accesses for each descriptor of the backlog and at most one
handler run under way, one to come and one worker run. -/
theorem State.stepsLeft_le (s : State) : s.stepsLeft ≤ 10 * s.regs.backlog + 39 := by
  have work : s.workLeft ≤ 10 * s.regs.backlog + 5 := by
    rw [State.workLeft, State.accessesLeft]
    cases s.work <;> dsimp only <;> omega
  have queue : s.queueLeft ≤ 6 := by
    rw [State.queueLeft]
    split <;> omega
  have handler : s.irq.left + s.causeLeft ≤ 28 := by
    have cause := s.causeLeft_le
    cases pc : s.irq with
    | readIcr =>
        have none : s.causeLeft = 0 := if_neg fun other => other.2 pc
        rw [none]
        decide
    | _ =>
        simp only [IrqPc.left]
        omega
  rw [State.stepsLeft]
  omega

/-- The ring invariant holds along every run. -/
theorem ringInv_of_run {s t : State} {trace : List (State × Label)} (run : Run step s trace t)
    (start : ∃ w, RingInv s w) : ∃ w, RingInv t w := by
  induction run with
  | refl => exact start
  | snoc _ edge ih =>
      obtain ⟨w, ring⟩ := ih
      obtain ⟨w', -, next⟩ := ring.step (.of_step edge)
      exact ⟨w', next⟩

/-- The account of a run. -/
theorem stepped_le {s t : State} {trace : List (State × Label)} (ring : ∃ w, RingInv s w)
    (run : Run step s trace t) (prompted : Meets Prompted trace) :
    total stepped trace ≤ 10 * s.regs.backlog + 39 +
      (10 * total received trace + 15 * total caused trace) := by
  have account := run.account_le State.stepsLeft stepped
    (fun s l => 10 * received s l + 15 * caused s l)
    (fun _ _ _ inv _ moved => ringInv_of_run (.single moved) inv)
    (fun _ _ _ inv ok moved => by
      obtain ⟨w, ring⟩ := inv
      exact ring.pays ok (.of_step moved))
    prompted ring
  have left := s.stepsLeft_le
  rw [total_add, total_mul, total_mul] at account
  omega

/-! ## At rest -/

/-- The mask is the given one, or a running handler has saved it and cleared it. -/
structure MaskInv (mask : U32) (s : State) : Prop where
  saved : ∀ irqMask, s.irq.saved = some irqMask → irqMask = mask
  unmasked : s.irq.masked = false → s.regs.ims = mask
  masked : s.irq.masked = true → s.regs.ims = 0

namespace MaskInv

variable {mask : U32} {s t : State}

theorem of_idle (idle : s.irq = .idle) : MaskInv s.regs.ims s where
  saved irqMask same := by
    rw [idle] at same
    cases same
  unmasked _ := rfl
  masked on := by
    rw [idle] at on
    cases on

/-- A step that leaves the mask and the handler alone. -/
theorem frame (inv : MaskInv mask s) (ims : t.regs.ims = s.regs.ims) (irq : t.irq = s.irq) :
    MaskInv mask t where
  saved := by rw [irq]; exact inv.saved
  unmasked := by rw [irq, ims]; exact inv.unmasked
  masked := by rw [irq, ims]; exact inv.masked

theorem irqStep (inv : MaskInv mask s) (access : IrqStep s t) : MaskInv mask t := by
  cases access with
  | none pc | readIcr pc => exact ⟨nofun, fun _ => inv.unmasked (by rw [pc]; rfl), nofun⟩
  | readIms pc =>
      have same := inv.unmasked (by rw [pc]; rfl)
      refine ⟨fun irqMask saved => ?_, fun _ => same, nofun⟩
      cases saved
      exact same
  | writeImc pc => exact ⟨fun _ saved => inv.saved _ (by rw [pc]; exact saved), nofun, fun _ => rfl⟩
  | readLed pc | writeLed pc | schedule pc | writeIcr pc =>
      exact ⟨fun _ saved => inv.saved _ (by rw [pc]; exact saved), nofun,
        fun _ => inv.masked (by rw [pc]; rfl)⟩
  | @writeIms irqMask pc =>
      refine ⟨nofun, fun _ => ?_, nofun⟩
      change s.regs.ims ||| irqMask = mask
      rw [inv.masked (by rw [pc]; rfl), inv.saved irqMask (by rw [pc]; rfl)]
      exact BitVec.zero_or

theorem step {l : Label} (inv : MaskInv mask s) (moved : Step s l t) : MaskInv mask t := by
  cases moved with
  | receive => exact inv.frame (Regs.receive_ims _) rfl
  | raise | dispatch | poke => exact inv.frame rfl rfl
  | interrupt rest => exact ⟨nofun, fun _ => inv.unmasked (by rw [rest]; rfl), nofun⟩
  | irq access => exact inv.irqStep access
  | work access => cases access <;> exact inv.frame rfl rfl

end MaskInv

/-- Neither function runs or is about to, with the given interrupt mask in force. -/
structure Rested (mask : U32) (s : State) : Prop extends AtRest s where
  queued : s.queued = false
  ims : s.regs.ims = mask
  icr : s.regs.icr &&& s.regs.ims = 0

theorem exists_irqStep {s : State} (running : s.irq ≠ .idle) : ∃ t, irqHandler s = some t := by
  rw [irqHandler]
  cases pc : s.irq with
  | idle => exact (running pc).elim
  | readIcr =>
      dsimp only [readl]
      split <;> exact ⟨_, rfl⟩
  | _ => exact ⟨_, rfl⟩

theorem exists_threadStep {s : State} (running : s.work ≠ .idle) :
    ∃ t, threadFunction s = some t := by
  by_cases looping : s.work.looping = true
  · exact exists_workStep looping
  · rw [threadFunction]
    cases pc : s.work with
    | idle => exact (running pc).elim
    | sleep | readLedOff | writeLedOff led => exact ⟨_, rfl⟩
    | _ =>
        rw [pc] at looping
        exact (looping rfl).elim

/-- Where no step of the handler or the worker is enabled, they are at rest. -/
theorem Rested.of_settled {mask : U32} {s : State} (inv : MaskInv mask s)
    (settled : Settled step OwnStep s) : Rested mask s := by
  have irq : s.irq = .idle := by
    by_contra running
    obtain ⟨t, moved⟩ := exists_irqStep running
    cases moved.symm.trans (settled .irqStep trivial)
  have work : s.work = .idle := by
    by_contra running
    obtain ⟨t, moved⟩ := exists_threadStep running
    cases moved.symm.trans (settled .workStep trivial)
  refine ⟨⟨irq, work⟩, ?_, inv.unmasked (by rw [irq]; rfl), ?_⟩
  · by_contra ready
    have stuck := settled .dispatch trivial
    simp [step, work, ready] at stuck
  · by_contra pending
    have stuck := settled .interrupt pending
    simp [step, irq] at stuck

/-- Nothing covers a full ring at rest. -/
theorem Rested.not_covered {mask : U32} {s : State} (rest : Rested mask s) : ¬ Covered s := by
  rintro (⟨cause, unmasked | ⟨irqMask, saved, -⟩⟩ | scheduling | ready | running)
  · have both : (s.regs.icr &&& s.regs.ims).getLsbD 4 = true := by
      rw [BitVec.getLsbD_and, (thresholdSet_iff _).mp cause, (thresholdSet_iff _).mp unmasked]
      rfl
    rw [rest.icr] at both
    cases both
  · rw [rest.irq] at saved
    cases saved
  · rw [rest.irq] at scheduling
    cases scheduling
  · rw [rest.queued] at ready
    cases ready
  · exact running rest.work

/-- No worker run is owed at rest. -/
theorem Rested.not_owed {mask : U32} {s : State} (rest : Rested mask s) : ¬ OffOwed s := by
  rintro (lit | ready | early)
  · rw [rest.irq] at lit
    cases lit
  · rw [rest.queued] at ready
    cases ready
  · rw [rest.work] at early
    cases early

/-- Until the interrupt is unmasked neither function has run. -/
theorem Unmasked.rest {s : State} (start : Unmasked s) :
    AtRest s ∧ s.queued = false ∧ s.regs.ims = rxdmt0 := by
  obtain ⟨ready, trace, before, ring, masked, irq, queued, run, device, rfl⟩ := start.reached
  have same : (before.irq = .idle ∧ before.work = .idle) ∧ before.queued = false ∧
      before.regs.ims = 0 := by
    clear start
    induction run with
    | refl => exact ⟨⟨irq, ring.work⟩, queued, masked⟩
    | snoc _ edge ih =>
        obtain ⟨front, last⟩ := meets_append.mp device
        obtain ⟨idle, unqueued, clear⟩ := ih front
        have allowed := meets_singleton.mp last
        cases Step.of_step edge with
        | receive => exact ⟨idle, unqueued, (Regs.receive_ims _).trans clear⟩
        | raise => exact ⟨idle, unqueued, clear⟩
        | interrupt | irq | dispatch | work | poke => exact allowed.elim
  obtain ⟨idle, unqueued, clear⟩ := same
  refine ⟨⟨idle.1, idle.2⟩, unqueued, ?_⟩
  change before.regs.ims ||| rxdmt0 = rxdmt0
  rw [clear]
  exact BitVec.zero_or

/-- **The driver's work is paid for by the device.** In every run of the set-up ring in
which the handler is started only for causes that are pending and unmasked, the handler
and the worker take at most ten steps for each descriptor the device had completed or
completes and fifteen for each cause it raises, and at most 39 more. -/
theorem steps_amortized {boot s t : State} {before trace : List (State × Label)}
    (start : RingSetUp boot) (reached : Run step boot before s) (run : Run step s trace t)
    (prompted : Meets Prompted trace) :
    total stepped trace ≤ 10 * s.regs.backlog + 39 +
      (10 * total received trace + 15 * total caused trace) :=
  stepped_le (start.inv_of_run reached) run prompted

/-- Seven packets, the handler and the worker: one interrupt and 85 steps. -/
theorem steps_amortized_first_packets :
    ∃ t trace, Run step .afterProbe trace t ∧ total stepped trace = 85 ∧
      total stepped trace ≤ 10 * State.afterProbe.regs.backlog + 39 +
        (10 * total received trace + 15 * total caused trace) := by
  obtain ⟨t, trace, run, prompted, count⟩ := Run.of_traced_any step .afterProbe
    (List.replicate 7 (.receive .blank) ++ .interrupt :: List.replicate 8 .irqStep ++
      .dispatch :: List.replicate 75 .workStep)
    (fun r => Meets Prompted r.1 ∧ total stepped r.1 = 85) (by decide +kernel)
  exact ⟨t, trace, run, count, steps_amortized ⟨rfl, rfl, rfl, rfl, rfl⟩ .refl run prompted⟩

/-- **The driver comes to rest.** Whatever has happened since the interrupt was
unmasked, once the device is quiet and `LEDCTL` is left alone the handler and the
worker stop after at most ten steps for each descriptor of the backlog and 39 more.
Where they stop the interrupt mask is restored, no unmasked cause is pending, LED 0 is off if
nobody else stored into `LEDCTL`, and unless an acknowledging write of the handler
erased a threshold more than half of the ring is free. -/
theorem comes_to_rest {s t : State} {trace : List (State × Label)} (start : Unmasked s)
    (run : Run step s trace t) :
    (∃ u back, Run step t back u ∧ Meets OwnStep back ∧ Settled step OwnStep u) ∧
    ∀ u back, Run step t back u → Meets OwnStep back →
      back.length ≤ 10 * t.regs.backlog + 39 ∧
      (Settled step OwnStep u → Rested rxdmt0 u ∧
        (s.regs.ledctl.getLsbD led0 = false → Meets NoPoke trace →
          u.regs.ledctl.getLsbD led0 = false) ∧
        (Meets AckCovered (trace ++ back) → 8 < u.regs.freeCount)) := by
  obtain ⟨idle, -, mask⟩ := start.rest
  have ring := ringInv_of_run run start.inv.ring
  constructor
  · refine Run.exists_settled State.stepsLeft
      (fun _ _ _ inv _ moved => ringInv_of_run (.single moved) inv)
      (fun a l b inv own moved => ?_) ring
    obtain ⟨w, inv⟩ := inv
    have paid := inv.pays own.prompted (.of_step moved)
    obtain ⟨one, noPacket, noCause⟩ := own.counts
    omega
  · intro u back after own
    have whole := run.trans after
    constructor
    · have account := stepped_le ring after (own.mono fun _ _ => OwnStep.prompted)
      rw [total_one (fun _ _ own => own.counts.1) own,
        total_zero (fun _ _ own => own.counts.2.1) own,
        total_zero (fun _ _ own => own.counts.2.2) own] at account
      omega
    · intro settled
      have masks : MaskInv rxdmt0 u := by
        refine whole.invariant (fun _ _ _ inv _ moved => inv.step (.of_step moved))
          whole.meets_true ?_
        exact mask ▸ MaskInv.of_idle idle.irq
      have rest := Rested.of_settled masks settled
      refine ⟨rest, fun off only => ?_, fun allowed => ?_⟩
      · -- The handler lights LED 0 only on its way to queue a worker run.
        have lit : LitInv s := by
          refine ⟨fun on => ?_, fun tail led pc => ?_⟩
          · rw [off] at on
            cases on
          · rw [idle.work] at pc
            cases pc
        have quiet : Meets NoPoke (trace ++ back) := by
          refine meets_append.mpr ⟨only, own.mono fun _ l own => ?_⟩
          cases l with
          | poke => exact own
          | _ => trivial
        have inv := whole.invariant (fun _ _ _ inv ok moved => inv.step ok (.of_step moved))
          quiet lit
        by_contra on
        exact rest.not_owed (inv.register (Bool.eq_true_of_not_eq_false on))
      · have inv := whole.invariant (fun _ _ _ inv ok moved => inv.step ok (.of_step moved))
          allowed start.inv
        by_contra low
        exact rest.not_covered (inv.covered (not_lt.mp low))

/-- Seven packets, and then nothing: the driver empties the ring and rests. -/
theorem comes_to_rest_first_packets :
    ∃ t trace u back, Run step .afterProbe trace t ∧ t.regs.freeCount = 8 ∧
      Run step t back u ∧ Rested rxdmt0 u ∧ u.regs.ledctl.getLsbD led0 = false := by
  obtain ⟨t, trace, run, only, low⟩ := Run.of_traced_any step .afterProbe
    (List.replicate 7 (.receive .blank))
    (fun r => Meets NoPoke r.1 ∧ r.2.regs.freeCount = 8) (by decide +kernel)
  obtain ⟨⟨u, back, after, own, settled⟩, ends⟩ := comes_to_rest State.unmasked_afterProbe run
  obtain ⟨rest, off, -⟩ := (ends u back after own).2 settled
  exact ⟨t, trace, u, back, run, low, after, rest, off (by decide) only⟩

/-! ## Worker runs and thresholds -/

/-- A worker run is started. -/
def dispatched (_ : State) : Label → Nat
  | .dispatch => 1
  | _ => 0

/-- The threshold cause is raised: by a receive that leaves half of the ring free, or by
the device for another reason. -/
def crossed (s : State) : Label → Nat
  | .receive _ => if s.regs.receive.freeCount = 8 then 1 else 0
  | .raise causes => if ThresholdSet causes then 1 else 0
  | _ => 0

/-- The handler has found the threshold cause and will queue the work. -/
def IrqPc.accepted : IrqPc → Bool
  | .readIms | .writeImc _ | .readLed _ | .writeLed _ _ | .schedule _ => true
  | _ => false

/-- The threshold cause is set. -/
def State.noticed (s : State) : Nat := if ThresholdSet s.regs.icr then 1 else 0

/-- The thresholds that have been crossed and for which the work has not been started. -/
def State.pending (s : State) : Nat := s.noticed + s.irq.accepted.toNat + s.queued.toNat

theorem State.noticed_le (s : State) : s.noticed ≤ 1 := by
  unfold State.noticed
  split <;> omega

theorem State.noticed_mono {s t : State}
    (set : ThresholdSet t.regs.icr → ThresholdSet s.regs.icr) : t.noticed ≤ s.noticed := by
  unfold State.noticed
  by_cases still : ThresholdSet t.regs.icr
  · rw [if_pos still, if_pos (set still)]
  · rw [if_neg still]
    exact Nat.zero_le _

theorem IrqStep.pending {s t : State} (access : IrqStep s t) : t.pending ≤ s.pending := by
  have set_icr : ¬ ThresholdSet 0 := by decide
  cases access with
  | none pc clear =>
      simp only [State.pending, State.noticed, set_icr, if_false, pc, IrqPc.accepted]
      omega
  | readIcr pc raised =>
      have set : ThresholdSet s.regs.icr := raised
      simp only [State.pending, State.noticed, set_icr, set, if_false, if_true, pc,
        IrqPc.accepted, Bool.toNat_true, Bool.toNat_false]
      omega
  | schedule pc =>
      have queued := Bool.toNat_le s.queued
      simp only [State.pending, State.noticed, pc, IrqPc.accepted, Bool.toNat_true,
        Bool.toNat_false]
      omega
  | writeIcr pc =>
      have less : ({ s with
          regs := { s.regs with icr := s.regs.icr &&& ~~~rxdmt0 } } : State).noticed ≤
          s.noticed :=
        State.noticed_mono fun set => (not_thresholdSet_ack _ set).elim
      simp only [State.pending, pc, IrqPc.accepted]
      exact Nat.add_le_add_right (Nat.add_le_add_right less _) _
  | readIms pc | writeImc pc | readLed pc | writeLed pc | writeIms pc =>
      simp only [State.pending, State.noticed, pc, IrqPc.accepted]
      exact le_refl _

/-- Of two sets of causes one has what their union has. -/
theorem ThresholdSet.of_or {x y : U32} (set : ThresholdSet (x ||| y)) :
    ThresholdSet x ∨ ThresholdSet y := by
  rw [thresholdSet_iff, BitVec.getLsbD_or, Bool.or_eq_true] at set
  rwa [thresholdSet_iff, thresholdSet_iff]

/-- A step of the device. -/
theorem State.pending_of_noticed {s t : State} {more : Nat} (irq : t.irq = s.irq)
    (queued : t.queued = s.queued) (noticed : t.noticed ≤ s.noticed + more) :
    0 + t.pending ≤ s.pending + more := by
  simp only [State.pending, irq, queued]
  omega

/-- Every start of the work takes off one threshold, and only a crossing adds one. -/
theorem Step.pending {s t : State} {l : Label} (moved : Step s l t) :
    dispatched s l + t.pending ≤ s.pending + crossed s l := by
  cases moved with
  | receive room =>
      refine State.pending_of_noticed rfl rfl ?_
      simp only [crossed]
      split
      · exact (State.noticed_le _).trans (Nat.le_add_left ..)
      · rename_i above
        refine (State.noticed_mono fun set => ?_).trans (Nat.le_add_right ..)
        dsimp only at set
        rwa [Regs.receive_icr, if_neg above] at set
  | @raise causes =>
      refine State.pending_of_noticed rfl rfl ?_
      simp only [crossed]
      split
      · exact (State.noticed_le _).trans (Nat.le_add_left ..)
      · rename_i other
        exact (State.noticed_mono fun set => set.of_or.resolve_right other).trans
          (Nat.le_add_right ..)
  | interrupt rest =>
      simp only [dispatched, crossed, State.pending, State.noticed, rest, IrqPc.accepted]
      omega
  | irq access =>
      have less := access.pending
      simp only [dispatched, crossed]
      omega
  | dispatch ready =>
      simp only [dispatched, crossed, State.pending, State.noticed, ready, Bool.toNat_true,
        Bool.toNat_false]
      omega
  | work access =>
      have same : t.pending = s.pending := by cases access <;> rfl
      simp only [dispatched, crossed]
      omega
  | poke =>
      exact State.pending_of_noticed rfl rfl (Nat.le_refl _)

/-- A step that does not start the work leaves an idle worker idle and the ring as the
worker left it. -/
theorem Step.unworked {s t : State} {l : Label} (moved : Step s l t) (idle : s.work = .idle)
    (none : dispatched s l = 0) :
    t.work = .idle ∧ t.processed = s.processed ∧ t.regs.rdt0 = s.regs.rdt0 := by
  cases moved with
  | receive => exact ⟨idle, rfl, Regs.receive_rdt0 _⟩
  | raise | interrupt | poke => exact ⟨idle, rfl, rfl⟩
  | irq access =>
      obtain ⟨kept, work⟩ := RingKept.of_irqStep access
      exact ⟨work.trans idle, kept.processed, kept.tail⟩
  | dispatch => cases none
  | work access => exact (access.running idle).elim

/-- **Every run of the worker has a threshold of its own.** In every run the work is
started at most as often as the threshold cause is raised, counting what was pending at
the start; so until it is raised for the first time a driver at rest prints nothing and
gives no descriptor back, however many packets wait. -/
theorem runs_paid {s t : State} {trace : List (State × Label)} (run : Run step s trace t) :
    total dispatched trace + t.pending ≤ s.pending + total crossed trace ∧
      (s.work = .idle → s.pending = 0 → total crossed trace = 0 →
        t.processed = s.processed ∧ t.regs.rdt0 = s.regs.rdt0) := by
  have paid := run.account_le State.pending dispatched crossed
    (fun _ _ _ (_ : True) _ _ => trivial) (fun _ _ _ _ _ moved => (Step.of_step moved).pending)
    run.meets_true trivial
  refine ⟨paid, fun idle nothing uncrossed => ?_⟩
  have unworked : ∀ {u : State} {front : List (State × Label)}, Run step s front u →
      total dispatched front = 0 →
      u.work = .idle ∧ u.processed = s.processed ∧ u.regs.rdt0 = s.regs.rdt0 := by
    intro u front run none
    induction run with
    | refl => exact ⟨idle, rfl, rfl⟩
    | snoc front edge ih =>
        rw [total_append, total_singleton] at none
        obtain ⟨still, processed, tail⟩ := ih (by omega)
        obtain ⟨after, printed, given⟩ := (Step.of_step edge).unworked still (by omega)
        exact ⟨after, printed.trans processed, given.trans tail⟩
  exact (unworked run (by omega)).2

/-- Six packets and a handler started without a cause: nothing is printed. -/
theorem runs_paid_six_packets :
    ∃ t trace, Run step .afterProbe trace t ∧ t.completed.length = 6 ∧ t.processed = [] := by
  obtain ⟨t, trace, run, uncrossed, received⟩ := Run.of_traced_any step .afterProbe
    (List.replicate 6 (.receive .blank) ++ [.interrupt, .irqStep])
    (fun r => total crossed r.1 = 0 ∧ r.2.completed.length = 6) (by decide +kernel)
  exact ⟨t, trace, run, received, ((runs_paid run).2 rfl rfl uncrossed).1⟩

end BlinkDriver.Hw6
