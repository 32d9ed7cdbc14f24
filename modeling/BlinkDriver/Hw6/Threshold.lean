import BlinkDriver.Hw6.Ring

/-!
# The threshold interrupt

The device interrupts when half of the ring is left, and nothing but the worker
gives slots back. So whenever half of the ring or less is free, something must
still lead to a run of the worker: the cause is pending and unmasked (or its
mask will be restored), the handler is on its way to `schedule_work`, the work
item is queued, or the worker has not left its loop (`Covered`).

`irq_handler` clears the cause twice. The read on entry is harmless, because the
handler goes on to queue the work. The write after `schedule_work` erases a
threshold crossed in between, and nothing covers it when the worker has already
run: `threshold_lost` is such a run. `AckCovered` is the condition on that write
under which the ring never stalls, and `covered_iff` says that it is exact.
-/

namespace BlinkDriver.Hw6

open Transition HandoverRing

/-- The mask a running handler has saved and not yet written back. -/
def IrqPc.saved : IrqPc → Option U32
  | .writeImc irqMask | .readLed irqMask | .writeLed irqMask _ | .schedule irqMask
  | .writeIcr irqMask | .writeIms irqMask => some irqMask
  | _ => none

/-- The handler has cleared the mask register and not yet restored it. -/
def IrqPc.masked : IrqPc → Bool
  | .readLed _ | .writeLed _ _ | .schedule _ | .writeIcr _ | .writeIms _ => true
  | _ => false

/-- The handler has read the cause and not yet queued the work. -/
def IrqPc.scheduling : IrqPc → Bool
  | .readIms | .writeImc _ | .readLed _ | .writeLed _ _ | .schedule _ => true
  | _ => false

/-- The cause is pending, and it is unmasked or a running handler will restore
a mask that has it. -/
def Pending (s : State) : Prop :=
  ThresholdSet s.regs.icr ∧
    (ThresholdSet s.regs.ims ∨ ∃ irqMask, s.irq.saved = some irqMask ∧ ThresholdSet irqMask)

/-- A run of the worker that will see the present state of the ring is under way
or certain to come. -/
def Covered (s : State) : Prop :=
  Pending s ∨ s.irq.scheduling = true ∨ s.queued = true ∨ s.work ≠ .idle

/-- The device only receives and raises causes. -/
def DeviceOnly (_ : State) : Label → Prop
  | .receive _ | .raise _ => True
  | _ => False

/-- What is assumed of the device and of interrupt delivery: the threshold cause
comes from nowhere but a receive, and the handler is started only for a cause
that is pending and unmasked. -/
def DeviceAssumed (s : State) : Label → Prop
  | .raise causes => ¬ ThresholdSet causes
  | .interrupt => s.regs.icr &&& s.regs.ims ≠ 0
  | _ => True

instance (s : State) : ∀ l, Decidable (DeviceAssumed s l)
  | .raise causes => inferInstanceAs (Decidable (¬ ThresholdSet causes))
  | .interrupt => inferInstanceAs (Decidable (s.regs.icr &&& s.regs.ims ≠ 0))
  | .receive _ | .irqStep | .dispatch | .workStep | .poke _ => inferInstanceAs (Decidable True)

/-- The state in which `make_DMA` unmasks the interrupt. Its ring may have been
receiving since `RCTL` was written; the handler and the worker have not run. -/
structure Unmasked (s : State) : Prop where
  reached : ∃ ready trace before, RingSetUp ready ∧ ready.regs.ims = 0 ∧ ready.irq = .idle ∧
    ready.queued = false ∧ Run step ready trace before ∧ Meets DeviceOnly trace ∧
    s = { before with regs := writel rxdmt0 .ims before.regs }

/-- The handler's acknowledging write of `ICR` finds more than half of the ring
free, or a worker run still to finish. -/
def AckCovered (s : State) : Label → Prop
  | .irqStep => ∀ irqMask, s.irq = .writeIcr irqMask → s.regs.freeCount ≤ 8 →
      s.queued = true ∨ s.work ≠ .idle
  | _ => True

/-- What holds at every program point of the handler and the worker. -/
structure ThresholdInv (s : State) : Prop where
  ring : ∃ w, RingInv s w
  saved : ∀ irqMask, s.irq.saved = some irqMask → ThresholdSet irqMask
  unmasked : s.irq.masked = false → ThresholdSet s.regs.ims
  covered : s.regs.freeCount ≤ 8 → Covered s

/-! ## Receiving -/

/-- A receive takes one free slot. -/
theorem RingInv.receive_freeCount {s : State} {w : Window 16} (inv : RingInv s w)
    (room : s.regs.rdh0 ≠ s.regs.rdt0) :
    s.regs.receive.freeCount = s.regs.freeCount - 1 := by
  have before := inv.freeCount
  have after := (inv.receive .blank room).freeCount
  simp only [Window.produce] at after
  rw [after, before]
  omega

/-- Only the receive that crosses the threshold makes `Covered` due, and that
receive raises the cause. -/
theorem receive_thresholdSet {s : State} {w : Window 16} (inv : RingInv s w)
    (room : s.regs.rdh0 ≠ s.regs.rdt0) (above : 8 < s.regs.freeCount)
    (low : s.regs.receive.freeCount ≤ 8) : ThresholdSet s.regs.receive.icr := by
  have taken := inv.receive_freeCount room
  have crossing : s.regs.receive.freeCount = 8 := by omega
  rw [Regs.receive_icr, if_pos crossing]
  exact thresholdSet_or_rxdmt0 _

theorem ThresholdSet.receive {regs : Regs} (set : ThresholdSet regs.icr) :
    ThresholdSet regs.receive.icr := by
  rw [Regs.receive_icr]
  split
  · exact set.or_left _
  · exact set

/-! ## The invariant -/

namespace ThresholdInv

variable {s : State}

/-- The mask is in force or will be restored. -/
theorem mask (inv : ThresholdInv s) :
    ThresholdSet s.regs.ims ∨ ∃ irqMask, s.irq.saved = some irqMask ∧ ThresholdSet irqMask := by
  cases masked : s.irq.masked with
  | false => exact Or.inl (inv.unmasked masked)
  | true =>
      have exists_saved : ∃ irqMask, s.irq.saved = some irqMask := by
        cases pc : s.irq <;> rw [pc] at masked <;> first | exact ⟨_, rfl⟩ | cases masked
      obtain ⟨irqMask, saved⟩ := exists_saved
      exact Or.inr ⟨irqMask, saved, inv.saved irqMask saved⟩

theorem receive (inv : ThresholdInv s) (contents : Descriptor)
    (room : s.regs.rdh0 ≠ s.regs.rdt0) :
    ThresholdInv { s with
      regs := s.regs.receive
      rxDE := Function.update s.rxDE s.regs.rdh0.toNat contents
      completed := s.completed ++ [(s.regs.rdh0.toNat, contents)] } := by
  obtain ⟨w, ring⟩ := inv.ring
  refine ⟨⟨_, ring.receive contents room⟩, inv.saved, ?_, ?_⟩
  · intro unmasked
    rw [Regs.receive_ims]
    exact inv.unmasked unmasked
  · intro low
    rcases lt_or_ge 8 s.regs.freeCount with above | below
    · refine Or.inl ⟨receive_thresholdSet ring room above low, ?_⟩
      rw [Regs.receive_ims]
      exact inv.mask
    · rcases inv.covered below with pending | rest
      · refine Or.inl ⟨pending.1.receive, ?_⟩
        rw [Regs.receive_ims]
        exact inv.mask
      · exact Or.inr rest

/-- One access of the handler. The acknowledging write is the one that needs
the condition. -/
theorem irqStep {t : State} (inv : ThresholdInv s) (allowed : AckCovered s .irqStep)
    (access : IrqStep s t) : ThresholdInv t := by
  obtain ⟨w, ring⟩ := inv.ring
  obtain ⟨kept, work⟩ := RingKept.of_irqStep access
  have ring' : ∃ w, RingInv t w := ⟨w, ring.frame kept work⟩
  cases access with
  | none pc clear =>
      refine ⟨ring', nofun, fun _ => inv.unmasked (by rw [pc]; rfl), fun low => ?_⟩
      rcases inv.covered low with pending | scheduling | rest
      · exact (clear pending.1).elim
      · rw [pc] at scheduling
        cases scheduling
      · exact Or.inr (Or.inr rest)
  | readIcr pc raised =>
      exact ⟨ring', nofun, fun _ => inv.unmasked (by rw [pc]; rfl), fun _ => Or.inr (Or.inl rfl)⟩
  | readIms pc =>
      have mask := inv.unmasked (by rw [pc]; rfl)
      refine ⟨ring', ?_, fun _ => mask, fun _ => Or.inr (Or.inl rfl)⟩
      intro irqMask saved
      cases saved
      exact mask
  | writeImc pc =>
      exact ⟨ring', fun mask saved => inv.saved mask (by rw [pc]; exact saved), nofun,
        fun _ => Or.inr (Or.inl rfl)⟩
  | readLed pc =>
      exact ⟨ring', fun mask saved => inv.saved mask (by rw [pc]; exact saved), nofun,
        fun _ => Or.inr (Or.inl rfl)⟩
  | writeLed pc =>
      exact ⟨ring', fun mask saved => inv.saved mask (by rw [pc]; exact saved), nofun,
        fun _ => Or.inr (Or.inl rfl)⟩
  | schedule pc =>
      exact ⟨ring', fun mask saved => inv.saved mask (by rw [pc]; exact saved), nofun,
        fun _ => Or.inr (Or.inr (Or.inl rfl))⟩
  | writeIcr pc =>
      exact ⟨ring', fun mask saved => inv.saved mask (by rw [pc]; exact saved), nofun,
        fun low => Or.inr (Or.inr (allowed _ pc low))⟩
  | @writeIms irqMask pc =>
      have mask := inv.saved irqMask (by rw [pc]; rfl)
      refine ⟨ring', nofun, fun _ => mask.or_right _, fun low => ?_⟩
      rcases inv.covered low with pending | scheduling | rest
      · exact Or.inl ⟨pending.1, Or.inl (mask.or_right _)⟩
      · rw [pc] at scheduling
        cases scheduling
      · exact Or.inr (Or.inr rest)

/-- One access of the worker. It leaves its loop only with the whole ring free. -/
theorem workStep {t : State} (inv : ThresholdInv s) (access : WorkStep s t) :
    ThresholdInv t := by
  obtain ⟨w, ring⟩ := inv.ring
  obtain ⟨w', -, ring'⟩ := ring.workStep access
  have irq : t.irq = s.irq := by cases access <;> rfl
  have ims : t.regs.ims = s.regs.ims := by cases access <;> rfl
  refine ⟨⟨w', ring'⟩, by rw [irq]; exact inv.saved, by rw [irq, ims]; exact inv.unmasked, ?_⟩
  intro low
  cases access with
  | @done tail pc empty =>
      have slot := ring.test tail pc
      rw [empty, ring.head] at slot
      have drained := w.succ_tail_eq_head_iff.mp slot.symm
      have free := ring.freeCount
      have low' : s.regs.freeCount ≤ 8 := low
      omega
  | _ => exact Or.inr (Or.inr (Or.inr nofun))

/-- One move of the system, the acknowledging write under its condition. -/
theorem step {t : State} {l : Label} (inv : ThresholdInv s) (allowed : AckCovered s l)
    (moved : Step s l t) : ThresholdInv t := by
  cases moved with
  | receive room => exact inv.receive _ room
  | @raise causes =>
      obtain ⟨w, ring⟩ := inv.ring
      refine ⟨⟨w, ring.frame (.setCause s _ _ _ _ _) rfl⟩, inv.saved, inv.unmasked, fun low => ?_⟩
      rcases inv.covered low with pending | rest
      · exact Or.inl ⟨pending.1.or_left causes, pending.2⟩
      · exact Or.inr rest
  | interrupt rest =>
      obtain ⟨w, ring⟩ := inv.ring
      have mask := inv.unmasked (by rw [rest]; rfl)
      refine ⟨⟨w, ring.frame (.setCause s _ _ _ _ _) rfl⟩, nofun, fun _ => mask, fun low => ?_⟩
      rcases inv.covered low with pending | scheduling | outstanding
      · exact Or.inl ⟨pending.1, Or.inl mask⟩
      · rw [rest] at scheduling
        cases scheduling
      · exact Or.inr (Or.inr outstanding)
  | irq access => exact inv.irqStep allowed access
  | dispatch _ rest =>
      obtain ⟨w, ring⟩ := inv.ring
      have idle : s.work.holding = none := by rw [rest]; rfl
      exact ⟨⟨w, ring.outside (.dispatched s) idle rfl nofun⟩, inv.saved, inv.unmasked,
        fun _ => Or.inr (Or.inr (Or.inr nofun))⟩
  | work access => exact inv.workStep access
  | poke =>
      obtain ⟨w, ring⟩ := inv.ring
      exact ⟨⟨w, ring.frame (.setCause s _ _ _ _ _) rfl⟩, inv.saved, inv.unmasked, inv.covered⟩

end ThresholdInv

/-! ## From the probe on -/

/-- Until the interrupt is unmasked only the device moves. -/
private structure Filling (s : State) : Prop where
  ring : ∃ w, RingInv s w
  irq : s.irq = .idle
  work : s.work = .idle
  queued : s.queued = false
  crossed : s.regs.freeCount ≤ 8 → ThresholdSet s.regs.icr

private theorem Filling.step {s t : State} {l : Label} (filling : Filling s)
    (device : DeviceOnly s l) (moved : Step s l t) : Filling t := by
  obtain ⟨w, ring⟩ := filling.ring
  cases moved with
  | @receive contents room =>
      refine ⟨⟨_, ring.receive contents room⟩, filling.irq, filling.work, filling.queued, ?_⟩
      intro low
      rcases lt_or_ge 8 s.regs.freeCount with above | below
      · exact receive_thresholdSet ring room above low
      · exact (filling.crossed below).receive
  | @raise causes =>
      exact ⟨⟨w, ring.frame (.setCause s _ _ _ _ _) rfl⟩, filling.irq, filling.work, filling.queued,
        fun low => (filling.crossed low).or_left causes⟩
  | interrupt => exact device.elim
  | irq => exact device.elim
  | dispatch => exact device.elim
  | work => exact device.elim
  | poke => exact device.elim

/-- Unmasking establishes the invariant, however far the ring has filled. -/
theorem Unmasked.inv {s : State} (start : Unmasked s) : ThresholdInv s := by
  obtain ⟨ready, trace, before, ring, -, irq, queued, run, device, rfl⟩ := start.reached
  have first : Filling ready := by
    refine ⟨⟨_, ring.inv⟩, irq, ring.work, queued, fun low => ?_⟩
    rw [ring.inv.freeCount] at low
    simp [Window.start] at low
  have filling : Filling before :=
    run.invariant (fun _ _ _ inv allowed moved => inv.step allowed (.of_step moved)) device first
  obtain ⟨w, inv⟩ := filling.ring
  refine ⟨⟨w, inv.frame (.setCause before _ _ _ _ _) rfl⟩, ?_, ?_, ?_⟩
  · intro irqMask saved
    rw [show before.irq = .idle from filling.irq] at saved
    cases saved
  · exact fun _ => thresholdSet_or_rxdmt0 _
  · exact fun low => Or.inl ⟨filling.crossed low, Or.inl (thresholdSet_or_rxdmt0 _)⟩

/-- **No lost interrupt.** In a run that starts with the unmasking of the
interrupt, every state in which half of the ring or less is free has something
that leads to a run of the worker exactly when every acknowledging write of the
handler finds more than half free or a worker run still to finish. -/
theorem covered_iff {s t : State} {trace : List (State × Label)} (start : Unmasked s)
    (run : Run step s trace t) :
    (∀ u ∈ visited trace t, u.regs.freeCount ≤ 8 → Covered u) ↔ Meets AckCovered trace := by
  constructor
  · intro covered entry member
    rcases entry with ⟨a, l⟩
    obtain ⟨u, passed, next⟩ := run.exists_next (a, l) member
    cases l with
    | irqStep =>
        intro irqMask pc low
        cases IrqStep.of_irqHandler next with
        | writeIcr pc' =>
            rcases covered _ passed low with pending | scheduling | rest
            · exact (not_thresholdSet_ack _ pending.1).elim
            · cases scheduling
            · exact rest
        | _ pc' => rw [pc] at pc'; cases pc'
    | _ => trivial
  · intro allowed u passed
    exact (run.invariant_visited (fun _ _ _ inv ok moved => inv.step ok (.of_step moved)) allowed
      start.inv u passed).covered

theorem State.unmasked_afterProbe : Unmasked .afterProbe :=
  ⟨{ State.afterProbe with regs := { State.afterProbe.regs with ims := 0 } }, [], _,
    ⟨rfl, rfl, rfl, rfl, rfl⟩, rfl, rfl, rfl, .refl, meets_nil, rfl⟩

/-- Seven packets bring the ring to the threshold, and the interrupt is due. -/
theorem covered_at_threshold :
    ∃ t trace, Run step .afterProbe trace t ∧ t.regs.freeCount = 8 ∧ Covered t := by
  obtain ⟨t, trace, run, labels, low⟩ := Run.of_exec_any
    step .afterProbe (List.replicate 7 (.receive .blank))
    (fun t => t.regs.freeCount = 8) (by decide +kernel)
  refine ⟨t, trace, run, low, (covered_iff State.unmasked_afterProbe run).mpr ?_ t
    (mem_visited_end trace t) low.le⟩
  intro entry member
  rcases entry with ⟨a, l⟩
  have received := List.mem_map_of_mem (f := Prod.snd) member
  rw [labels] at received
  rw [List.eq_of_mem_replicate received]
  trivial

/-- The threshold is crossed a second time after the worker has drained the
ring and before the handler that queued it acknowledges: seven packets, the
handler up to `schedule_work`, a whole run of the worker, seven packets, and the
last two accesses of the handler. -/
def lateAck : List Label :=
  List.replicate 7 (.receive .blank) ++ .interrupt :: List.replicate 6 .irqStep ++
    .dispatch :: List.replicate 75 .workStep ++
    List.replicate 7 (.receive .blank) ++ List.replicate 2 .irqStep

/-- The acknowledging write erases the second threshold cause: half of the ring
is used, the handler and the worker rest, nothing is queued and no cause is
pending. -/
theorem threshold_lost :
    Unmasked .afterProbe ∧ ∃ t trace, Run step .afterProbe trace t ∧ Meets DeviceAssumed trace ∧
      t.irq = .idle ∧ t.regs.freeCount ≤ 8 ∧ ¬ Covered t := by
  obtain ⟨t, trace, run, -, checked⟩ := Run.of_exec_any
    (restrict DeviceAssumed step) .afterProbe lateAck
    (fun t => t.irq = .idle ∧ t.work = .idle ∧ t.queued = false ∧
      ¬ ThresholdSet t.regs.icr ∧ t.regs.freeCount ≤ 8) (by decide +kernel)
  obtain ⟨irq, work, queued, clear, low⟩ := checked
  refine ⟨State.unmasked_afterProbe, t, trace, run.of_restrict.1, run.of_restrict.2, irq, low, ?_⟩
  intro either
  rcases either with pending | scheduling | ready | running
  · exact clear pending.1
  · rw [irq] at scheduling
    cases scheduling
  · rw [queued] at ready
    cases ready
  · exact running work

end BlinkDriver.Hw6
