import BlinkDriver.Lib.HandoverRing
import BlinkDriver.Hw6.System

/-!
# Hand-over of the receive ring

`make_DMA` leaves the head at 0 and the tail at 15. From there on the two
registers are a `HandoverRing.Window` of 16 slots: the device is the producer,
`thread_function` the consumer, and the two logs of `State` are everything
produced and everything consumed. `RingInv` says so for every program point of
the worker, `RingInv.step` is its preservation by each move of the system, and
`ring_handover` reads the exactly-once property off it.
-/

namespace BlinkDriver.Hw6

open Transition HandoverRing

/-- The ring as `make_DMA` leaves it, before anything was received. -/
structure RingSetUp (s : State) : Prop where
  head : s.regs.rdh0 = 0
  tail : s.regs.rdt0 = 0xF
  work : s.work = .idle
  completed : s.completed = []
  processed : s.processed = []

/-- What the worker prints about a completed descriptor. -/
def printed (entry : Nat × Descriptor) : Nat × Report := (entry.1, report entry.2)

/-- The descriptor the worker has taken from the ring and not yet given back. -/
def WorkPc.holding : WorkPc → Option U32
  | .readData tail | .readStatus tail | .readLength tail _ => some tail
  | .logHead tail | .logTail tail | .writeTail tail => some tail
  | _ => none

/-- The worker has printed a descriptor and not yet written `RDT`. -/
def WorkPc.inGap : WorkPc → Bool
  | .logHead _ | .logTail _ | .writeTail _ => true
  | _ => false

theorem WorkPc.exists_holding_of_inGap {pc : WorkPc} (gap : pc.inGap = true) :
    ∃ tail, pc.holding = some tail := by
  cases pc <;> first | exact ⟨_, rfl⟩ | cases gap

/-- The registers and the logs at a given position of producer and consumer. -/
structure RingInv (s : State) (w : Window 16) : Prop where
  head : s.regs.rdh0.toNat = w.head
  tail : s.regs.rdt0.toNat = w.tail
  holds : w.Holds (fun i => (i, s.rxDE i)) s.completed
  order : ∀ k, ∀ h : k < s.completed.length, s.completed[k].1 = k % 16
  processed : s.processed =
    (s.completed.take (w.consumed + s.work.inGap.toNat)).map printed
  test : ∀ tail, s.work = .readHead tail → tail.toNat = (w.tail + 1) % 16
  hold : ∀ tail, s.work.holding = some tail →
    tail.toNat = (w.tail + 1) % 16 ∧ w.produced ≠ w.consumed
  status : ∀ tail status, s.work = .readLength tail status →
    status = (report (s.rxDE tail.toNat)).status

theorem RingSetUp.inv {s : State} (start : RingSetUp s) : RingInv s (.start 16 (by decide)) where
  head := by rw [start.head]; rfl
  tail := by rw [start.tail]; rfl
  holds := ⟨by rw [start.completed]; rfl, fun k _ h => by simp [start.completed] at h⟩
  order := fun k h => by simp [start.completed] at h
  processed := by simp [start.completed, start.processed]
  test := by simp [start.work]
  hold := by simp [start.work, WorkPc.holding]
  status := by simp [start.work]

/-- `(x + 1) % 16` in 32-bit arithmetic, on a ring index. -/
theorem toNat_succ_mod (x : U32) (small : x.toNat < 16) :
    ((x + 1) % 16 : U32).toNat = (x.toNat + 1) % 16 := by
  have sum : (x + 1).toNat = x.toNat + 1 := by
    rw [BitVec.toNat_add]
    exact Nat.mod_eq_of_lt (by simp; omega)
  rw [BitVec.toNat_umod, sum]
  rfl

/-- Neither register of the ring is moved, nothing is completed and nothing printed. -/
structure RingKept (s t : State) : Prop where
  head : t.regs.rdh0 = s.regs.rdh0
  tail : t.regs.rdt0 = s.regs.rdt0
  ring : t.rxDE = s.rxDE
  completed : t.completed = s.completed
  processed : t.processed = s.processed

theorem RingKept.setWork (s : State) (work : WorkPc) : RingKept s { s with work } :=
  ⟨rfl, rfl, rfl, rfl, rfl⟩

theorem RingKept.setLed (s : State) (ledctl : U32) (work : WorkPc) :
    RingKept s { s with regs := { s.regs with ledctl }, work } :=
  ⟨rfl, rfl, rfl, rfl, rfl⟩

/-- Interrupt causes, the mask and the LEDs are not part of the ring. -/
theorem RingKept.setCause (s : State) (icr ims ledctl : U32) (irq : IrqPc) (queued : Bool) :
    RingKept s { s with regs := { s.regs with icr, ims, ledctl }, irq, queued } :=
  ⟨rfl, rfl, rfl, rfl, rfl⟩

theorem RingKept.dispatched (s : State) : RingKept s { s with queued := false, work := .sleep } :=
  ⟨rfl, rfl, rfl, rfl, rfl⟩

/-- The handler touches neither the ring nor the worker. -/
theorem RingKept.of_irqStep {s t : State} (access : IrqStep s t) :
    RingKept s t ∧ t.work = s.work := by
  cases access <;> exact ⟨.setCause s _ _ _ _ _, rfl⟩

namespace RingInv

variable {s : State} {w : Window 16}

theorem head_ne_tail (inv : RingInv s w) (room : s.regs.rdh0 ≠ s.regs.rdt0) : w.head ≠ w.tail := by
  rw [← inv.head, ← inv.tail]
  exact fun same => room (BitVec.eq_of_toNat_eq same)

theorem freeCount (inv : RingInv s w) : s.regs.freeCount = 15 - (w.produced - w.consumed) := by
  rw [Regs.freeCount, inv.head, inv.tail]
  exact w.free

/-- A printed descriptor is one of the completed ones. -/
theorem gap_le (inv : RingInv s w) : w.consumed + s.work.inGap.toNat ≤ s.completed.length := by
  have lower := w.consumed_le
  have length := inv.holds.length
  cases gap : s.work.inGap with
  | false => simp only [Bool.toNat_false]; omega
  | true =>
      obtain ⟨tail, holding⟩ := WorkPc.exists_holding_of_inGap gap
      have pending := (inv.hold tail holding).2
      simp only [Bool.toNat_true]
      omega

/-- Completing a descriptor leaves alone what the worker is reading. -/
theorem receive (inv : RingInv s w) (contents : Descriptor)
    (room : s.regs.rdh0 ≠ s.regs.rdt0) :
    RingInv { s with
      regs := s.regs.receive
      rxDE := Function.update s.rxDE s.regs.rdh0.toNat contents
      completed := s.completed ++ [(s.regs.rdh0.toNat, contents)] }
      (w.produce (inv.head_ne_tail room)) where
  head := by
    rw [Regs.receive_rdh0, toNat_succ_mod _ (inv.head ▸ w.head_lt), inv.head, w.produce_head]
  tail := by rw [Regs.receive_rdt0, inv.tail, w.produce_tail]
  holds := by
    have slots : (fun i => (i, Function.update s.rxDE s.regs.rdh0.toNat contents i)) =
        Function.update (fun i => (i, s.rxDE i)) w.head (w.head, contents) := by
      funext i
      rw [inv.head]
      by_cases same : i = w.head
      · rw [same, Function.update_self, Function.update_self]
      · rw [Function.update_of_ne same, Function.update_of_ne same]
    dsimp only
    rw [slots, inv.head]
    exact inv.holds.produce _ _
  order := by
    intro k bound
    simp only [List.length_append, List.length_singleton] at bound
    rcases Nat.lt_or_ge k s.completed.length with old | new
    · rw [List.getElem_append_left old]
      exact inv.order k old
    · have last : k = s.completed.length := by omega
      simp only [last, List.getElem_concat_length, inv.head, inv.holds.length]
      rfl
  processed := by
    dsimp only [Window.produce]
    rw [List.take_append_of_le_length inv.gap_le]
    exact inv.processed
  test := inv.test
  hold := by
    intro tail holding
    have lower := w.consumed_le
    exact ⟨(inv.hold tail holding).1, by simp only [Window.produce]; omega⟩
  status := by
    intro tail status pc
    obtain ⟨slot, pending⟩ := inv.hold tail (by rw [show s.work = _ from pc]; rfl)
    have other : tail.toNat ≠ s.regs.rdh0.toNat := by
      rw [slot, inv.head]
      exact mt w.succ_tail_eq_head_iff.mp pending
    simp only [Function.update_of_ne other]
    exact inv.status tail status pc

/-- Steps that touch neither the ring nor the worker. -/
theorem frame {t : State} (inv : RingInv s w) (kept : RingKept s t) (work : t.work = s.work) :
    RingInv t w where
  head := by rw [kept.head, inv.head]
  tail := by rw [kept.tail, inv.tail]
  holds := by rw [kept.ring, kept.completed]; exact inv.holds
  order := by simpa only [kept.completed] using inv.order
  processed := by rw [kept.processed, kept.completed, work, inv.processed]
  test := by rw [work]; exact inv.test
  hold := by rw [work]; exact inv.hold
  status := by rw [work, kept.ring]; exact inv.status

/-- Worker steps outside the stretch in which it holds a descriptor. -/
theorem outside {t : State} (inv : RingInv s w) (kept : RingKept s t)
    (before : s.work.holding = none) (after : t.work.holding = none)
    (test : ∀ next, t.work = .readHead next → next.toNat = (w.tail + 1) % 16) :
    RingInv t w where
  head := by rw [kept.head, inv.head]
  tail := by rw [kept.tail, inv.tail]
  holds := by rw [kept.ring, kept.completed]; exact inv.holds
  order := by simpa only [kept.completed] using inv.order
  processed := by
    have noGap : ∀ pc : WorkPc, pc.holding = none → pc.inGap = false := by
      intro pc none
      cases pc <;> first | rfl | cases none
    rw [kept.processed, kept.completed, inv.processed, noGap _ before, noGap _ after]
  test := test
  hold := by simp [after]
  status := by
    intro next status pc
    rw [pc] at after
    cases after

/-- Worker steps that keep hold of the descriptor. -/
theorem keeps {t : State} (inv : RingInv s w) (kept : RingKept s t)
    (gap : t.work.inGap = s.work.inGap) (same : t.work.holding = s.work.holding)
    (held : t.work.holding ≠ none)
    (status : ∀ next status, t.work = .readLength next status →
      status = (report (t.rxDE next.toNat)).status) : RingInv t w where
  head := by rw [kept.head, inv.head]
  tail := by rw [kept.tail, inv.tail]
  holds := by rw [kept.ring, kept.completed]; exact inv.holds
  order := by simpa only [kept.completed] using inv.order
  processed := by rw [kept.processed, kept.completed, gap, inv.processed]
  test := by
    intro next target
    rw [target] at held
    exact (held rfl).elim
  hold := by rw [same]; exact inv.hold
  status := status

/-- Writing the tail gives the descriptor back. -/
theorem writeTail {tail : U32} (inv : RingInv s w) (pc : s.work = .writeTail tail) :
    ∃ w', w.Move w' ∧
      RingInv { s with regs := { s.regs with rdt0 := tail }, work := .readLed tail } w' := by
  obtain ⟨slot, behind⟩ := inv.hold tail (by rw [pc]; rfl)
  refine ⟨w.consume behind, .consume behind, ?_⟩
  refine ⟨inv.head, ?_, inv.holds.consume behind, inv.order, ?_, nofun, nofun, nofun⟩
  · rw [w.consume_tail, ← slot]
  · simpa [pc, WorkPc.inGap, Window.consume] using inv.processed

/-- One access of `thread_function`: it consumes when it writes the tail. -/
theorem workStep {t : State} (inv : RingInv s w) (access : WorkStep s t) :
    ∃ w', w.Move w' ∧ RingInv t w' := by
  cases access with
  | sleep pc => exact ⟨w, .stay, inv.outside (.setWork s _) (by rw [pc]; rfl) rfl nofun⟩
  | readLedOff pc => exact ⟨w, .stay, inv.outside (.setWork s _) (by rw [pc]; rfl) rfl nofun⟩
  | writeLedOff pc => exact ⟨w, .stay, inv.outside (.setLed s _ _) (by rw [pc]; rfl) rfl nofun⟩
  | readTail pc =>
      refine ⟨w, .stay, inv.outside (.setWork s _) (by rw [pc]; rfl) rfl ?_⟩
      intro next target
      injection target with same
      rw [← same, toNat_succ_mod _ (inv.tail ▸ w.tail_lt), inv.tail]
  | @readHead tail pc pending =>
      have slot := inv.test tail pc
      have behind : w.produced ≠ w.consumed := by
        intro equal
        have meet := w.succ_tail_eq_head_iff.mpr equal
        exact pending (BitVec.eq_of_toNat_eq (by rw [slot, meet, inv.head]))
      refine ⟨w, .stay, { inv with processed := ?_, test := nofun, hold := ?_, status := nofun }⟩
      · simpa [pc, WorkPc.inGap] using inv.processed
      · intro next holding
        cases holding
        exact ⟨slot, behind⟩
  | done pc empty => exact ⟨w, .stay, inv.outside (.setWork s _) (by rw [pc]; rfl) rfl nofun⟩
  | readData pc =>
      exact ⟨w, .stay,
        inv.keeps (.setWork s _) (by rw [pc]; rfl) (by rw [pc]; rfl) nofun nofun⟩
  | readStatus pc =>
      refine ⟨w, .stay, inv.keeps (.setWork s _) (by rw [pc]; rfl) (by rw [pc]; rfl) nofun ?_⟩
      intro next status target
      cases target
      rfl
  | @readLength tail status pc =>
      obtain ⟨slot, behind⟩ := inv.hold tail (by rw [pc]; rfl)
      refine ⟨w, .stay, { inv with processed := ?_, test := nofun, hold := ?_, status := nofun }⟩
      · -- The entry printed is the oldest one not yet consumed.
        have next := inv.holds.next behind
        rw [← slot] at next
        have before := inv.processed
        simp only [pc, WorkPc.inGap, Bool.toNat_false, Nat.add_zero] at before
        simp only [WorkPc.inGap, Bool.toNat_true, List.take_add_one, next, Option.toList_some,
          List.map_append, List.map_singleton, before, inv.status tail status pc, printed]
      · exact fun next holding => inv.hold next (by rw [pc]; exact holding)
  | logHead pc | logTail pc =>
      exact ⟨w, .stay,
        inv.keeps (.setWork s _) (by rw [pc]; rfl) (by rw [pc]; rfl) nofun nofun⟩
  | writeTail pc => exact inv.writeTail pc
  | readLed pc => exact ⟨w, .stay, inv.outside (.setWork s _) (by rw [pc]; rfl) rfl nofun⟩
  | writeLed pc => exact ⟨w, .stay, inv.outside (.setLed s _ _) (by rw [pc]; rfl) rfl nofun⟩

/-- Every move of the system is a move of the window, so the driver and the
device together refine the abstract ring. -/
theorem step {t : State} {l : Label} (inv : RingInv s w) (moved : Step s l t) :
    ∃ w', w.Move w' ∧ RingInv t w' := by
  cases moved with
  | receive room => exact ⟨_, .produce _, inv.receive _ room⟩
  | raise | interrupt | poke => exact ⟨w, .stay, inv.frame (.setCause s _ _ _ _ _) rfl⟩
  | irq access =>
      obtain ⟨kept, work⟩ := RingKept.of_irqStep access
      exact ⟨w, .stay, inv.frame kept work⟩
  | dispatch _ rest =>
      exact ⟨w, .stay, inv.outside (.dispatched s) (by rw [rest]; rfl) rfl nofun⟩
  | work access => exact inv.workStep access

theorem length_processed (inv : RingInv s w) :
    s.processed.length = w.consumed + s.work.inGap.toNat := by
  rw [inv.processed, List.length_map, List.length_take, Nat.min_eq_left inv.gap_le]

/-- What the invariant says about what was completed and what was printed. -/
theorem handed (inv : RingInv s w) :
    s.processed <+: s.completed.map printed ∧
      (∀ k, ∀ h : k < s.completed.length, s.completed[k].1 = k % 16) ∧
      (s.work.inGap = false →
        (s.completed.length : Int) - s.processed.length =
            ((s.regs.rdh0.toNat : Int) - s.regs.rdt0.toNat - 1) % 16 ∧
          (s.completed.length : Int) - s.processed.length + s.regs.freeCount = 15) ∧
      ∀ tail, s.work.holding = some tail →
        ¬ Between 16 s.regs.rdh0.toNat s.regs.rdt0.toNat tail.toNat := by
  refine ⟨?_, inv.order, fun noGap => ?_, fun tail holding => ?_⟩
  · rw [inv.processed]
    exact (List.take_prefix _ _).map _
  · have length := inv.holds.length
    have processed := inv.length_processed
    rw [noGap, Bool.toNat_false, Nat.add_zero] at processed
    rw [inv.freeCount, inv.head, inv.tail, processed, length]
    refine ⟨?_, by omega⟩
    exact w.backlog.symm
  · rcases inv.hold tail holding with ⟨slot, behind⟩
    rw [inv.head, inv.tail, slot]
    exact w.not_between_succ_tail behind

end RingInv

/-- The ring invariant holds in every state of every run from the ring as
`make_DMA` sets it up. -/
theorem RingSetUp.inv_of_run {s t : State} {trace : List (State × Label)} (start : RingSetUp s)
    (run : Run step s trace t) : ∃ w, RingInv t w := by
  induction run with
  | refl => exact ⟨_, start.inv⟩
  | snoc _ edge ih =>
      obtain ⟨w, inv⟩ := ih
      obtain ⟨w', -, inv'⟩ := inv.step (.of_step edge)
      exact ⟨w', inv'⟩

/-- **Ring hand-over.** In every state of every run: what the worker printed is a
prefix of what the device completed, which fills the slots in order; outside the
gap between printing and returning a descriptor the backlog is the distance from
`RDT` to `RDH`, and with the free slots it makes 15; and the descriptor the
worker holds is never one the device may fill. -/
theorem ring_handover {s t : State} {trace : List (State × Label)} (start : RingSetUp s)
    (run : Run step s trace t) :
    t.processed <+: t.completed.map printed ∧
      (∀ k, ∀ h : k < t.completed.length, t.completed[k].1 = k % 16) ∧
      (t.work.inGap = false →
        (t.completed.length : Int) - t.processed.length =
            ((t.regs.rdh0.toNat : Int) - t.regs.rdt0.toNat - 1) % 16 ∧
          (t.completed.length : Int) - t.processed.length + t.regs.freeCount = 15) ∧
      ∀ tail, t.work.holding = some tail →
        ¬ Between 16 t.regs.rdh0.toNat t.regs.rdt0.toNat tail.toNat := by
  obtain ⟨w, inv⟩ := start.inv_of_run run
  exact inv.handed

/-- Seven packets arrive after a probe, the threshold interrupt queues the
worker and the worker prints the first of them. -/
theorem ring_handover_first_packet :
    ∃ t trace, Run step .afterProbe trace t ∧
      (t.processed <+: t.completed.map printed ∧ t.work.inGap = true ∧
        t.processed.length = 1 ∧ t.completed.length = 7) := by
  obtain ⟨t, trace, run, -, checked⟩ := Run.of_exec_any
    step .afterProbe
    (List.replicate 7 (.receive .blank) ++ .interrupt :: List.replicate 6 .irqStep ++
      .dispatch :: List.replicate 8 .workStep)
    (fun t => t.work.inGap = true ∧ t.processed.length = 1 ∧ t.completed.length = 7)
    (by decide +kernel)
  exact ⟨t, trace, run, (ring_handover ⟨rfl, rfl, rfl, rfl, rfl⟩ run).1, checked⟩

end BlinkDriver.Hw6
