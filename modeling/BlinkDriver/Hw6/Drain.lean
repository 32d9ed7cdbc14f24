import BlinkDriver.Hw6.Ring
import BlinkDriver.Lib.Account

/-!
# Draining the ring

The `while` loop of `thread_function`, which gives descriptors back until the tail
is one behind the head, while the device completes more of them. The two registers
alone say how many iterations and how many accesses are left (`State.iterationsLeft`,
`State.accessesLeft`); every access of the worker takes one off, and every descriptor
that comes in adds an iteration, that is ten accesses. `LoopInv.step` says so for
each step of the system, and `drain_loop` for the loop from its entry to its exit.
-/

namespace BlinkDriver.Hw6

open Transition HandoverRing

/-- How many completed descriptors have not been given back, as the registers say. -/
def Regs.backlog (regs : Regs) : Nat :=
  (((regs.rdh0.toNat : Int) - regs.rdt0.toNat - 1) % 16).toNat

/-- Program points of the loop. -/
def WorkPc.looping : WorkPc → Bool
  | .idle | .sleep | .readLedOff | .writeLedOff _ => false
  | .readTail | .readHead _ | .readData _ | .readStatus _ | .readLength _ _ | .logHead _
  | .logTail _ | .writeTail _ | .readLed _ | .writeLed _ _ => true

/-- The worker is in the loop. -/
def Looping (s : State) (_ : Label) : Prop := s.work.looping = true

instance (s : State) (l : Label) : Decidable (Looping s l) := inferInstanceAs (Decidable (_ = _))

/-- The registers that show a window show how much it has pending. -/
theorem Regs.backlog_of_window {regs : Regs} {w : Window 16} (head : regs.rdh0.toNat = w.head)
    (tail : regs.rdt0.toNat = w.tail) : regs.backlog = w.produced - w.consumed := by
  have lower := w.consumed_le
  have distance : ((w.head : Int) - w.tail - 1) % 16 = w.produced - w.consumed := w.backlog
  rw [Regs.backlog, head, tail]
  omega

theorem RingKept.backlog {s t : State} (kept : RingKept s t) :
    t.regs.backlog = s.regs.backlog := by
  rw [Regs.backlog, Regs.backlog, kept.head, kept.tail]

/-! ## What is counted -/

/-- The device completes a descriptor. -/
def received (_ : State) : Label → Nat
  | .receive _ => 1
  | _ => 0

/-- The worker makes an access. -/
def accessed (_ : State) : Label → Nat
  | .workStep => 1
  | _ => 0

/-- The loop test succeeds, and an iteration begins. -/
def iterated (s : State) : Label → Nat
  | .workStep =>
      match s.work with
      | .readHead tail => if tail ≠ s.regs.rdh0 then 1 else 0
      | _ => 0
  | _ => 0

/-- The iterations still to begin if nothing more comes in. -/
def State.iterationsLeft (s : State) : Nat := s.regs.backlog - s.work.holding.isSome.toNat

/-- The accesses up to the exit if nothing more comes in. The descriptor that the
worker holds is in the backlog until its eighth access writes the tail. -/
def State.accessesLeft (s : State) : Nat :=
  let ahead := 10 * s.regs.backlog
  match s.work with
  | .idle | .sleep | .readLedOff | .writeLedOff _ => 0
  | .readTail => ahead + 2
  | .readHead _ => ahead + 1
  | .readData _ => ahead
  | .readStatus _ => ahead - 1
  | .readLength _ _ => ahead - 2
  | .logHead _ => ahead - 3
  | .logTail _ => ahead - 4
  | .writeTail _ => ahead - 5
  | .readLed _ => ahead + 4
  | .writeLed _ _ => ahead + 3

/-- The registers show a window, and in the loop the worker knows where it is. -/
structure LoopInv (s : State) (w : Window 16) : Prop where
  inside : s.work.looping = true ∨ s.work = .idle
  head : s.regs.rdh0.toNat = w.head
  tail : s.regs.rdt0.toNat = w.tail
  test : ∀ tail, s.work = .readHead tail → tail.toNat = (w.tail + 1) % 16
  hold : ∀ tail, s.work.holding = some tail →
    tail.toNat = (w.tail + 1) % 16 ∧ w.produced ≠ w.consumed

/-- What a step takes off the accesses and iterations that are left, and what it
adds to them. -/
structure Pays (s : State) (l : Label) (t : State) : Prop where
  accesses : accessed s l + t.accessesLeft = s.accessesLeft + 10 * received s l
  iterations : iterated s l + t.iterationsLeft = s.iterationsLeft + received s l

namespace LoopInv

variable {s t : State} {w : Window 16}

/-- At the entry of the loop the registers may show any window. -/
theorem entry (work : s.work = .readTail) (head : s.regs.rdh0.toNat < 16)
    (tail : s.regs.rdt0.toNat < 16) :
    LoopInv s (.ofRegisters s.regs.rdh0.toNat s.regs.rdt0.toNat head) where
  inside := Or.inl (by rw [work]; rfl)
  head := (Window.ofRegisters_head head tail).symm
  tail := (Window.ofRegisters_tail head tail).symm
  test := by simp [work]
  hold := by simp [work, WorkPc.holding]

theorem backlog (inv : LoopInv s w) : s.regs.backlog = w.produced - w.consumed :=
  Regs.backlog_of_window inv.head inv.tail

/-- What the worker holds is in the backlog. -/
theorem backlog_pos (inv : LoopInv s w) {tail : U32} (holding : s.work.holding = some tail) :
    0 < s.regs.backlog := by
  have pending := (inv.hold tail holding).2
  have lower := w.consumed_le
  rw [inv.backlog]
  omega

/-- A step that leaves the registers of the ring alone. -/
theorem keeps (inv : LoopInv s w) (head : t.regs.rdh0 = s.regs.rdh0)
    (tail : t.regs.rdt0 = s.regs.rdt0) (inside : t.work.looping = true ∨ t.work = .idle)
    (test : ∀ tail, t.work = .readHead tail → tail.toNat = (w.tail + 1) % 16)
    (hold : ∀ tail, t.work.holding = some tail →
      tail.toNat = (w.tail + 1) % 16 ∧ w.produced ≠ w.consumed) : LoopInv t w where
  inside := inside
  head := by rw [head, inv.head]
  tail := by rw [tail, inv.tail]
  test := test
  hold := hold

/-- A step that leaves the ring and the worker alone. -/
theorem frame {l : Label} (inv : LoopInv s w) (kept : RingKept s t) (work : t.work = s.work)
    (idle : accessed s l = 0 ∧ received s l = 0 ∧ iterated s l = 0) :
    (∃ w', LoopInv t w') ∧ Pays s l t := by
  obtain ⟨noAccess, noReceive, noIteration⟩ := idle
  have same : t.regs.backlog = s.regs.backlog := kept.backlog
  have next : LoopInv t w := by
    apply inv.keeps kept.head kept.tail
    · rw [work]
      exact inv.inside
    · rw [work]
      exact inv.test
    · rw [work]
      exact inv.hold
  refine ⟨⟨w, next⟩, ?_, ?_⟩
  · rw [noAccess, noReceive, State.accessesLeft, State.accessesLeft, same, work]
    exact Nat.zero_add _
  · rw [noReceive, noIteration, State.iterationsLeft, State.iterationsLeft, same, work]
    exact Nat.zero_add _

/-- A descriptor that comes in adds an iteration. -/
theorem receive (inv : LoopInv s w) (contents : Descriptor) (looping : s.work.looping = true)
    (room : s.regs.rdh0 ≠ s.regs.rdt0)
    (moved : t = { s with
      regs := s.regs.receive
      rxDE := Function.update s.rxDE s.regs.rdh0.toNat contents
      completed := s.completed ++ [(s.regs.rdh0.toNat, contents)] }) :
    (∃ w', LoopInv t w') ∧ Pays s (.receive contents) t := by
  have differ : w.head ≠ w.tail := by
    rw [← inv.head, ← inv.tail]
    exact fun same => room (BitVec.eq_of_toNat_eq same)
  have lower := w.consumed_le
  have next : LoopInv t (w.produce differ) := by
    subst moved
    refine ⟨inv.inside, ?_, ?_, inv.test, fun tail holding => ?_⟩
    · rw [Regs.receive_rdh0, toNat_succ_mod _ (inv.head ▸ w.head_lt), inv.head, w.produce_head]
    · rw [Regs.receive_rdt0, inv.tail, w.produce_tail]
    · exact ⟨(inv.hold tail holding).1, by simp only [Window.produce]; omega⟩
  have more : t.regs.backlog = s.regs.backlog + 1 := by
    rw [next.backlog, inv.backlog]
    simp only [Window.produce]
    omega
  have work : t.work = s.work := by rw [moved]
  refine ⟨⟨_, next⟩, ?_, ?_⟩
  · change 0 + t.accessesLeft = s.accessesLeft + 10 * 1
    rw [State.accessesLeft, State.accessesLeft, more, work]
    cases pc : s.work with
    | idle | sleep | readLedOff | writeLedOff led =>
        rw [pc] at looping
        cases looping
    | readTail | readHead tail | readData tail | readLed tail | writeLed tail led =>
        dsimp only
        omega
    | readStatus tail | readLength tail status | logHead tail | logTail tail | writeTail tail =>
        have holding : s.work.holding = some tail := by rw [pc]; rfl
        have held := inv.backlog_pos holding
        dsimp only
        omega
  · change 0 + t.iterationsLeft = s.iterationsLeft + 1
    rw [State.iterationsLeft, State.iterationsLeft, more, work]
    cases holding : s.work.holding with
    | none => exact Nat.zero_add _
    | some tail =>
        have held := inv.backlog_pos holding
        simp only [Option.isSome_some, Bool.toNat_true]
        omega

/-- Writing the tail takes the descriptor out of the backlog. -/
theorem writeTail {tail : U32} (inv : LoopInv s w) (pc : s.work = .writeTail tail)
    (moved : t = { s with regs := { s.regs with rdt0 := tail }, work := .readLed tail }) :
    (∃ w', LoopInv t w') ∧ Pays s .workStep t := by
  have holding : s.work.holding = some tail := by rw [pc]; rfl
  obtain ⟨slot, behind⟩ := inv.hold tail holding
  have lower := w.consumed_le
  have next : LoopInv t (w.consume behind) := by
    subst moved
    exact ⟨Or.inl rfl, inv.head, by rw [w.consume_tail, ← slot], nofun, nofun⟩
  have less : t.regs.backlog + 1 = s.regs.backlog := by
    rw [next.backlog, inv.backlog]
    simp only [Window.consume]
    omega
  have work : t.work = .readLed tail := by rw [moved]
  refine ⟨⟨_, next⟩, ?_, ?_⟩
  · simp only [accessed, received, State.accessesLeft, pc, work]
    omega
  · simp only [iterated, received, State.iterationsLeft, pc, work, WorkPc.holding]
    simp only [Option.isSome_none, Option.isSome_some, Bool.toNat_false, Bool.toNat_true]
    omega

/-- One access of the worker in the loop. -/
theorem workStep (inv : LoopInv s w) (looping : s.work.looping = true) (access : WorkStep s t) :
    (∃ w', LoopInv t w') ∧ Pays s .workStep t := by
  have outside : ∀ {P : Prop} {pc : WorkPc}, s.work = pc → pc.looping = false → P := by
    intro P pc same out
    rw [same, out] at looping
    cases looping
  cases access with
  | sleep pc | readLedOff pc | writeLedOff pc => exact outside pc rfl
  | readTail pc =>
      refine ⟨⟨w, inv.keeps rfl rfl (Or.inl rfl) ?_ (by simp [WorkPc.holding])⟩, ?_, ?_⟩
      · intro next target
        injection target with same
        rw [← same, toNat_succ_mod _ (inv.tail ▸ w.tail_lt), inv.tail]
      · simp only [accessed, received, State.accessesLeft, pc]
        omega
      · simp [iterated, received, State.iterationsLeft, pc, WorkPc.holding]
  | @readHead tail pc pending =>
      have slot := inv.test tail pc
      have behind : w.produced ≠ w.consumed := by
        intro equal
        have meet := w.succ_tail_eq_head_iff.mpr equal
        exact pending (BitVec.eq_of_toNat_eq (by rw [slot, meet, inv.head]))
      have next : LoopInv { s with work := .readData tail } w :=
        inv.keeps rfl rfl (Or.inl rfl) (by simp) fun next holding => by
          cases holding
          exact ⟨slot, behind⟩
      have held : 0 < s.regs.backlog := next.backlog_pos rfl
      refine ⟨⟨w, next⟩, ?_, ?_⟩
      · simp only [accessed, received, State.accessesLeft, pc]
        omega
      · simp only [iterated, received, State.iterationsLeft, pc, WorkPc.holding, if_pos pending]
        simp only [Option.isSome_none, Option.isSome_some, Bool.toNat_false, Bool.toNat_true]
        omega
  | @done tail pc empty =>
      have nothing : s.regs.backlog = 0 := by
        have meet := w.succ_tail_eq_head_iff.mp (by rw [← inv.test tail pc, empty, inv.head])
        rw [inv.backlog]
        omega
      refine ⟨⟨w, inv.keeps rfl rfl (Or.inr rfl) (by simp) (by simp [WorkPc.holding])⟩, ?_, ?_⟩
      · simp only [accessed, received, State.accessesLeft, pc, nothing]
      · simp [iterated, received, State.iterationsLeft, pc, WorkPc.holding, empty]
  | @readData tail pc | @readStatus tail pc | @readLength tail status pc | @logHead tail pc
  | @logTail tail pc =>
      have holding : s.work.holding = some tail := by rw [pc]; rfl
      have held := inv.backlog_pos holding
      refine ⟨⟨w, inv.keeps rfl rfl (Or.inl rfl) (by simp) fun next same => ?_⟩, ?_, ?_⟩
      · exact inv.hold next (holding.trans same)
      · simp only [accessed, received, State.accessesLeft, pc]
        omega
      · simp [iterated, received, State.iterationsLeft, pc, WorkPc.holding]
  | writeTail pc => exact inv.writeTail pc rfl
  | readLed pc =>
      refine ⟨⟨w, inv.keeps rfl rfl (Or.inl rfl) (by simp) (by simp [WorkPc.holding])⟩, ?_, ?_⟩
      · simp only [accessed, received, State.accessesLeft, pc]
        omega
      · simp [iterated, received, State.iterationsLeft, pc, WorkPc.holding]
  | writeLed pc =>
      refine ⟨⟨w, inv.keeps rfl rfl (Or.inl rfl) (by simp) (by simp [WorkPc.holding])⟩, ?_, ?_⟩
      · simp only [accessed, received, State.accessesLeft, pc, Regs.backlog]
        omega
      · simp [iterated, received, State.iterationsLeft, pc, WorkPc.holding, Regs.backlog]

/-- One step of the system while the worker is in the loop. -/
theorem step {l : Label} (inv : LoopInv s w) (looping : s.work.looping = true)
    (moved : Step s l t) : (∃ w', LoopInv t w') ∧ Pays s l t := by
  cases moved with
  | receive room => exact inv.receive _ looping room rfl
  | raise | interrupt =>
      exact inv.frame (.setCause s _ _ _ _ _) rfl ⟨rfl, rfl, rfl⟩
  | irq access =>
      obtain ⟨kept, work⟩ := RingKept.of_irqStep access
      exact inv.frame kept work ⟨rfl, rfl, rfl⟩
  | dispatch _ rest | poke _ rest =>
      rw [rest] at looping
      cases looping
  | work access => exact inv.workStep looping access

/-- In the loop there is always an access left. -/
theorem accessesLeft_pos (inv : LoopInv s w) (looping : s.work.looping = true) :
    0 < s.accessesLeft := by
  rw [State.accessesLeft]
  cases pc : s.work with
  | idle | sleep | readLedOff | writeLedOff led =>
      rw [pc] at looping
      cases looping
  | readTail | readHead tail | readLed tail | writeLed tail led => exact Nat.succ_pos _
  | readData tail | readStatus tail | readLength tail status | logHead tail | logTail tail
  | writeTail tail =>
      have holding : s.work.holding = some tail := by rw [pc]; rfl
      have held := inv.backlog_pos holding
      dsimp only
      omega

end LoopInv

/-- Outside the loop no access is left. -/
theorem looping_of_accessesLeft {s : State} (left : 0 < s.accessesLeft) :
    s.work.looping = true := by
  rw [State.accessesLeft] at left
  cases pc : s.work with
  | idle | sleep | readLedOff | writeLedOff led =>
      rw [pc] at left
      cases left
  | _ => rfl

/-- The worker in the loop can always make its next access. -/
theorem exists_workStep {s : State} (looping : s.work.looping = true) :
    ∃ t, Hw6.step s .workStep = some t := by
  change ∃ t, threadFunction s = some t
  rw [threadFunction]
  cases pc : s.work with
  | idle =>
      rw [pc] at looping
      cases looping
  | readHead tail =>
      dsimp only [readl]
      split <;> exact ⟨_, rfl⟩
  | _ => exact ⟨_, rfl⟩

/-! ## The loop -/

/-- The worker is in the loop or has left it. -/
def Draining (s : State) : Prop := ∃ w, LoopInv s w

theorem Draining.step {s t : State} {l : Label} (inv : Draining s) (looping : Looping s l)
    (moved : Hw6.step s l = some t) : Draining t ∧ Pays s l t := by
  obtain ⟨w, inv⟩ := inv
  exact inv.step looping (.of_step moved)

/-- While an access is left, the worker can make it. -/
theorem Draining.next (s : State) (inv : Draining s) (left : 0 < s.accessesLeft) :
    ∃ t, Hw6.step s .workStep = some t ∧ Draining t ∧ s.accessesLeft = t.accessesLeft + 1 := by
  have looping := looping_of_accessesLeft left
  obtain ⟨t, moved⟩ := exists_workStep looping
  obtain ⟨next, pays⟩ := inv.step looping moved
  have cost : 1 + t.accessesLeft = s.accessesLeft + 10 * 0 := pays.accesses
  exact ⟨t, moved, next, by omega⟩

/-- The worker alone gets to the exit. -/
theorem Draining.finish {s : State} (inv : Draining s) :
    ∃ t trace, Run Hw6.step s trace t ∧ Meets Looping trace ∧
      trace.map Prod.snd = List.replicate s.accessesLeft .workStep ∧ t.work = .idle := by
  obtain ⟨t, trace, run, meets, labels, ⟨w, inv⟩, nothing⟩ :=
    Run.exhaust Draining State.accessesLeft Label.workStep Draining.next inv
  refine ⟨t, trace, run, meets.mono fun _ _ => looping_of_accessesLeft, labels, ?_⟩
  rcases inv.inside with looping | idle
  · have left := inv.accessesLeft_pos looping
    omega
  · exact idle

/-- The step that leaves the loop is the test that finds `RDH` one after `RDT`. -/
theorem LoopInv.exit {s t : State} {l : Label} {w : Window 16} (inv : LoopInv s w)
    (looping : s.work.looping = true) (moved : Step s l t) (idle : t.work = .idle) :
    l = .workStep ∧ s.work = .readHead s.regs.rdh0 ∧
      s.regs.rdh0.toNat = (s.regs.rdt0.toNat + 1) % 16 ∧ t.iterationsLeft = 0 := by
  cases moved with
  | receive | raise | interrupt | poke =>
      rw [show s.work = .idle from idle] at looping
      cases looping
  | irq access =>
      rw [← (RingKept.of_irqStep access).2, idle] at looping
      cases looping
  | dispatch => cases idle
  | work access =>
      cases access with
      | done pc empty =>
          have behind : s.regs.rdh0.toNat = (w.tail + 1) % 16 := by rw [← empty, inv.test _ pc]
          refine ⟨rfl, empty ▸ pc, by rw [behind, inv.tail], ?_⟩
          have drained := w.succ_tail_eq_head_iff.mp (by rw [← behind, inv.head])
          change s.regs.backlog - 0 = 0
          rw [inv.backlog, drained]
          omega
      | _ => cases idle

/-- The loop was left at the last step, a read of `RDH` that found it one after
`RDT`, after an iteration for every descriptor that had not been given back at the
start or was completed before that read. -/
def CaughtUp (s : State) (trace : List (State × Label)) : Prop :=
  ∃ front u, trace = front ++ [(u, .workStep)] ∧ u.work = .readHead u.regs.rdh0 ∧
    u.regs.rdh0.toNat = (u.regs.rdt0.toNat + 1) % 16 ∧
    total iterated trace = s.regs.backlog + total received front

/-- **The drain loop catches up.** From the entry of the loop with any `RDH` and
`RDT` below 16, and whatever the device and the handler have done between the
accesses so far: the worker's next accesses, with nothing else in between, lead out of
the loop, and it has made ten for each descriptor of the backlog and each that has
come in, and two for the last test; and once it is out it has caught up. -/
theorem drain_loop {s t : State} {trace : List (State × Label)} (entry : s.work = .readTail)
    (head : s.regs.rdh0.toNat < 16) (tail : s.regs.rdt0.toNat < 16) (run : Run step s trace t)
    (inside : Meets Looping trace) :
    (∃ u back, Run step t back u ∧ Meets Looping back ∧ u.work = .idle ∧
      back.map Prod.snd = List.replicate back.length .workStep ∧
      total accessed trace + back.length =
        10 * (s.regs.backlog + total received trace) + 2) ∧
    (t.work = .idle → CaughtUp s trace) := by
  have start : Draining s := ⟨_, .entry entry head tail⟩
  have preserved : ∀ a l b, Draining a → Looping a l → step a l = some b → Draining b :=
    fun _ _ _ inv looping moved => (inv.step looping moved).1
  have accesses : total accessed trace + t.accessesLeft =
      10 * s.regs.backlog + 2 + 10 * total received trace := by
    have first : s.accessesLeft = 10 * s.regs.backlog + 2 := by rw [State.accessesLeft, entry]
    rw [← total_mul, ← first]
    exact run.account State.accessesLeft accessed (fun s l => 10 * received s l) preserved
      (fun _ _ _ inv looping moved => (inv.step looping moved).2.accesses) inside start
  have iterations : total iterated trace + t.iterationsLeft =
      s.regs.backlog + total received trace := by
    have first : s.iterationsLeft = s.regs.backlog := by rw [State.iterationsLeft, entry]; rfl
    rw [← first]
    exact run.account State.iterationsLeft iterated received preserved
      (fun _ _ _ inv looping moved => (inv.step looping moved).2.iterations) inside start
  refine ⟨?_, fun idle => ?_⟩
  · obtain ⟨u, back, rest, within, labels, out⟩ := (run.invariant preserved inside start).finish
    have length : back.length = t.accessesLeft := by
      rw [← List.length_map (f := Prod.snd), labels, List.length_replicate]
    exact ⟨u, back, rest, within, out, by rw [length, labels], by omega⟩
  · cases run with
    | refl =>
        rw [entry] at idle
        cases idle
    | @snoc front u _ l before edge =>
        obtain ⟨beforeInside, last⟩ := meets_append.mp inside
        have looping : Looping u l := meets_singleton.mp last
        obtain ⟨w, inv⟩ := before.invariant preserved beforeInside start
        obtain ⟨rfl, pc, behind, nothing⟩ := inv.exit looping (.of_step edge) idle
        have before : total received (front ++ [(u, .workStep)]) = total received front := by
          rw [total_append, total_singleton]
          rfl
        rw [nothing, before] at iterations
        exact ⟨front, u, rfl, pc, behind, iterations⟩

/-- Two descriptors wait and one more comes in after the first loop test: the loop has
three iterations. -/
theorem drain_loop_three :
    ∃ s t trace, Run step s trace t ∧ t.work = .idle ∧ total received trace = 1 ∧
      s.regs.backlog = 2 ∧ CaughtUp s trace := by
  let s : State := { State.afterProbe with
    regs := { State.afterProbe.regs with rdh0 := 2 }, work := .readTail }
  obtain ⟨t, trace, run, inside, idle, one⟩ := Run.of_traced_any step s
    ([.workStep, .workStep, .receive .blank] ++ List.replicate 30 .workStep)
    (fun r => Meets Looping r.1 ∧ r.2.work = .idle ∧ total received r.1 = 1) (by decide +kernel)
  exact ⟨s, t, trace, run, idle, one, by decide,
    (drain_loop rfl (by decide) (by decide) run inside).2 idle⟩

end BlinkDriver.Hw6
