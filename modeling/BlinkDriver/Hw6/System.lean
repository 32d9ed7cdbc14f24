import BlinkDriver.Lib.Transition
import BlinkDriver.Hw6.Descriptor
import BlinkDriver.Hw6.Registers

/-!
# The running driver: device, interrupt handler and worker

The three parties of `HW6/hw6.c` once `pci_blinkDriver_probe` has set the ring
up: the device, which completes descriptors and raises interrupt causes;
`irq_handler`, which is not re-entered; and `thread_function`, the one work item
behind `schedule_work`, which never runs twice at once. Every register access
and every access to a descriptor is one atomic step; a program point is named
after the access it performs next and carries the locals that are live there.

`step` leaves the environment as much freedom as possible: the handler may be
started at any time, even without a cause, and the device may raise any cause
at any time. A result that rests on more about the device restricts the run.

`IrqStep` and `WorkStep` list what one access can do, in the order of the
source; every proof about the two functions goes through them.
-/

namespace BlinkDriver.Hw6

/-- Program points of `irq_handler`. -/
inductive IrqPc where
  | idle
  | readIcr
  | readIms
  | writeImc (irqMask : U32)
  | readLed (irqMask : U32)
  | writeLed (irqMask led : U32)
  | schedule (irqMask : U32)
  | writeIcr (irqMask : U32)
  | writeIms (irqMask : U32)
  deriving DecidableEq

/-- Program points of `thread_function`. The loop test reads the tail and then
the head. -/
inductive WorkPc where
  | idle
  | sleep
  | readLedOff
  | writeLedOff (led : U32)
  | readTail
  | readHead (tail : U32)
  | readData (tail : U32)
  | readStatus (tail : U32)
  | readLength (tail : U32) (status : BitVec 8)
  | logHead (tail : U32)
  | logTail (tail : U32)
  | writeTail (tail : U32)
  | readLed (tail : U32)
  | writeLed (tail led : U32)
  deriving DecidableEq

/-- A condition on the write of `LEDCTL` by the handler, at any program point. -/
instance IrqPc.decidableWriteLed (P : U32 → U32 → Prop) [∀ irqMask led, Decidable (P irqMask led)] :
    ∀ pc : IrqPc, Decidable (∀ irqMask led, pc = .writeLed irqMask led → P irqMask led)
  | .writeLed irqMask led =>
      decidable_of_iff (P irqMask led)
        ⟨fun holds _ _ same => by cases same; exact holds, fun all => all _ _ rfl⟩
  | .idle | .readIcr | .readIms | .writeImc _ | .readLed _ | .schedule _ | .writeIcr _
  | .writeIms _ => .isTrue nofun

/-- A condition on the write of `LEDCTL` for a descriptor, at any program point. -/
instance WorkPc.decidableWriteLed (P : U32 → U32 → Prop) [∀ tail led, Decidable (P tail led)] :
    ∀ pc : WorkPc, Decidable (∀ tail led, pc = .writeLed tail led → P tail led)
  | .writeLed tail led =>
      decidable_of_iff (P tail led)
        ⟨fun holds _ _ same => by cases same; exact holds, fun all => all _ _ rfl⟩
  | .idle | .sleep | .readLedOff | .writeLedOff _ | .readTail | .readHead _ | .readData _
  | .readStatus _ | .readLength _ _ | .logHead _ | .logTail _ | .writeTail _ | .readLed _ =>
      .isTrue nofun

/-- The device's registers, the descriptor ring it shares with the driver, the
two driver functions, and what has happened to descriptors so far: the ones the
device completed, in order and with their contents, and the ones
`thread_function` printed, in order and with what it printed. -/
structure State where
  regs : Regs
  rxDE : Nat → Descriptor
  irq : IrqPc
  work : WorkPc
  queued : Bool
  completed : List (Nat × Descriptor)
  processed : List (Nat × Report)

/-- The state a probe leaves when the registers it does not write read zero. -/
def State.afterProbe : State where
  regs :=
    { ctrl := 0x60, icr := 0, ims := rxdmt0, rctl := 0x1A, ledctl := 0x800000,
      rdbal0 := 0, rdbah0 := 0, rdlen0 := 256, rdh0 := 0, rdt0 := 0xF }
  rxDE := fun _ => .blank
  irq := .idle
  work := .idle
  queued := false
  completed := []
  processed := []

/-! ## The driver's functions -/

/-- The next access of a running `irq_handler`. -/
def irqHandler (s : State) : Option State :=
  match s.irq with
  | .idle => none
  | .readIcr =>
      let (icr, regs) := readl .icr s.regs
      let cause := icr &&& rxdmt0
      if cause ≠ rxdmt0 then some { s with regs, irq := .idle }
      else some { s with regs, irq := .readIms }
  | .readIms =>
      let (irqMask, regs) := readl .ims s.regs
      some { s with regs, irq := .writeImc irqMask }
  | .writeImc irqMask =>
      some { s with regs := writel 0xFFFFFFFF .imc s.regs, irq := .readLed irqMask }
  | .readLed irqMask =>
      let (led, regs) := readl .ledctl s.regs
      some { s with regs, irq := .writeLed irqMask led }
  | .writeLed irqMask led =>
      some { s with regs := writel (0x80 ||| led) .ledctl s.regs, irq := .schedule irqMask }
  | .schedule irqMask => some { s with queued := true, irq := .writeIcr irqMask }
  | .writeIcr irqMask =>
      some { s with regs := writel rxdmt0 .icr s.regs, irq := .writeIms irqMask }
  | .writeIms irqMask => some { s with regs := writel irqMask .ims s.regs, irq := .idle }

/-- The value `thread_function` stores in `LEDCTL` after descriptor `tail`. -/
def descriptorLed (tail led : U32) : U32 :=
  if tail % 2 = 0 then 0xFFF7FFF &&& led else 0x8000 ||| led

/-- The next access of a running `thread_function`. The local `LED` is an `int`;
the masks act on its bits. -/
def threadFunction (s : State) : Option State :=
  match s.work with
  | .idle => none
  | .sleep => some { s with work := .readLedOff }
  | .readLedOff =>
      let (led, regs) := readl .ledctl s.regs
      some { s with regs, work := .writeLedOff led }
  | .writeLedOff led =>
      some { s with regs := writel (0xFFFFFF7F &&& led) .ledctl s.regs, work := .readTail }
  | .readTail =>
      let (rdt, regs) := readl .rdt0 s.regs
      some { s with regs, work := .readHead ((rdt + 1) % 16) }
  | .readHead tail =>
      let (rdh, regs) := readl .rdh0 s.regs
      if tail ≠ rdh then some { s with regs, work := .readData tail }
      else some { s with regs, work := .idle }
  | .readData tail => some { s with work := .readStatus tail }
  | .readStatus tail =>
      some { s with work := .readLength tail (report (s.rxDE tail.toNat)).status }
  | .readLength tail status =>
      let printed : Report := ⟨status, (report (s.rxDE tail.toNat)).length⟩
      some { s with processed := s.processed ++ [(tail.toNat, printed)], work := .logHead tail }
  | .logHead tail => some { s with regs := (readl .rdh0 s.regs).2, work := .logTail tail }
  | .logTail tail => some { s with regs := (readl .rdt0 s.regs).2, work := .writeTail tail }
  | .writeTail tail => some { s with regs := writel tail .rdt0 s.regs, work := .readLed tail }
  | .readLed tail =>
      let (led, regs) := readl .ledctl s.regs
      some { s with regs, work := .writeLed tail led }
  | .writeLed tail led =>
      some { s with regs := writel (descriptorLed tail led) .ledctl s.regs, work := .readTail }

/-! ## The system -/

/-- Who moves: the device completes a descriptor with the given contents or
raises causes, the kernel starts the handler or the queued work item, one of the
two functions makes its next access, or another agent stores into `LEDCTL` while
neither of them runs. -/
inductive Label where
  | receive (contents : Descriptor)
  | raise (causes : U32)
  | interrupt
  | irqStep
  | dispatch
  | workStep
  | poke (led : U32)

def step (s : State) : Label → Option State
  | .receive contents =>
      if s.regs.rdh0 = s.regs.rdt0 then none
      else
        let head := s.regs.rdh0.toNat
        some { s with
          regs := s.regs.receive
          rxDE := Function.update s.rxDE head contents
          completed := s.completed ++ [(head, contents)] }
  | .raise causes => some { s with regs := { s.regs with icr := s.regs.icr ||| causes } }
  | .interrupt => if s.irq = .idle then some { s with irq := .readIcr } else none
  | .irqStep => irqHandler s
  | .dispatch =>
      if s.queued = true ∧ s.work = .idle then some { s with queued := false, work := .sleep }
      else none
  | .workStep => threadFunction s
  | .poke led =>
      if s.irq = .idle ∧ s.work = .idle then some { s with regs := { s.regs with ledctl := led } }
      else none

/-! ## What one access can do -/

/-- The accesses of `irq_handler`. -/
inductive IrqStep (s : State) : State → Prop
  | none (pc : s.irq = .readIcr) (clear : s.regs.icr &&& rxdmt0 ≠ rxdmt0) :
      IrqStep s { s with regs := { s.regs with icr := 0 }, irq := .idle }
  | readIcr (pc : s.irq = .readIcr) (raised : s.regs.icr &&& rxdmt0 = rxdmt0) :
      IrqStep s { s with regs := { s.regs with icr := 0 }, irq := .readIms }
  | readIms (pc : s.irq = .readIms) : IrqStep s { s with irq := .writeImc s.regs.ims }
  | writeImc {irqMask : U32} (pc : s.irq = .writeImc irqMask) :
      IrqStep s { s with regs := { s.regs with ims := 0 }, irq := .readLed irqMask }
  | readLed {irqMask : U32} (pc : s.irq = .readLed irqMask) :
      IrqStep s { s with irq := .writeLed irqMask s.regs.ledctl }
  | writeLed {irqMask led : U32} (pc : s.irq = .writeLed irqMask led) :
      IrqStep s { s with
        regs := { s.regs with ledctl := 0x80 ||| led }, irq := .schedule irqMask }
  | schedule {irqMask : U32} (pc : s.irq = .schedule irqMask) :
      IrqStep s { s with queued := true, irq := .writeIcr irqMask }
  | writeIcr {irqMask : U32} (pc : s.irq = .writeIcr irqMask) :
      IrqStep s { s with
        regs := { s.regs with icr := s.regs.icr &&& ~~~rxdmt0 }, irq := .writeIms irqMask }
  | writeIms {irqMask : U32} (pc : s.irq = .writeIms irqMask) :
      IrqStep s { s with regs := { s.regs with ims := s.regs.ims ||| irqMask }, irq := .idle }

/-- The accesses of `thread_function`. -/
inductive WorkStep (s : State) : State → Prop
  | sleep (pc : s.work = .sleep) : WorkStep s { s with work := .readLedOff }
  | readLedOff (pc : s.work = .readLedOff) :
      WorkStep s { s with work := .writeLedOff s.regs.ledctl }
  | writeLedOff {led : U32} (pc : s.work = .writeLedOff led) :
      WorkStep s { s with
        regs := { s.regs with ledctl := 0xFFFFFF7F &&& led }, work := .readTail }
  | readTail (pc : s.work = .readTail) :
      WorkStep s { s with work := .readHead ((s.regs.rdt0 + 1) % 16) }
  | readHead {tail : U32} (pc : s.work = .readHead tail) (pending : tail ≠ s.regs.rdh0) :
      WorkStep s { s with work := .readData tail }
  | done {tail : U32} (pc : s.work = .readHead tail) (empty : tail = s.regs.rdh0) :
      WorkStep s { s with work := .idle }
  | readData {tail : U32} (pc : s.work = .readData tail) :
      WorkStep s { s with work := .readStatus tail }
  | readStatus {tail : U32} (pc : s.work = .readStatus tail) :
      WorkStep s { s with work := .readLength tail (report (s.rxDE tail.toNat)).status }
  | readLength {tail : U32} {status : BitVec 8} (pc : s.work = .readLength tail status) :
      WorkStep s { s with
        processed := s.processed ++
          [(tail.toNat, ⟨status, (report (s.rxDE tail.toNat)).length⟩)]
        work := .logHead tail }
  | logHead {tail : U32} (pc : s.work = .logHead tail) : WorkStep s { s with work := .logTail tail }
  | logTail {tail : U32} (pc : s.work = .logTail tail) :
      WorkStep s { s with work := .writeTail tail }
  | writeTail {tail : U32} (pc : s.work = .writeTail tail) :
      WorkStep s { s with regs := { s.regs with rdt0 := tail }, work := .readLed tail }
  | readLed {tail : U32} (pc : s.work = .readLed tail) :
      WorkStep s { s with work := .writeLed tail s.regs.ledctl }
  | writeLed {tail led : U32} (pc : s.work = .writeLed tail led) :
      WorkStep s { s with
        regs := { s.regs with ledctl := descriptorLed tail led }, work := .readTail }

theorem IrqStep.of_irqHandler {s t : State} (moved : irqHandler s = some t) : IrqStep s t := by
  unfold irqHandler at moved
  split at moved
  case h_1 => cases moved
  case h_2 pc =>
      by_cases raised : s.regs.icr &&& rxdmt0 = rxdmt0
      · simp only [readl, raised, ne_eq, not_true_eq_false, if_false] at moved
        cases moved
        exact .readIcr pc raised
      · simp only [readl, raised, ne_eq, not_false_eq_true, if_true] at moved
        cases moved
        exact .none pc raised
  case h_3 pc => cases moved; exact .readIms pc
  case h_4 irqMask pc =>
      have masked : s.regs.ims &&& ~~~(0xFFFFFFFF : U32) = 0 := by simp
      simp only [writel, masked] at moved
      cases moved
      exact .writeImc pc
  case h_5 irqMask pc => cases moved; exact .readLed pc
  case h_6 irqMask led pc => cases moved; exact .writeLed pc
  case h_7 irqMask pc => cases moved; exact .schedule pc
  case h_8 irqMask pc => cases moved; exact .writeIcr pc
  case h_9 irqMask pc => cases moved; exact .writeIms pc

theorem WorkStep.of_threadFunction {s t : State} (moved : threadFunction s = some t) :
    WorkStep s t := by
  unfold threadFunction at moved
  split at moved
  case h_1 => cases moved
  case h_2 pc => cases moved; exact .sleep pc
  case h_3 pc => cases moved; exact .readLedOff pc
  case h_4 led pc => cases moved; exact .writeLedOff pc
  case h_5 pc => cases moved; exact .readTail pc
  case h_6 tail pc =>
      by_cases empty : tail = s.regs.rdh0
      · simp only [readl, empty, ne_eq, not_true_eq_false, if_false] at moved
        cases moved
        exact .done pc empty
      · simp only [readl, empty, ne_eq, not_false_eq_true, if_true] at moved
        cases moved
        exact .readHead pc empty
  case h_7 tail pc => cases moved; exact .readData pc
  case h_8 tail pc => cases moved; exact .readStatus pc
  case h_9 tail status pc => cases moved; exact .readLength pc
  case h_10 tail pc => cases moved; exact .logHead pc
  case h_11 tail pc => cases moved; exact .logTail pc
  case h_12 tail pc => cases moved; exact .writeTail pc
  case h_13 tail pc => cases moved; exact .readLed pc
  case h_14 tail led pc => cases moved; exact .writeLed pc

/-- An access is made by a running handler. -/
theorem IrqStep.running {s t : State} (access : IrqStep s t) : s.irq ≠ .idle := by
  intro rest
  cases access with
  | none pc | readIcr pc | readIms pc | writeImc pc | readLed pc | writeLed pc | schedule pc
  | writeIcr pc | writeIms pc =>
      rw [rest] at pc
      cases pc

/-- An access is made by a running worker. -/
theorem WorkStep.running {s t : State} (access : WorkStep s t) : s.work ≠ .idle := by
  intro rest
  cases access with
  | sleep pc | readLedOff pc | writeLedOff pc | readTail pc | readHead pc | done pc | readData pc
  | readStatus pc | readLength pc | logHead pc | logTail pc | writeTail pc | readLed pc
  | writeLed pc =>
      rw [rest] at pc
      cases pc

/-- The moves of the whole system. -/
inductive Step (s : State) : Label → State → Prop
  | receive {contents : Descriptor} (room : s.regs.rdh0 ≠ s.regs.rdt0) :
      Step s (.receive contents) { s with
        regs := s.regs.receive
        rxDE := Function.update s.rxDE s.regs.rdh0.toNat contents
        completed := s.completed ++ [(s.regs.rdh0.toNat, contents)] }
  | raise {causes : U32} :
      Step s (.raise causes) { s with regs := { s.regs with icr := s.regs.icr ||| causes } }
  | interrupt (rest : s.irq = .idle) : Step s .interrupt { s with irq := .readIcr }
  | irq {t : State} (access : IrqStep s t) : Step s .irqStep t
  | dispatch (ready : s.queued = true) (rest : s.work = .idle) :
      Step s .dispatch { s with queued := false, work := .sleep }
  | work {t : State} (access : WorkStep s t) : Step s .workStep t
  | poke {led : U32} (irqRest : s.irq = .idle) (workRest : s.work = .idle) :
      Step s (.poke led) { s with regs := { s.regs with ledctl := led } }

theorem Step.of_step {s t : State} {l : Label} (moved : step s l = some t) : Step s l t := by
  cases l with
  | receive contents =>
      simp only [step] at moved
      split at moved
      · cases moved
      · rename_i room
        cases moved
        exact .receive room
  | raise causes => cases moved; exact .raise
  | interrupt =>
      simp only [step] at moved
      split at moved
      · rename_i rest
        cases moved
        exact .interrupt rest
      · cases moved
  | irqStep => exact .irq (.of_irqHandler moved)
  | dispatch =>
      simp only [step] at moved
      split at moved
      · rename_i ready
        cases moved
        exact .dispatch ready.1 ready.2
      · cases moved
  | workStep => exact .work (.of_threadFunction moved)
  | poke led =>
      simp only [step] at moved
      split at moved
      · rename_i rest
        cases moved
        exact .poke rest.1 rest.2
      · cases moved

end BlinkDriver.Hw6
