import BlinkDriver.Hw6.System

/-!
# The LED control register

`irq_handler` turns LED 0 on (bit 7 of `LEDCTL`), `thread_function` turns it off
at the start of a run and shows the parity of every descriptor on LED 1 (bit
15). Each does so by reading the register, changing the value and writing it
back.

* `led0_never_stuck`: whenever LED 0 is on, a worker run that will turn it off
  is owed, although a worker may write a stale bit 7 back.
* `led_frame_iff`: a write changes only the bit it is meant to change exactly
  when the value written for an even descriptor has bits 31 to 28 clear, since
  the mask `0xFFF7FFF` lacks a digit.

`BlinkDriver.Hw6.LedRace` is about the updates the two functions lose to each
other.
-/

namespace BlinkDriver.Hw6

open Transition

/-- The bit of LED 0. -/
abbrev led0 : Nat := 7

/-- The bit of LED 1. -/
abbrev led1 : Nat := 15

/-- Only the driver's two functions write `LEDCTL`. -/
def NoPoke (_ : State) : Label → Prop
  | .poke _ => False
  | _ => True

/-- Neither function runs. -/
structure AtRest (s : State) : Prop where
  irq : s.irq = .idle
  work : s.work = .idle

/-! ## The masks -/

theorem getLsbD_setLed0 (led : U32) (j : Nat) :
    (0x80 ||| led : U32).getLsbD j = (decide (j = led0) || led.getLsbD j) := by
  have mask : (0x80 : U32) = BitVec.twoPow 32 led0 := rfl
  have narrow : led0 < 32 := by decide
  rw [mask, BitVec.getLsbD_or, BitVec.getLsbD_twoPow]
  simp [narrow, eq_comm]

theorem getLsbD_clearLed0 (led : U32) (j : Nat) :
    (0xFFFFFF7F &&& led : U32).getLsbD j = (decide (j ≠ led0) && led.getLsbD j) := by
  have mask : (0xFFFFFF7F : U32) = ~~~BitVec.twoPow 32 led0 := rfl
  have narrow : led0 < 32 := by decide
  rw [mask, BitVec.getLsbD_and, BitVec.getLsbD_not, BitVec.getLsbD_twoPow]
  by_cases wide : j < 32
  · simp [wide, narrow, eq_comm]
  · simp [BitVec.getLsbD_of_ge led j (by omega)]

theorem getLsbD_setLed1 (led : U32) (j : Nat) :
    (0x8000 ||| led : U32).getLsbD j = (decide (j = led1) || led.getLsbD j) := by
  have mask : (0x8000 : U32) = BitVec.twoPow 32 led1 := rfl
  have narrow : led1 < 32 := by decide
  rw [mask, BitVec.getLsbD_or, BitVec.getLsbD_twoPow]
  simp [narrow, eq_comm]

/-- The mask for an even descriptor has seven digits: it also clears the four
highest bits. -/
theorem getLsbD_clearLed1 (led : U32) (j : Nat) :
    (0xFFF7FFF &&& led : U32).getLsbD j = (decide (j < 28 ∧ j ≠ led1) && led.getLsbD j) := by
  rw [BitVec.getLsbD_and]
  by_cases wide : j < 32
  · have bit : ∀ i < 32, (0xFFF7FFF : U32).getLsbD i = decide (i < 28 ∧ i ≠ led1) := by decide
    rw [bit j wide]
  · simp [BitVec.getLsbD_of_ge led j (by omega)]

/-- After descriptor `tail`, LED 1 shows its parity. -/
theorem getLsbD_descriptorLed_led1 (tail led : U32) :
    (descriptorLed tail led).getLsbD led1 = decide (tail % 2 ≠ 0) := by
  unfold descriptorLed
  split
  · rename_i even
    rw [getLsbD_clearLed1]
    simpa using even
  · rename_i odd
    rw [getLsbD_setLed1]
    simpa using odd

/-- The write for a descriptor puts back the LED 0 bit that was read. -/
theorem getLsbD_descriptorLed_led0 (tail led : U32) :
    (descriptorLed tail led).getLsbD led0 = led.getLsbD led0 := by
  unfold descriptorLed
  split
  · rw [getLsbD_clearLed1]
    rfl
  · rw [getLsbD_setLed1]
    rfl

/-! ## LED 0 is never stuck on -/

/-- A worker run that has not yet turned LED 0 off. -/
def WorkPc.beforeOff : WorkPc → Bool
  | .sleep | .readLedOff | .writeLedOff _ => true
  | _ => false

/-- The handler has turned LED 0 on and not yet queued the work. -/
def IrqPc.lit : IrqPc → Bool
  | .schedule _ => true
  | _ => false

/-- A worker run that will turn LED 0 off is certain to come. -/
def OffOwed (s : State) : Prop :=
  s.irq.lit = true ∨ s.queued = true ∨ s.work.beforeOff = true

/-- What the worker read after a descriptor and has not written back: LED 0 is
on there only if it is on in the register. -/
def HeldOn (s : State) : Prop :=
  ∀ tail led, s.work = .writeLed tail led → led.getLsbD led0 = true →
    s.regs.ledctl.getLsbD led0 = true

theorem HeldOn.step {s t : State} {l : Label} (held : HeldOn s) (moved : Step s l t) :
    HeldOn t := by
  cases moved with
  | receive =>
      intro tail led pc on
      rw [Regs.receive_ledctl]
      exact held tail led pc on
  | raise => exact held
  | interrupt => exact held
  | irq access =>
      cases access with
      | @writeLed irqMask led pc =>
          intro _ _ _ _
          rw [getLsbD_setLed0]
          simp
      | _ => exact held
  | dispatch => exact nofun
  | work access =>
      cases access with
      | readLed pc =>
          intro tail led target on
          cases target
          exact on
      | _ => exact nofun
  | poke _ rest =>
      intro tail led pc
      rw [show s.work = _ from pc] at rest
      cases rest

/-- The invariant: LED 0 on, in the register or in a value about to be written
back, means that turning it off is owed. -/
structure LitInv (s : State) : Prop where
  register : s.regs.ledctl.getLsbD led0 = true → OffOwed s
  held : ∀ tail led, s.work = .writeLed tail led → led.getLsbD led0 = true → OffOwed s

/-- A step that leaves the register and the worker alone. -/
theorem LitInv.frame {s t : State} (inv : LitInv s) (ledctl : t.regs.ledctl = s.regs.ledctl)
    (work : t.work = s.work) (carry : OffOwed s → OffOwed t) : LitInv t where
  register on := carry (inv.register (by rwa [ledctl] at on))
  held tail led pc on := carry (inv.held tail led (work ▸ pc) on)

theorem LitInv.irqStep {s t : State} (inv : LitInv s) (access : IrqStep s t) : LitInv t := by
  -- Only the access that queues the work leaves the program point `schedule`.
  have carry : ∀ u : State, s.irq.lit = false → u.queued = s.queued → u.work = s.work →
      OffOwed s → OffOwed u := by
    intro u unlit queued work either
    rcases either with lit | ready | early
    · rw [unlit] at lit
      cases lit
    · exact Or.inr (Or.inl (queued.trans ready))
    · exact Or.inr (Or.inr (by rw [work]; exact early))
  cases access with
  | writeLed => exact ⟨fun _ => Or.inl rfl, fun _ _ _ _ => Or.inl rfl⟩
  | schedule => exact ⟨fun _ => Or.inr (Or.inl rfl), fun _ _ _ _ => Or.inr (Or.inl rfl)⟩
  | _ pc => exact inv.frame rfl rfl (carry _ (by rw [pc]; rfl) rfl rfl)

theorem LitInv.workStep {s t : State} (inv : LitInv s) (access : WorkStep s t) : LitInv t := by
  -- Past the LED0-off write only the handler and the queue can owe a run.
  have carry : ∀ u : State, s.work.beforeOff = false → u.irq = s.irq → u.queued = s.queued →
      OffOwed s → OffOwed u := by
    intro u late irq queued either
    rcases either with lit | ready | early
    · exact Or.inl (by rw [irq]; exact lit)
    · exact Or.inr (Or.inl (queued.trans ready))
    · rw [late] at early
      cases early
  cases access with
  | sleep => exact ⟨fun _ => Or.inr (Or.inr rfl), nofun⟩
  | readLedOff => exact ⟨fun _ => Or.inr (Or.inr rfl), nofun⟩
  | writeLedOff =>
      refine ⟨fun on => ?_, nofun⟩
      rw [getLsbD_clearLed0] at on
      simp at on
  | readLed pc =>
      refine ⟨fun on => carry _ (by rw [pc]; rfl) rfl rfl (inv.register on), ?_⟩
      intro tail led target on
      cases target
      exact carry _ (by rw [pc]; rfl) rfl rfl (inv.register on)
  | @writeLed tail led pc =>
      refine ⟨fun on => ?_, nofun⟩
      rw [getLsbD_descriptorLed_led0] at on
      exact carry _ (by rw [pc]; rfl) rfl rfl (inv.held tail led pc on)
  | _ pc => exact ⟨fun on => carry _ (by rw [pc]; rfl) rfl rfl (inv.register on), nofun⟩

theorem LitInv.step {s t : State} {l : Label} (inv : LitInv s) (only : NoPoke s l)
    (moved : Step s l t) : LitInv t := by
  cases moved with
  | receive => exact ⟨fun on => inv.register (by rwa [Regs.receive_ledctl] at on), inv.held⟩
  | raise => exact ⟨inv.register, inv.held⟩
  | interrupt rest =>
      have carry : OffOwed s → OffOwed { s with irq := .readIcr } := by
        intro either
        rcases either with lit | owed
        · rw [rest] at lit
          cases lit
        · exact Or.inr owed
      exact inv.frame rfl rfl carry
  | irq access => exact inv.irqStep access
  | dispatch => exact ⟨fun _ => Or.inr (Or.inr rfl), nofun⟩
  | work access => exact inv.workStep access
  | poke => exact only.elim

/-- **LED 0 is never left on.** Take any state `s` that a run from rest reaches
with LED 0 off. In every state that is reached from `s` while only the driver
writes `LEDCTL`, LED 0 is on only if a worker run that turns it off is owed. -/
theorem led0_never_stuck {boot s t : State} {before after : List (State × Label)}
    (rest : AtRest boot) (reached : Run step boot before s)
    (off : s.regs.ledctl.getLsbD led0 = false)
    (run : Run step s after t) (only : Meets NoPoke after)
    (on : t.regs.ledctl.getLsbD led0 = true) : OffOwed t := by
  have held : HeldOn s := by
    refine reached.invariant (fun _ _ _ inv _ moved => inv.step (.of_step moved))
      reached.meets_true ?_
    intro tail led pc
    rw [rest.work] at pc
    cases pc
  have start : LitInv s := by
    refine ⟨fun lit => ?_, fun tail led pc lit => ?_⟩
    · rw [off] at lit
      cases lit
    · rw [held tail led pc lit] at off
      cases off
  have inv := run.invariant (fun _ _ _ inv ok moved => inv.step ok (.of_step moved)) only start
  exact inv.register on

/-- Seven packets raise the threshold interrupt, and its handler turns LED 0 on. -/
theorem led0_never_stuck_first_interrupt :
    ∃ t trace, Run step .afterProbe trace t ∧ t.regs.ledctl.getLsbD led0 = true ∧ OffOwed t := by
  obtain ⟨t, trace, run, labels, lit⟩ := Run.of_exec_any
    step .afterProbe
    (List.replicate 7 (.receive .blank) ++ .interrupt :: List.replicate 5 .irqStep)
    (fun t => t.regs.ledctl.getLsbD led0 = true) (by decide +kernel)
  have only : Meets NoPoke trace := by
    intro entry member
    rcases entry with ⟨a, l⟩
    have taken := List.mem_map_of_mem (f := Prod.snd) member
    rw [labels] at taken
    cases l with
    | poke led => simp at taken
    | _ => trivial
  exact ⟨t, trace, run, lit, led0_never_stuck ⟨rfl, rfl⟩ .refl (by decide) run only lit⟩

/-! ## A write changes its own bit only -/

/-- The two values have the same bits except possibly bit `i`. -/
def AgreeExcept (i : Nat) (x y : U32) : Prop := ∀ j, j ≠ i → x.getLsbD j = y.getLsbD j

/-- The two values have the same bits except possibly those of LEDs 0 and 1. -/
def AgreeOnOthers (x y : U32) : Prop :=
  ∀ j, j ≠ led0 → j ≠ led1 → x.getLsbD j = y.getLsbD j

theorem AgreeExcept.others {i : Nat} {x y : U32} (agree : AgreeExcept i x y)
    (own : i = led0 ∨ i = led1) : AgreeOnOthers x y := by
  intro j not0 not1
  rcases own with rfl | rfl
  · exact agree j not0
  · exact agree j not1

theorem agreeExcept_setLed0 (led : U32) : AgreeExcept led0 (0x80 ||| led) led := by
  intro j other
  rw [getLsbD_setLed0, decide_eq_false other, Bool.false_or]

theorem agreeExcept_clearLed0 (led : U32) : AgreeExcept led0 (0xFFFFFF7F &&& led) led := by
  intro j other
  rw [getLsbD_clearLed0, decide_eq_true other, Bool.true_and]

/-- The write for a descriptor touches bit 15 only, unless the descriptor is even
and one of the four highest bits was set. -/
theorem agreeExcept_descriptorLed_iff (tail led : U32) :
    AgreeExcept led1 (descriptorLed tail led) led ↔ (tail % 2 = 0 → led.toNat < 2 ^ 28) := by
  unfold descriptorLed
  split
  · rename_i even
    constructor
    · intro agree _
      refine Nat.lt_pow_two_of_testBit _ fun j high => ?_
      have same := agree j (by simp only [led1]; omega)
      rw [getLsbD_clearLed1, decide_eq_false (by omega), Bool.false_and] at same
      rw [BitVec.testBit_toNat, ← same]
    · intro clear j other
      rw [getLsbD_clearLed1]
      by_cases low : j < 28
      · simp [low, other]
      · have bound : led.toNat < 2 ^ j :=
          (clear even).trans_le (Nat.pow_le_pow_right (by decide) (by omega))
        have zero : led.getLsbD j = false := Nat.testBit_lt_two_pow bound
        rw [zero, Bool.and_false]
  · rename_i odd
    refine ⟨fun _ even => (odd even).elim, fun _ j other => ?_⟩
    rw [getLsbD_setLed1, decide_eq_false other, Bool.false_or]

/-- If the step writes `LEDCTL`, what it writes differs from what was just read
in the bit the write is for, and in no other. -/
def OwnBitOnly (s : State) : Label → Prop
  | .irqStep => ∀ irqMask led, s.irq = .writeLed irqMask led →
      ∀ t, irqHandler s = some t → AgreeExcept led0 t.regs.ledctl led
  | .workStep =>
      (∀ led, s.work = .writeLedOff led →
        ∀ t, threadFunction s = some t → AgreeExcept led0 t.regs.ledctl led) ∧
      ∀ tail led, s.work = .writeLed tail led →
        ∀ t, threadFunction s = some t → AgreeExcept led1 t.regs.ledctl led
  | _ => True

/-- Unless another agent stores into `LEDCTL`, the bits of the other LEDs keep
their values. -/
def KeepsOthers (s : State) (l : Label) : Prop :=
  NoPoke s l → ∀ t, step s l = some t → AgreeOnOthers t.regs.ledctl s.regs.ledctl

/-- A write for an even descriptor puts back a value whose four highest bits are
clear. -/
def HighBitsClear (s : State) : Label → Prop
  | .workStep => ∀ tail led, s.work = .writeLed tail led → tail % 2 = 0 → led.toNat < 2 ^ 28
  | _ => True

instance (s : State) : ∀ l, Decidable (HighBitsClear s l)
  | .workStep => WorkPc.decidableWriteLed (fun tail led => tail % 2 = 0 → led.toNat < 2 ^ 28) s.work
  | .receive _ | .raise _ | .interrupt | .irqStep | .dispatch | .poke _ =>
      inferInstanceAs (Decidable True)

theorem ownBitOnly_iff (s : State) (l : Label) : OwnBitOnly s l ↔ HighBitsClear s l := by
  cases l with
  | irqStep =>
      refine ⟨fun _ => trivial, fun _ irqMask led pc t moved => ?_⟩
      rw [irqHandler, pc] at moved
      cases moved
      exact agreeExcept_setLed0 led
  | workStep =>
      constructor
      · intro both tail led pc
        rcases both with ⟨-, own⟩
        have moved : threadFunction s = some { s with
            regs := { s.regs with ledctl := descriptorLed tail led }, work := .readTail } := by
          rw [threadFunction, pc]
          rfl
        exact (agreeExcept_descriptorLed_iff tail led).mp (own tail led pc _ moved)
      · intro clear
        refine ⟨fun led pc t moved => ?_, fun tail led pc t moved => ?_⟩
        · rw [threadFunction, pc] at moved
          cases moved
          exact agreeExcept_clearLed0 led
        · rw [threadFunction, pc] at moved
          cases moved
          exact (agreeExcept_descriptorLed_iff tail led).mpr (clear tail led pc)
  | _ => exact Iff.rfl

/-- What a party has read and not yet written back has the bits of the other LEDs
as they are in the register. -/
structure HeldOthers (s : State) : Prop where
  irq : ∀ irqMask led, s.irq = .writeLed irqMask led → AgreeOnOthers led s.regs.ledctl
  off : ∀ led, s.work = .writeLedOff led → AgreeOnOthers led s.regs.ledctl
  descriptor : ∀ tail led, s.work = .writeLed tail led → AgreeOnOthers led s.regs.ledctl

theorem AgreeOnOthers.refl (x : U32) : AgreeOnOthers x x := fun _ _ _ => rfl

theorem AgreeOnOthers.trans {x y z : U32} (left : AgreeOnOthers x y) (right : AgreeOnOthers y z) :
    AgreeOnOthers x z :=
  fun j not0 not1 => (left j not0 not1).trans (right j not0 not1)

theorem AgreeOnOthers.symm {x y : U32} (agree : AgreeOnOthers x y) : AgreeOnOthers y x :=
  fun j not0 not1 => (agree j not0 not1).symm

/-- A step under the condition keeps the bits of the other LEDs. -/
theorem HeldOthers.keeps {s : State} {l : Label} (held : HeldOthers s) (clear : HighBitsClear s l) :
    KeepsOthers s l := by
  intro only t moved
  have same : ∀ x : U32, x = s.regs.ledctl → AgreeOnOthers x s.regs.ledctl := by
    intro _ same
    subst same
    exact .refl _
  cases Step.of_step moved with
  | receive => exact same _ (Regs.receive_ledctl _)
  | irq access =>
      cases access with
      | writeLed pc => exact ((agreeExcept_setLed0 _).others (Or.inl rfl)).trans (held.irq _ _ pc)
      | _ => exact same _ rfl
  | work access =>
      cases access with
      | writeLedOff pc =>
          exact ((agreeExcept_clearLed0 _).others (Or.inl rfl)).trans (held.off _ pc)
      | writeLed pc =>
          have own := (agreeExcept_descriptorLed_iff _ _).mpr (clear _ _ pc)
          exact (own.others (Or.inr rfl)).trans (held.descriptor _ _ pc)
      | _ => exact same _ rfl
  | poke => exact only.elim
  | _ => exact same _ rfl

/-- What was held before the step still agrees with the register after it. -/
theorem HeldOthers.frame {s t : State} (held : HeldOthers s)
    (keeps : AgreeOnOthers t.regs.ledctl s.regs.ledctl)
    (irq : ∀ irqMask led, t.irq = .writeLed irqMask led →
      s.irq = .writeLed irqMask led ∨ AgreeOnOthers led t.regs.ledctl)
    (off : ∀ led, t.work = .writeLedOff led →
      s.work = .writeLedOff led ∨ AgreeOnOthers led t.regs.ledctl)
    (descriptor : ∀ tail led, t.work = .writeLed tail led →
      s.work = .writeLed tail led ∨ AgreeOnOthers led t.regs.ledctl) : HeldOthers t where
  irq irqMask led pc :=
    (irq irqMask led pc).elim (fun before => (held.irq _ _ before).trans keeps.symm) id
  off led pc := (off led pc).elim (fun before => (held.off _ before).trans keeps.symm) id
  descriptor tail led pc :=
    (descriptor tail led pc).elim (fun before => (held.descriptor _ _ before).trans keeps.symm) id

theorem HeldOthers.step {s t : State} {l : Label} (held : HeldOthers s)
    (clear : HighBitsClear s l) (moved : step s l = some t) : HeldOthers t := by
  have keeps := fun only => held.keeps clear only t moved
  cases Step.of_step moved with
  | receive =>
      exact held.frame (keeps trivial) (fun _ _ => Or.inl) (fun _ => Or.inl) (fun _ _ => Or.inl)
  | raise =>
      exact held.frame (keeps trivial) (fun _ _ => Or.inl) (fun _ => Or.inl) (fun _ _ => Or.inl)
  | interrupt => exact held.frame (keeps trivial) nofun (fun _ => Or.inl) (fun _ _ => Or.inl)
  | irq access =>
      refine held.frame (keeps trivial) ?_ (fun _ pc => Or.inl ?_) (fun _ _ pc => Or.inl ?_)
      · cases access with
        | readLed => exact fun _ _ target => by cases target; exact Or.inr (.refl _)
        | _ => exact nofun
      · cases access <;> exact pc
      · cases access <;> exact pc
  | dispatch => exact held.frame (keeps trivial) (fun _ _ => Or.inl) nofun nofun
  | work access =>
      refine held.frame (keeps trivial) (fun _ _ pc => Or.inl ?_) ?_ ?_
      · cases access <;> exact pc
      · cases access with
        | readLedOff => exact fun _ target => by cases target; exact Or.inr (.refl _)
        | _ => exact nofun
      · cases access with
        | readLed => exact fun _ _ target => by cases target; exact Or.inr (.refl _)
        | _ => exact nofun
  | poke irqRest workRest =>
      refine ⟨fun _ _ pc => ?_, fun _ pc => ?_, fun _ _ pc => ?_⟩
      · rw [show s.irq = _ from pc] at irqRest
        cases irqRest
      · rw [show s.work = _ from pc] at workRest
        cases workRest
      · rw [show s.work = _ from pc] at workRest
        cases workRest

theorem HeldOthers.of_atRest {s : State} (rest : AtRest s) : HeldOthers s := by
  refine ⟨fun _ _ pc => ?_, fun _ pc => ?_, fun _ _ pc => ?_⟩
  · rw [rest.irq] at pc
    cases pc
  · rw [rest.work] at pc
    cases pc
  · rw [rest.work] at pc
    cases pc

/-- **LED updates touch their own bit.** In a run from rest, every write of
`LEDCTL` leaves all bits but its own as they were just read, and no step of the
driver changes the bits of the other LEDs, exactly when every write for an even
descriptor puts back a value whose four highest bits are clear. -/
theorem led_frame_iff {s t : State} {trace : List (State × Label)} (rest : AtRest s)
    (run : Run step s trace t) :
    (∀ p ∈ trace, OwnBitOnly p.1 p.2 ∧ KeepsOthers p.1 p.2) ↔ Meets HighBitsClear trace := by
  have same : ∀ s l, HeldOthers s → (OwnBitOnly s l ∧ KeepsOthers s l ↔ HighBitsClear s l) := by
    intro s l held
    constructor
    · exact fun framed => (ownBitOnly_iff s l).mp framed.1
    · exact fun clear => ⟨(ownBitOnly_iff s l).mpr clear, held.keeps clear⟩
  exact run.meets_iff same (fun _ _ _ => HeldOthers.step) (.of_atRest rest)

/-- Seven packets, the whole handler, and the worker up to its write of `LEDCTL`
for descriptor 0. -/
def firstDescriptor : List Label :=
  List.replicate 7 (.receive .blank) ++ .interrupt :: List.replicate 8 .irqStep ++
    .dispatch :: List.replicate 12 .workStep

/-- After a probe `LEDCTL` has its high bits clear, and the first descriptor's
write leaves all bits but its own alone. -/
theorem led_frame_after_probe :
    ∃ t trace, Run step .afterProbe trace t ∧ t.regs.rdt0 = 0 ∧ t.work = .readTail ∧
      ∀ p ∈ trace, OwnBitOnly p.1 p.2 ∧ KeepsOthers p.1 p.2 := by
  obtain ⟨t, trace, run, -, checked⟩ := Run.of_exec_any
    (restrict HighBitsClear step) .afterProbe (firstDescriptor ++ [.workStep])
    (fun t => t.regs.rdt0 = 0 ∧ t.work = .readTail) (by decide +kernel)
  obtain ⟨tail, work⟩ := checked
  obtain ⟨run, clear⟩ := run.of_restrict
  exact ⟨t, trace, run, tail, work, (led_frame_iff ⟨rfl, rfl⟩ run).mpr clear⟩

/-- With bit 31 of `LEDCTL` set by another agent, the write for descriptor 0
clears it. -/
theorem led_high_bit_cleared :
    ∃ t trace, Run step .afterProbe trace t ∧
      ¬ ∀ p ∈ trace, OwnBitOnly p.1 p.2 ∧ KeepsOthers p.1 p.2 := by
  obtain ⟨t, trace, run, -, pc⟩ := Run.of_exec_any step .afterProbe
    (.poke 0x80800000 :: firstDescriptor)
    (fun t => t.work = .writeLed 0 0x80800000) (by decide +kernel)
  have moved : step t .workStep = some { t with
      regs := { t.regs with ledctl := descriptorLed 0 0x80800000 }, work := .readTail } := by
    rw [step, threadFunction, pc]
    rfl
  refine ⟨_, _, run.snoc moved, fun framed => ?_⟩
  have own := (framed (t, .workStep) (by simp)).1
  have clear := (ownBitOnly_iff t .workStep).mp own 0 0x80800000 pc
  exact absurd (clear rfl) (by decide)

end BlinkDriver.Hw6
