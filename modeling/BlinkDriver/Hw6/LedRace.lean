import BlinkDriver.Hw6.Led
import BlinkDriver.Hw6.Threshold

/-!
# LED updates that are lost

The handler and the worker update `LEDCTL` by reading it and writing a changed
value back, without a lock. `Panel` is what the updates made so far ask the two
LEDs to show, each update taken as one atomic change of its own LED. A write
that puts back an old value of the other party's LED undoes that party's update:
`led0_update_lost` and `led1_update_lost` are such runs, one in each direction.

`leds_shown_iff` says that the register shows what the panel asks for exactly
when every write finds the other party's LED as it was when the value was read.
-/

namespace BlinkDriver.Hw6

open Transition

/-- What the two LEDs are asked to show: LED 0 is lit when the handler has
turned it on and no worker run has turned it off since, and LED 1 shows whether
the last descriptor was odd. -/
structure Panel where
  lit : Bool
  odd : Option Bool

/-- No update so far. -/
def Panel.blank : Panel := ⟨false, none⟩

/-- The updates. -/
def Panel.next (s : State) (l : Label) (panel : Panel) : Panel :=
  match l with
  | .irqStep =>
      match s.irq with
      | .writeLed _ _ => { panel with lit := true }
      | _ => panel
  | .workStep =>
      match s.work with
      | .writeLedOff _ => { panel with lit := false }
      | .writeLed tail _ => { panel with odd := some (decide (tail % 2 ≠ 0)) }
      | _ => panel
  | _ => panel

/-- The register shows what was asked for. -/
structure Panel.Shown (panel : Panel) (ledctl : U32) : Prop where
  led0 : panel.lit = true → ledctl.getLsbD led0 = true
  led1 : ∀ odd, panel.odd = some odd → ledctl.getLsbD led1 = odd

/-- A write of `LEDCTL` finds the LED of the other party as it was when the
value to write was read. -/
def Fresh (s : State) : Label → Prop
  | .irqStep => ∀ irqMask led, s.irq = .writeLed irqMask led →
      led.getLsbD led1 = s.regs.ledctl.getLsbD led1
  | .workStep => ∀ tail led, s.work = .writeLed tail led →
      led.getLsbD led0 = s.regs.ledctl.getLsbD led0
  | _ => True

instance (s : State) : ∀ l, Decidable (NoPoke s l)
  | .poke _ => inferInstanceAs (Decidable False)
  | .receive _ | .raise _ | .interrupt | .irqStep | .dispatch | .workStep =>
      inferInstanceAs (Decidable True)

instance (s : State) : ∀ l, Decidable (Fresh s l)
  | .irqStep =>
      IrqPc.decidableWriteLed (fun _ led => led.getLsbD led1 = s.regs.ledctl.getLsbD led1) s.irq
  | .workStep =>
      WorkPc.decidableWriteLed (fun _ led => led.getLsbD led0 = s.regs.ledctl.getLsbD led0) s.work
  | .receive _ | .raise _ | .interrupt | .dispatch | .poke _ => inferInstanceAs (Decidable True)

/-! ## What a step does to the LEDs -/

/-- A worker run that has turned LED 0 off. -/
def WorkPc.pastOff (pc : WorkPc) : Bool := decide (pc ≠ .idle) && !pc.beforeOff

/-- A step of the driver leaves `LEDCTL` alone, and then a value held for later
was held before or is the present one, or it is one of the three writes. -/
inductive LedStep (s : State) : Label → State → Prop
  | keep {l : Label} {t : State} (ledctl : t.regs.ledctl = s.regs.ledctl)
      (panel : ∀ panel : Panel, panel.next s l = panel)
      (irq : ∀ irqMask led, t.irq = .writeLed irqMask led →
        s.irq = .writeLed irqMask led ∨ led = s.regs.ledctl)
      (off : ∀ led, t.work = .writeLedOff led → s.work = .writeLedOff led ∨ led = s.regs.ledctl)
      (past : t.work.pastOff = true → s.work.pastOff = true) : LedStep s l t
  | on {irqMask led : U32} (pc : s.irq = .writeLed irqMask led) :
      LedStep s .irqStep { s with
        regs := { s.regs with ledctl := 0x80 ||| led }, irq := .schedule irqMask }
  | off {led : U32} (pc : s.work = .writeLedOff led) :
      LedStep s .workStep { s with
        regs := { s.regs with ledctl := 0xFFFFFF7F &&& led }, work := .readTail }
  | descriptor {tail led : U32} (pc : s.work = .writeLed tail led) :
      LedStep s .workStep { s with
        regs := { s.regs with ledctl := descriptorLed tail led }, work := .readTail }

theorem LedStep.of_irqStep {s t : State} (access : IrqStep s t) : LedStep s .irqStep t := by
  cases access with
  | writeLed pc => exact .on pc
  | readLed pc =>
      refine .keep rfl (fun _ => by simp only [Panel.next, pc]) (fun _ _ target => ?_)
        (fun _ => Or.inl) id
      cases target
      exact Or.inr rfl
  | _ pc =>
      exact .keep rfl (fun _ => by simp only [Panel.next, pc]) nofun (fun _ => Or.inl) id

theorem LedStep.of_workStep {s t : State} (access : WorkStep s t) : LedStep s .workStep t := by
  cases access with
  | writeLedOff pc => exact .off pc
  | writeLed pc => exact .descriptor pc
  | readLedOff pc =>
      refine .keep rfl (fun _ => by simp only [Panel.next, pc]) (fun _ _ => Or.inl)
        (fun _ target => ?_) nofun
      cases target
      exact Or.inr rfl
  | _ pc =>
      exact .keep rfl (fun _ => by simp only [Panel.next, pc]) (fun _ _ => Or.inl) nofun
        (fun past => by first | (rw [pc]; rfl) | cases past)

theorem LedStep.of_step {s t : State} {l : Label} (only : NoPoke s l) (moved : Step s l t) :
    LedStep s l t := by
  cases moved with
  | receive =>
      exact .keep (Regs.receive_ledctl _) (fun _ => rfl) (fun _ _ => Or.inl) (fun _ => Or.inl) id
  | raise => exact .keep rfl (fun _ => rfl) (fun _ _ => Or.inl) (fun _ => Or.inl) id
  | interrupt => exact .keep rfl (fun _ => rfl) nofun (fun _ => Or.inl) id
  | irq access => exact .of_irqStep access
  | dispatch => exact .keep rfl (fun _ => rfl) (fun _ _ => Or.inl) nofun nofun
  | work access => exact .of_workStep access
  | poke => exact only.elim

/-! ## What holds without the condition -/

/-- Once a worker run has turned LED 0 off, it is on only at the handler's
request; and until the first descriptor nothing changes LED 1. -/
structure PanelInv (s : State) (panel : Panel) : Prop where
  held : HeldOn s
  dark : s.work.pastOff = true → panel.lit = false → s.regs.ledctl.getLsbD led0 = false
  irq : panel.odd = none → ∀ irqMask led, s.irq = .writeLed irqMask led →
    led.getLsbD led1 = s.regs.ledctl.getLsbD led1
  off : panel.odd = none → ∀ led, s.work = .writeLedOff led →
    led.getLsbD led1 = s.regs.ledctl.getLsbD led1

theorem getLsbD_setLed0_led1 (led : U32) :
    (0x80 ||| led : U32).getLsbD led1 = led.getLsbD led1 := by
  rw [getLsbD_setLed0]
  rfl

theorem getLsbD_clearLed0_led1 (led : U32) :
    (0xFFFFFF7F &&& led : U32).getLsbD led1 = led.getLsbD led1 := by
  rw [getLsbD_clearLed0]
  rfl

theorem PanelInv.of_atRest {s : State} (rest : AtRest s) : PanelInv s .blank := by
  refine ⟨fun tail led pc => ?_, fun past => ?_, fun _ irqMask led pc => ?_, fun _ led pc => ?_⟩
  · rw [rest.work] at pc
    cases pc
  · rw [rest.work] at past
    cases past
  · rw [rest.irq] at pc
    cases pc
  · rw [rest.work] at pc
    cases pc

theorem PanelInv.step {s t : State} {l : Label} {panel : Panel} (inv : PanelInv s panel)
    (only : NoPoke s l) (moved : step s l = some t) : PanelInv t (panel.next s l) := by
  have held := inv.held.step (.of_step moved)
  cases LedStep.of_step only (.of_step moved) with
  | keep ledctl same irq off past =>
      rw [same]
      refine ⟨held, fun late unlit => ?_, fun first irqMask led pc => ?_, fun first led pc => ?_⟩
      · rw [ledctl]
        exact inv.dark (past late) unlit
      · rw [ledctl]
        rcases irq irqMask led pc with before | rfl
        · exact inv.irq first irqMask led before
        · rfl
      · rw [ledctl]
        rcases off led pc with before | rfl
        · exact inv.off first led before
        · rfl
  | @on irqMask led pc =>
      have lit : panel.next s .irqStep = { panel with lit := true } := by
        simp only [Panel.next, pc]
      rw [lit]
      refine ⟨held, nofun, nofun, fun first off target => ?_⟩
      rw [getLsbD_setLed0_led1, inv.irq first irqMask led pc]
      exact inv.off first off target
  | @off led pc =>
      have unlit : panel.next s .workStep = { panel with lit := false } := by
        simp only [Panel.next, pc]
      rw [unlit]
      refine ⟨held, fun _ _ => ?_, fun first irqMask on target => ?_, nofun⟩
      · rw [getLsbD_clearLed0]
        rfl
      · rw [getLsbD_clearLed0_led1, inv.off first led pc]
        exact inv.irq first irqMask on target
  | @descriptor tail led pc =>
      have shown : panel.next s .workStep =
          { panel with odd := some (decide (tail % 2 ≠ 0)) } := by
        simp only [Panel.next, pc]
      rw [shown]
      refine ⟨held, fun _ unlit => ?_, nofun, nofun⟩
      have dark := inv.dark (by rw [pc]; rfl) unlit
      rw [getLsbD_descriptorLed_led0]
      by_contra on
      have stale := inv.held tail led pc (by simpa using on)
      rw [dark] at stale
      cases stale

/-! ## The condition is exact -/

/-- The register shows what was asked for, and the LED0-off write will not
change LED 1. -/
structure ShownInv (s : State) (panel : Panel) : Prop where
  shown : panel.Shown s.regs.ledctl
  off : ∀ led, s.work = .writeLedOff led → led.getLsbD led1 = s.regs.ledctl.getLsbD led1

theorem ShownInv.step {s t : State} {l : Label} {panel : Panel} (inv : ShownInv s panel)
    (only : NoPoke s l) (fresh : Fresh s l) (moved : step s l = some t) :
    ShownInv t (panel.next s l) := by
  cases LedStep.of_step only (.of_step moved) with
  | keep ledctl same irq off past =>
      rw [same]
      refine ⟨by rw [ledctl]; exact inv.shown, fun led pc => ?_⟩
      rw [ledctl]
      rcases off led pc with before | rfl
      · exact inv.off led before
      · rfl
  | @on irqMask led pc =>
      have lit : panel.next s .irqStep = { panel with lit := true } := by
        simp only [Panel.next, pc]
      have kept : (0x80 ||| led : U32).getLsbD led1 = s.regs.ledctl.getLsbD led1 := by
        rw [getLsbD_setLed0_led1]
        exact fresh irqMask led pc
      rw [lit]
      refine ⟨⟨fun _ => ?_, fun odd asked => kept.trans (inv.shown.led1 odd asked)⟩,
        fun off target => (inv.off off target).trans kept.symm⟩
      rw [getLsbD_setLed0]
      rfl
  | @off led pc =>
      have unlit : panel.next s .workStep = { panel with lit := false } := by
        simp only [Panel.next, pc]
      have kept : (0xFFFFFF7F &&& led : U32).getLsbD led1 = s.regs.ledctl.getLsbD led1 := by
        rw [getLsbD_clearLed0_led1]
        exact inv.off led pc
      rw [unlit]
      exact ⟨⟨nofun, fun odd asked => kept.trans (inv.shown.led1 odd asked)⟩, nofun⟩
  | @descriptor tail led pc =>
      have shown : panel.next s .workStep =
          { panel with odd := some (decide (tail % 2 ≠ 0)) } := by
        simp only [Panel.next, pc]
      rw [shown]
      refine ⟨⟨fun lit => ?_, fun odd asked => ?_⟩, nofun⟩
      · rw [getLsbD_descriptorLed_led0, fresh tail led pc]
        exact inv.shown.led0 lit
      · rw [getLsbD_descriptorLed_led1]
        exact Option.some.inj asked

/-- Where the register shows what was asked for before and after a step, the
step did not put back an old value. -/
theorem PanelInv.fresh {s t : State} {l : Label} {panel : Panel} (inv : PanelInv s panel)
    (moved : Hw6.step s l = some t) (before : panel.Shown s.regs.ledctl)
    (after : (panel.next s l).Shown t.regs.ledctl) : Fresh s l := by
  cases l with
  | irqStep =>
      intro irqMask led pc
      rw [Hw6.step, irqHandler, pc] at moved
      cases moved
      have lit : panel.next s .irqStep = { panel with lit := true } := by
        simp only [Panel.next, pc]
      rw [lit] at after
      cases asked : panel.odd with
      | none => exact inv.irq asked irqMask led pc
      | some odd =>
          have kept := after.led1 odd asked
          rw [before.led1 odd asked, ← kept]
          exact (getLsbD_setLed0_led1 led).symm
  | workStep =>
      intro tail led pc
      rw [Hw6.step, threadFunction, pc] at moved
      cases moved
      have shown : panel.next s .workStep =
          { panel with odd := some (decide (tail % 2 ≠ 0)) } := by
        simp only [Panel.next, pc]
      rw [shown] at after
      cases asked : panel.lit with
      | true =>
          have kept := after.led0 asked
          rw [before.led0 asked, ← kept]
          exact (getLsbD_descriptorLed_led0 tail led).symm
      | false =>
          have dark := inv.dark (by rw [pc]; rfl) asked
          rw [dark]
          by_contra on
          have stale := inv.held tail led pc (by simpa using on)
          rw [dark] at stale
          cases stale
  | _ => trivial

/-- **No LED update is lost.** In a run from rest in which only the driver writes
`LEDCTL`, the register shows what the updates made so far ask for at every
moment exactly when every write finds the other party's LED as it was when the
value to write was read. -/
theorem leds_shown_iff {s t : State} {trace : List (State × Label)} (rest : AtRest s)
    (run : Run step s trace t) (only : Meets NoPoke trace) :
    (∀ u ∈ watched Panel.next .blank trace t, u.2.Shown u.1.regs.ledctl) ↔
      Meets Fresh trace := by
  constructor
  · intro shown entry member
    rcases entry with ⟨a, l⟩
    obtain ⟨panel, b, before, moved, after⟩ := run.exists_watched (a, l) member
    have inv := run.invariant_watched (fun _ _ _ _ => PanelInv.step) only
      (PanelInv.of_atRest rest) _ before
    exact inv.fresh moved (shown _ before) (shown _ after)
  · intro fresh u member
    have start : ShownInv s .blank := by
      refine ⟨⟨nofun, nofun⟩, fun led pc => ?_⟩
      rw [rest.work] at pc
      cases pc
    have both := only.and fresh
    have inv := run.invariant_watched (fun _ _ _ _ inv ok => inv.step ok.1 ok.2) both start u member
    exact inv.shown

/-- An undisturbed interrupt and worker run up to the first descriptor. -/
theorem leds_shown_first_descriptor :
    ∃ t trace, Run step .afterProbe trace t ∧ t.regs.rdt0 = 0 ∧ t.work = .readTail ∧
      ∀ u ∈ watched Panel.next .blank trace t, u.2.Shown u.1.regs.ledctl := by
  obtain ⟨t, trace, run, -, checked⟩ := Run.of_exec_any
    (restrict (fun s l => NoPoke s l ∧ Fresh s l) step) .afterProbe
    (firstDescriptor ++ [.workStep])
    (fun t => t.regs.rdt0 = 0 ∧ t.work = .readTail) (by decide +kernel)
  obtain ⟨tail, work⟩ := checked
  obtain ⟨run, both⟩ := run.of_restrict
  exact ⟨t, trace, run, tail, work, (leds_shown_iff ⟨rfl, rfl⟩ run
    (both.mono fun _ _ ok => ok.1)).mpr (both.mono fun _ _ ok => ok.2)⟩

/-! ## Two lost updates -/

/-- A second interrupt arrives while the worker is about to write `LEDCTL` for
descriptor 0: it turns LED 0 on, and the worker's write turns it off again. -/
theorem led0_update_lost :
    ∃ t trace, Run step .afterProbe trace t ∧ Meets NoPoke trace ∧ Meets DeviceAssumed trace ∧
      ¬ ∀ u ∈ watched Panel.next .blank trace t, u.2.Shown u.1.regs.ledctl := by
  obtain ⟨⟨t, panel⟩, _, run, -, checked⟩ := Run.of_exec_any
    (observe Panel.next (restrict (fun s l => NoPoke s l ∧ DeviceAssumed s l) step))
    (.afterProbe, .blank)
    (firstDescriptor ++
      .receive .blank :: .interrupt :: List.replicate 5 .irqStep ++ [.workStep])
    (fun u => u.2.lit = true ∧ u.1.regs.ledctl.getLsbD led0 = false) (by decide +kernel)
  obtain ⟨lit, off⟩ := checked
  obtain ⟨trace, run, past⟩ := run.of_observe
  obtain ⟨run, both⟩ := run.of_restrict
  refine ⟨t, trace, run, both.mono fun _ _ ok => ok.1, both.mono fun _ _ ok => ok.2, ?_⟩
  intro shown
  have last := (shown _ (mem_watched_end _ _ _)).led0 (by rw [past]; exact lit)
  rw [off] at last
  cases last

/-- The worker writes `LEDCTL` for descriptor 1 while a second interrupt is about
to turn LED 0 on: LED 1 goes on, and the handler's write turns it off again. -/
theorem led1_update_lost :
    ∃ t trace, Run step .afterProbe trace t ∧ Meets NoPoke trace ∧ Meets DeviceAssumed trace ∧
      ¬ ∀ u ∈ watched Panel.next .blank trace t, u.2.Shown u.1.regs.ledctl := by
  obtain ⟨⟨t, panel⟩, _, run, -, checked⟩ := Run.of_exec_any
    (observe Panel.next (restrict (fun s l => NoPoke s l ∧ DeviceAssumed s l) step))
    (.afterProbe, .blank)
    (firstDescriptor ++ List.replicate 10 .workStep ++ .receive .blank ::
      .receive .blank :: .interrupt :: List.replicate 4 .irqStep ++ [.workStep, .irqStep])
    (fun u => u.2.odd = some true ∧ u.1.regs.ledctl.getLsbD led1 = false)
    (by decide +kernel)
  obtain ⟨odd, off⟩ := checked
  obtain ⟨trace, run, past⟩ := run.of_observe
  obtain ⟨run, both⟩ := run.of_restrict
  refine ⟨t, trace, run, both.mono fun _ _ ok => ok.1, both.mono fun _ _ ok => ok.2, ?_⟩
  intro shown
  have last := (shown _ (mem_watched_end _ _ _)).led1 true (by rw [past]; exact odd)
  rw [off] at last
  cases last

end BlinkDriver.Hw6
