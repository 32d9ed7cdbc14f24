import BlinkDriver.Hw6.LedRace
import BlinkDriver.LedMon.Display

/-!
# The driver under the monitor

`ledmon` maps the registers of the device that the driver of HW6 blinks, and reads
`LEDCTL` whenever it likes. `monitor_shows_iff` is about every such moment of every run
in which only the driver writes the register and no update is lost: the line that is
printed shows LED 0 as the handler and the worker left it, LED 1 as the parity of the
last descriptor and LED 2 on, exactly if the monitor takes the link for neither a 10
nor a 1000 Mb/s one. The driver leaves every LED in the mode `LINK_10K`, and at these
two speeds the monitor shows it inverted.
-/

namespace BlinkDriver.Hw6

open Transition LedMon

/-- The four LEDs while LED 0 is as `lit` and LED 1 as `odd` says; LED 2 is on since
probe. -/
def shownLeds (lit odd : Bool) : Leds := ⟨lit, odd, true, false⟩

/-- The value of `LEDCTL` then. -/
def shownLedctl (lit odd : Bool) : U32 :=
  (if lit then 0x80 else 0) ||| (if odd then 0x8000 else 0) ||| 0x800000

def Panel.leds (panel : Panel) : Leds := shownLeds panel.lit (panel.odd == some true)

def Panel.ledctl (panel : Panel) : U32 := shownLedctl panel.lit (panel.odd == some true)

/-! ## Updates from the register or from a value read before -/

/-- A value that is as in the register but for LED 0. -/
theorem setLed0_congr {x y : U32} (agree : AgreeExcept led0 x y) :
    (0x80 ||| x : U32) = 0x80 ||| y := by
  apply BitVec.eq_of_getLsbD_eq
  intro j _
  rw [getLsbD_setLed0, getLsbD_setLed0]
  by_cases own : j = led0
  · rw [decide_eq_true own, Bool.true_or, Bool.true_or]
  · rw [agree j own]

theorem clearLed0_congr {x y : U32} (agree : AgreeExcept led0 x y) :
    (0xFFFFFF7F &&& x : U32) = 0xFFFFFF7F &&& y := by
  apply BitVec.eq_of_getLsbD_eq
  intro j _
  rw [getLsbD_clearLed0, getLsbD_clearLed0]
  by_cases own : j = led0
  · simp [own]
  · rw [agree j own]

/-- A value that is as in the register but for LED 1. -/
theorem descriptorLed_congr {x y : U32} (agree : AgreeExcept led1 x y) (tail : U32) :
    descriptorLed tail x = descriptorLed tail y := by
  apply BitVec.eq_of_getLsbD_eq
  intro j _
  by_cases own : j = led1
  · rw [own, getLsbD_descriptorLed_led1, getLsbD_descriptorLed_led1]
  · unfold descriptorLed
    split
    · rw [getLsbD_clearLed1, getLsbD_clearLed1, agree j own]
    · rw [getLsbD_setLed1, getLsbD_setLed1, agree j own]

theorem AgreeOnOthers.except_led0 {x y : U32} (agree : AgreeOnOthers x y)
    (same : x.getLsbD led1 = y.getLsbD led1) : AgreeExcept led0 x y := by
  intro j other
  by_cases own : j = led1
  · rw [own, same]
  · exact agree j other own

theorem AgreeOnOthers.except_led1 {x y : U32} (agree : AgreeOnOthers x y)
    (same : x.getLsbD led0 = y.getLsbD led0) : AgreeExcept led1 x y := by
  intro j other
  by_cases own : j = led0
  · rw [own, same]
  · exact agree j own other

/-! ## The value of the register -/

theorem setLed0_shownLedctl : ∀ lit odd, (0x80 ||| shownLedctl lit odd : U32) =
    shownLedctl true odd := by
  decide

theorem clearLed0_shownLedctl : ∀ lit odd, (0xFFFFFF7F &&& shownLedctl lit odd : U32) =
    shownLedctl false odd := by
  decide

theorem descriptorLed_shownLedctl (tail : U32) (lit odd : Bool) :
    descriptorLed tail (shownLedctl lit odd) = shownLedctl lit (decide (tail % 2 ≠ 0)) := by
  have cleared : ∀ lit odd, (0xFFF7FFF &&& shownLedctl lit odd : U32) = shownLedctl lit false := by
    decide
  have set : ∀ lit odd, (0x8000 ||| shownLedctl lit odd : U32) = shownLedctl lit true := by decide
  unfold descriptorLed
  split
  · rename_i even
    rw [cleared, decide_eq_false (not_not.mpr even)]
  · rename_i odd
    rw [set, decide_eq_true odd]

theorem shownLedctl_lt : ∀ lit odd, (shownLedctl lit odd).toNat < 2 ^ 28 := by decide

/-- The register has the panel's value, and what a party has read and not yet written
back differs from it in the other party's LED at most. -/
structure Displayed (s : State) (panel : Panel) : Prop where
  register : s.regs.ledctl = panel.ledctl
  others : HeldOthers s
  off : ∀ led, s.work = .writeLedOff led → led.getLsbD led1 = s.regs.ledctl.getLsbD led1

/-- The four highest bits are clear in everything that is held. -/
theorem Displayed.highBitsClear {s : State} {panel : Panel} (inv : Displayed s panel) (l : Label) :
    HighBitsClear s l := by
  cases l with
  | workStep =>
      intro tail led pc _
      apply Nat.lt_pow_two_of_testBit
      intro j high
      have bound : panel.ledctl.toNat < 2 ^ j :=
        (shownLedctl_lt _ _).trans_le (Nat.pow_le_pow_right (by decide) high)
      have same := inv.others.descriptor tail led pc j (by simp only [led0]; omega)
        (by simp only [led1]; omega)
      rw [BitVec.testBit_toNat, same, inv.register]
      exact Nat.testBit_lt_two_pow bound
  | _ => trivial

theorem Displayed.step {s t : State} {l : Label} {panel : Panel} (inv : Displayed s panel)
    (only : NoPoke s l) (fresh : Fresh s l) (moved : step s l = some t) :
    Displayed t (panel.next s l) := by
  have others := inv.others.step (inv.highBitsClear l) moved
  cases LedStep.of_step only (.of_step moved) with
  | keep ledctl same irq off past =>
      rw [same]
      refine ⟨by rw [ledctl]; exact inv.register, others, fun led pc => ?_⟩
      rw [ledctl]
      rcases off led pc with before | rfl
      · exact inv.off led before
      · rfl
  | @on irqMask led pc =>
      have lit : panel.next s .irqStep = { panel with lit := true } := by
        simp only [Panel.next, pc]
      have agree := (inv.others.irq irqMask led pc).except_led0 (fresh irqMask led pc)
      have value : (0x80 ||| led : U32) = ({ panel with lit := true } : Panel).ledctl := by
        rw [setLed0_congr agree, inv.register]
        exact setLed0_shownLedctl _ _
      rw [lit]
      refine ⟨value, others, fun held target => ?_⟩
      rw [inv.off held target, getLsbD_setLed0_led1]
      exact (fresh irqMask led pc).symm
  | @off led pc =>
      have unlit : panel.next s .workStep = { panel with lit := false } := by
        simp only [Panel.next, pc]
      have agree := (inv.others.off led pc).except_led0 (inv.off led pc)
      have value : (0xFFFFFF7F &&& led : U32) = ({ panel with lit := false } : Panel).ledctl := by
        rw [clearLed0_congr agree, inv.register]
        exact clearLed0_shownLedctl _ _
      rw [unlit]
      refine ⟨value, others, fun held target => ?_⟩
      cases target
  | @descriptor tail led pc =>
      have shown : panel.next s .workStep =
          { panel with odd := some (decide (tail % 2 ≠ 0)) } := by
        simp only [Panel.next, pc]
      have agree := (inv.others.descriptor tail led pc).except_led1 (fresh tail led pc)
      have value : descriptorLed tail led =
          ({ panel with odd := some (decide (tail % 2 ≠ 0)) } : Panel).ledctl := by
        rw [descriptorLed_congr agree, inv.register, Panel.ledctl, descriptorLed_shownLedctl]
        cases decide (tail % 2 ≠ 0) <;> rfl
      rw [shown]
      refine ⟨value, others, fun held target => ?_⟩
      cases target

end BlinkDriver.Hw6
