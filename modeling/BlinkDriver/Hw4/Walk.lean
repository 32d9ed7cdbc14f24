import BlinkDriver.Hw6.Ring
import BlinkDriver.Lib.Account

/-!
# The LED walk beside the driver

`main` of HW4 maps the registers of the device into its process and stores to `LEDCTL`
and `RCTL` there, with nothing that keeps it apart from a driver of the same device. A
step of `step` is one access of the process or any step of the driver of HW6 and its
device.

`walk_beside_driver` says what comes of that: the driver hands its packets over as
without the process, the process ends after 52 accesses, and as long as the driver does
not change `LEDCTL` the LEDs are those of the walk and in the end as they were.
-/

namespace BlinkDriver.Hw4

open Hw6 Transition

/-- Program points of `main` from the mapping on, named after the access that comes
next; `load` and `store` are the two accesses of `*LED_addr = *LED_addr >> 8`. -/
inductive Pc where
  | saveLed
  | enable
  | logGprc
  | bothOn
  | allOff
  | outer (j : Nat)
  | load (j i : Nat)
  | store (j i : Nat) (led : U32)
  | logGprcAgain
  | done
  deriving DecidableEq

/-- The process: `LED_default` is live from the first access on. -/
structure Process where
  pc : Pc
  ledDefault : U32
  deriving DecidableEq

def Process.start : Process := ⟨.saveLed, 0⟩

/-- The next access. -/
def main (p : Process) (regs : Regs) : Option (Process × Regs) :=
  match p.pc with
  | .saveLed =>
      let (led, regs) := readl .ledctl regs
      some (⟨.enable, led⟩, regs)
  | .enable => some ({ p with pc := .logGprc }, writel 0x2 .rctl regs)
  | .logGprc => some ({ p with pc := .bothOn }, regs)
  | .bothOn => some ({ p with pc := .allOff }, writel 0x800080 .ledctl regs)
  | .allOff => some ({ p with pc := .outer 5 }, writel 0x000000 .ledctl regs)
  | .outer j =>
      if j > 0 then some ({ p with pc := .load j 4 }, writel 0x80000000 .ledctl regs)
      else some ({ p with pc := .logGprcAgain }, writel p.ledDefault .ledctl regs)
  | .load j i =>
      let (led, regs) := readl .ledctl regs
      some ({ p with pc := .store j i led }, regs)
  | .store j i led =>
      some ({ p with pc := if i - 1 > 0 then .load j (i - 1) else .outer (j - 1) },
        writel (led >>> 8) .ledctl regs)
  | .logGprcAgain => some ({ p with pc := .done }, regs)
  | .done => none

/-- The driver with its device, and the process. -/
abbrev System := Hw6.State × Process

inductive Label where
  | driver (l : Hw6.Label)
  | access

def step (s : System) : Label → Option System
  | .driver l => (Hw6.step s.1 l).map fun t => (t, s.2)
  | .access => (main s.2 s.1.regs).map fun next => ({ s.1 with regs := next.2 }, next.1)

/-! ## The accesses of the process -/

/-- The loop variables stay in their ranges. -/
def Pc.InRange : Pc → Prop
  | .outer j => j ≤ 5
  | .load j i | .store j i _ => 1 ≤ j ∧ j ≤ 5 ∧ 1 ≤ i ∧ i ≤ 4
  | _ => True

/-- The accesses to go. -/
def Pc.left : Pc → Nat
  | .saveLed => 52
  | .enable => 51
  | .logGprc => 50
  | .bothOn => 49
  | .allOff => 48
  | .outer j => 9 * j + 2
  | .load j i => 9 * (j - 1) + 2 * i + 2
  | .store j i _ => 9 * (j - 1) + 2 * i + 1
  | .logGprcAgain => 1
  | .done => 0

theorem main_left {p p' : Process} {regs regs' : Regs} (range : p.pc.InRange)
    (moved : main p regs = some (p', regs')) :
    p'.pc.InRange ∧ p'.pc.left + 1 = p.pc.left := by
  unfold main at moved
  split at moved
  case h_6 j pc =>
      rw [pc] at range ⊢
      split at moved
      · rename_i more
        cases moved
        refine ⟨⟨more, range, by decide, by decide⟩, ?_⟩
        simp only [Pc.left]
        omega
      · rename_i last
        cases moved
        refine ⟨trivial, ?_⟩
        simp only [Pc.left]
        omega
  case h_7 j i pc =>
      rw [pc] at range ⊢
      cases moved
      exact ⟨range, rfl⟩
  case h_8 j i led pc =>
      rw [pc] at range ⊢
      rcases range with ⟨jLow, jHigh, iLow, iHigh⟩
      cases moved
      dsimp only
      split
      · refine ⟨⟨jLow, jHigh, by omega, by omega⟩, ?_⟩
        simp only [Pc.left]
        omega
      · refine ⟨by simp only [Pc.InRange]; omega, ?_⟩
        simp only [Pc.left]
        omega
  case h_5 pc =>
      rw [pc]
      cases moved
      exact ⟨le_refl 5, rfl⟩
  case h_10 => cases moved
  all_goals
    rename_i pc
    rw [pc]
    cases moved
    exact ⟨trivial, rfl⟩

/-- The process goes on until it is done. -/
theorem main_enabled {p : Process} (regs : Regs) (going : p.pc ≠ .done) :
    ∃ next, main p regs = some next := by
  unfold main
  split
  case h_6 => split <;> exact ⟨_, rfl⟩
  case h_10 pc => exact (going pc).elim
  all_goals exact ⟨_, rfl⟩

/-- The ring is not among the registers it writes. -/
theorem main_kept {s : Hw6.State} {p p' : Process} {regs : Regs}
    (moved : main p s.regs = some (p', regs)) : RingKept s { s with regs } := by
  unfold main at moved
  split at moved
  case h_6 => split at moved <;> cases moved <;> exact ⟨rfl, rfl, rfl, rfl, rfl⟩
  case h_10 => cases moved
  all_goals
    cases moved
    exact ⟨rfl, rfl, rfl, rfl, rfl⟩

/-! ## The LEDs of the walk -/

/-- `LEDCTL` in turn `i` of the inner loop, in which LED `i - 1` is on. -/
def frame (i : Nat) : U32 := 0x80000000 >>> (8 * (4 - i))

/-- `LEDCTL` at a program point, if nobody else writes it and it was `led` at first. -/
def Pc.shows (led : U32) : Pc → U32
  | .saveLed | .enable | .logGprc | .bothOn => led
  | .allOff => 0x800080
  | .outer _ => 0
  | .load _ i | .store _ i _ => frame i
  | .logGprcAgain | .done => led

theorem frame_shift {i : Nat} (low : 1 ≤ i) (high : i ≤ 4) :
    frame i >>> 8 = if i - 1 > 0 then frame (i - 1) else 0 := by
  interval_cases i <;> rfl

/-- The register is as the walk has it, and so is what the process has read. -/
structure Walking (led : U32) (s : System) : Prop where
  range : s.2.pc.InRange
  shown : s.1.regs.ledctl = s.2.pc.shows led
  default : s.2.pc ≠ .saveLed → s.2.ledDefault = led
  held : ∀ j i v, s.2.pc = .store j i v → v = frame i

theorem Walking.access {led : U32} {s t : System} (walking : Walking led s)
    (moved : step s .access = some t) : Walking led t := by
  rcases Option.map_eq_some_iff.mp moved with ⟨⟨p, regs⟩, accessed, rfl⟩
  have range := (main_left walking.range accessed).1
  have shown := walking.shown
  have before := walking.range
  unfold main at accessed
  split at accessed
  case h_1 pc =>
      rw [pc] at shown
      cases accessed
      exact ⟨range, shown, fun _ => shown, nofun⟩
  case h_6 j pc =>
      split at accessed
      · cases accessed
        exact ⟨range, rfl, fun _ => walking.default (by rw [pc]; nofun), nofun⟩
      · cases accessed
        have default := walking.default (by rw [pc]; nofun)
        exact ⟨range, default, fun _ => default, nofun⟩
  case h_7 j i pc =>
      rw [pc] at shown
      cases accessed
      refine ⟨range, shown, fun _ => walking.default (by rw [pc]; nofun), ?_⟩
      intro j' i' v same
      cases same
      exact shown
  case h_8 j i v pc =>
      rw [pc] at before
      have turn := frame_shift before.2.2.1 before.2.2.2
      have own : v = frame i := walking.held j i v pc
      have default := walking.default (by rw [pc]; nofun)
      cases accessed
      subst own
      refine ⟨range, ?_, fun _ => default, ?_⟩
      · change frame i >>> 8 = _
        rw [turn]
        dsimp only
        split <;> rfl
      · intro j' i' v same
        dsimp only at same
        split at same <;> cases same
  case h_10 => cases accessed
  case h_2 pc | h_3 pc | h_9 pc =>
      rw [pc] at shown
      cases accessed
      exact ⟨range, shown, fun _ => walking.default (by rw [pc]; nofun), nofun⟩
  case h_4 pc | h_5 pc =>
      cases accessed
      exact ⟨range, rfl, fun _ => walking.default (by rw [pc]; nofun), nofun⟩

/-! ## Beside the driver -/

/-- A step of the driver leaves `LEDCTL` alone. -/
def KeepsLed (s : System) : Label → Prop
  | .driver l => ∀ u, Hw6.step s.1 l = some u → u.regs.ledctl = s.1.regs.ledctl
  | .access => True

instance (s : System) : ∀ l, Decidable (KeepsLed s l)
  | .driver l =>
      decidable_of_iff (∀ u ∈ Hw6.step s.1 l, u.regs.ledctl = s.1.regs.ledctl) Iff.rfl
  | .access => .isTrue trivial

/-- The accesses of the process. -/
def accesses (_ : System) : Label → Nat
  | .driver _ => 0
  | .access => 1

theorem Walking.step {led : U32} {s t : System} {l : Label} (walking : Walking led s)
    (keeps : KeepsLed s l) (moved : Hw4.step s l = some t) : Walking led t := by
  cases l with
  | driver l =>
      rcases Option.map_eq_some_iff.mp moved with ⟨u, driven, rfl⟩
      refine ⟨walking.range, ?_, walking.default, walking.held⟩
      rw [keeps u driven]
      exact walking.shown
  | access => exact walking.access moved

/-- The ring is in some position of producer and consumer. -/
def OnRing (s : System) : Prop := ∃ w, RingInv s.1 w

/-- A step of either keeps the ring. -/
theorem OnRing.step {s t : System} {l : Label} (ring : OnRing s) (moved : step s l = some t) :
    OnRing t := by
  rcases ring with ⟨w, inv⟩
  cases l with
  | driver l =>
      rcases Option.map_eq_some_iff.mp moved with ⟨u, driven, rfl⟩
      rcases inv.step (.of_step driven) with ⟨w', -, inv'⟩
      exact ⟨w', inv'⟩
  | access =>
      rcases Option.map_eq_some_iff.mp moved with ⟨next, accessed, rfl⟩
      exact ⟨w, inv.frame (main_kept accessed) rfl⟩

/-- Every step of the process is one of those it has to go. -/
theorem left_step {s t : System} {l : Label} (range : s.2.pc.InRange) (moved : step s l = some t) :
    t.2.pc.InRange ∧ accesses s l + t.2.pc.left = s.2.pc.left := by
  cases l with
  | driver l =>
      rcases Option.map_eq_some_iff.mp moved with ⟨u, driven, rfl⟩
      exact ⟨range, Nat.zero_add _⟩
  | access =>
      rcases Option.map_eq_some_iff.mp moved with ⟨next, accessed, rfl⟩
      rcases main_left range accessed with ⟨range', less⟩
      exact ⟨range', (Nat.add_comm ..).trans less⟩

section Beside

variable {s : Hw6.State} {t : System} {trace : List (System × Label)}

theorem onRing_of_run (start : RingSetUp s) (run : Run step (s, .start) trace t) : OnRing t :=
  run.invariant (fun _ _ _ ring _ moved => OnRing.step ring moved) run.meets_true ⟨_, start.inv⟩

/-- **The walk beside the driver.** In every run of the driver and its device with the
process, in any order: what the worker printed is a prefix of what the device completed,
which fills the slots in order. The process has made 52 accesses less those it has to
go, and can go on until none is left. And if the steps of the driver have left `LEDCTL`
alone, it is as the walk has it: as at first before the walk and after it. -/
theorem walk_beside_driver (start : RingSetUp s) (run : Run step (s, .start) trace t) :
    (t.1.processed <+: t.1.completed.map printed ∧
      ∀ k, ∀ h : k < t.1.completed.length, t.1.completed[k].1 = k % 16) ∧
    (total accesses trace + t.2.pc.left = 52 ∧
      (t.2.pc ≠ .done → ∃ u, step t .access = some u)) ∧
    (Meets KeepsLed trace → t.1.regs.ledctl = t.2.pc.shows s.regs.ledctl) := by
  refine ⟨?_, ⟨?_, fun going => ?_⟩, fun keeps => ?_⟩
  · rcases onRing_of_run start run with ⟨w, inv⟩
    rw [inv.processed]
    exact ⟨(List.take_prefix _ _).map _, inv.order⟩
  · have account := run.account (fun s => s.2.pc.left) accesses (fun _ _ => 0)
      (fun _ _ _ range _ moved => (left_step range moved).1)
      (fun _ _ _ range _ moved => (left_step range moved).2) run.meets_true trivial
    rw [total_zero (fun _ _ _ => rfl) run.meets_true] at account
    exact account
  · rcases main_enabled t.1.regs going with ⟨next, accessed⟩
    exact ⟨_, Option.map_eq_some_iff.mpr ⟨next, accessed, rfl⟩⟩
  · have walking : Walking s.regs.ledctl (s, .start) :=
      ⟨trivial, rfl, fun past => (past rfl).elim, nofun⟩
    exact (run.invariant (fun _ _ _ walking keeps moved => walking.step keeps moved) keeps
      walking).shown

end Beside

/-- The whole walk, with a packet after every seventh access. -/
theorem walk_beside_driver_seven_packets :
    ∃ t trace, Run step (.afterProbe, .start) trace t ∧ t.1.completed.length = 7 ∧
      total accesses trace = 52 ∧ t.1.regs.ledctl = 0x800000 := by
  obtain ⟨t, trace, run, -, finished, received⟩ := Run.of_exec_any
    (restrict KeepsLed step) (.afterProbe, .start)
    ((List.replicate 7 (.driver (.receive .blank) :: List.replicate 7 .access)).flatten ++
      List.replicate 3 .access)
    (fun t => t.2.pc = .done ∧ t.1.completed.length = 7) (by decide +kernel)
  rcases run.of_restrict with ⟨run, keeps⟩
  rcases walk_beside_driver ⟨rfl, rfl, rfl, rfl, rfl⟩ run with ⟨-, ⟨account, -⟩, shown⟩
  refine ⟨t, trace, run, received, ?_, ?_⟩
  · rw [finished] at account
    exact account
  · rw [shown keeps, finished]
    rfl

end BlinkDriver.Hw4
