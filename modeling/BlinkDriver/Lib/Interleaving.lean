import BlinkDriver.Lib.Transition
import Mathlib.Logic.Function.Basic

/-!
# Calls that interleave on shared globals

Any number of calls of a program run at once. Each has its own local state, all
of them share the globals, and one step of the system is one access by one of
them, chosen by the scheduler; the outcome of an access that can fail is part of
the choice. A finished call stays in its slot, so a statement about what a call
has done is a statement about the state.

* `Program.invariant` proves facts about the globals and about each call from
  one access at a time.
* `Program.persists` follows a single call through everybody's steps.
-/

namespace Interleaving

open Transition

variable {Γ κ α ω ε : Type*}

/-- A program: the local state a call with the given arguments starts in, the
next access of a call, and what the surroundings may do to the globals. -/
structure Program (Γ κ α ω ε : Type*) where
  start : α → κ
  move : ω → Γ → κ → Option (Γ × κ)
  env : ε → Γ → Γ

/-- The globals, and the calls made so far by their slots. -/
structure State (Γ κ : Type*) where
  globals : Γ
  calls : Nat → Option κ

/-- No call has been made. -/
def State.idle (g : Γ) : State Γ κ := ⟨g, fun _ => none⟩

/-- New globals, and a new local state in slot `i`. -/
def State.put (s : State Γ κ) (g : Γ) (i : Nat) (k : κ) : State Γ κ :=
  ⟨g, Function.update s.calls i (some k)⟩

@[simp] theorem State.put_globals (s : State Γ κ) (g : Γ) (i : Nat) (k : κ) :
    (s.put g i k).globals = g := rfl

@[simp] theorem State.put_calls_self (s : State Γ κ) (g : Γ) (i : Nat) (k : κ) :
    (s.put g i k).calls i = some k :=
  Function.update_self ..

theorem State.put_calls_of_ne (s : State Γ κ) (g : Γ) {i j : Nat} (k : κ) (other : j ≠ i) :
    (s.put g i k).calls j = s.calls j :=
  Function.update_of_ne other ..

/-- A call that is there after the change is the new one or was there before. -/
theorem State.eq_or_of_put {s : State Γ κ} {g : Γ} {i j : Nat} {k m : κ}
    (slot : (s.put g i k).calls j = some m) : m = k ∨ s.calls j = some m := by
  by_cases same : j = i
  · subst same
    rw [put_calls_self] at slot
    exact Or.inl (Option.some.inj slot).symm
  · rw [put_calls_of_ne s g k same] at slot
    exact Or.inr slot

/-- Who moves: a call begins, a call makes its next access, or the surroundings
act. -/
inductive Label (α ω ε : Type*) where
  | start (i : Nat) (arg : α)
  | move (i : Nat) (outcome : ω)
  | env (e : ε)

namespace Program

variable (p : Program Γ κ α ω ε)

def step (s : State Γ κ) : Label α ω ε → Option (State Γ κ)
  | .start i arg =>
      match s.calls i with
      | none => some (s.put s.globals i (p.start arg))
      | some _ => none
  | .move i outcome =>
      (s.calls i).bind fun k =>
        (p.move outcome s.globals k).map fun next => s.put next.1 i next.2
  | .env e => some { s with globals := p.env e s.globals }

/-- What one step can do. -/
inductive Step (s : State Γ κ) : Label α ω ε → State Γ κ → Prop
  | start {i : Nat} {arg : α} (vacant : s.calls i = none) :
      Step s (.start i arg) (s.put s.globals i (p.start arg))
  | move {i : Nat} {outcome : ω} {k k' : κ} {g' : Γ} (running : s.calls i = some k)
      (access : p.move outcome s.globals k = some (g', k')) :
      Step s (.move i outcome) (s.put g' i k')
  | env {e : ε} : Step s (.env e) { s with globals := p.env e s.globals }

variable {p}

theorem Step.of_step {s t : State Γ κ} {l : Label α ω ε} (moved : p.step s l = some t) :
    p.Step s l t := by
  cases l with
  | start i arg =>
      simp only [step] at moved
      split at moved
      · rename_i vacant
        cases moved
        exact .start vacant
      · cases moved
  | move i outcome =>
      obtain ⟨k, running, rest⟩ := Option.bind_eq_some_iff.mp moved
      obtain ⟨⟨g', k'⟩, access, rfl⟩ := Option.map_eq_some_iff.mp rest
      exact .move running access
  | env e =>
      cases moved
      exact .env

/-- A fact about the globals and a fact about every call. -/
structure Keeps (G : Γ → Prop) (P : κ → Prop) (s : State Γ κ) : Prop where
  globals : G s.globals
  calls : ∀ i k, s.calls i = some k → P k

theorem Keeps.idle {G : Γ → Prop} {P : κ → Prop} {g : Γ} (start : G g) :
    Keeps G P (.idle g) :=
  ⟨start, nofun⟩

/-- **One access at a time.** What an access of one call preserves of the globals
and establishes for that call holds throughout every run, however the calls
interleave. -/
theorem invariant {G : Γ → Prop} {P : κ → Prop} {ok : State Γ κ → Label α ω ε → Prop}
    (start : ∀ arg, P (p.start arg))
    (move : ∀ (s : State Γ κ) i outcome k g' k', ok s (.move i outcome) → s.calls i = some k →
      G s.globals → P k → p.move outcome s.globals k = some (g', k') → G g' ∧ P k')
    (env : ∀ e g, G g → G (p.env e g))
    {s t : State Γ κ} {trace : List (State Γ κ × Label α ω ε)}
    (run : Run p.step s trace t) (meets : Meets ok trace) (first : Keeps G P s) :
    Keeps G P t := by
  refine run.invariant ?_ meets first
  intro a l b inv allowed moved
  cases Step.of_step moved with
  | @start i arg vacant =>
      refine ⟨inv.globals, fun j k slot => ?_⟩
      rcases State.eq_or_of_put slot with rfl | before
      · exact start arg
      · exact inv.calls j k before
  | @move i outcome k k' g' running access =>
      obtain ⟨globals, own⟩ :=
        move a i outcome k g' k' allowed running inv.globals (inv.calls i k running) access
      refine ⟨globals, fun j m slot => ?_⟩
      rcases State.eq_or_of_put slot with rfl | before
      · exact own
      · exact inv.calls j m before
  | env => exact ⟨env _ _ inv.globals, inv.calls⟩

/-- A fact about one call that its own accesses preserve, whatever the globals
are, stays true of it. -/
theorem persists {Q : κ → Prop}
    (move : ∀ outcome g k g' k', Q k → p.move outcome g k = some (g', k') → Q k')
    {s t : State Γ κ} {trace : List (State Γ κ × Label α ω ε)} (run : Run p.step s trace t)
    {i : Nat} (first : ∃ k, s.calls i = some k ∧ Q k) : ∃ k, t.calls i = some k ∧ Q k := by
  induction run with
  | refl => exact first
  | snoc _ edge ih =>
      obtain ⟨k, slot, holds⟩ := ih
      cases Step.of_step edge with
      | @start j arg vacant =>
          refine ⟨k, ?_, holds⟩
          have other : i ≠ j := by
            intro same
            subst same
            rw [vacant] at slot
            cases slot
          exact (State.put_calls_of_ne _ _ _ other).trans slot
      | @move j outcome m m' g' running access =>
          by_cases same : i = j
          · subst same
            rw [running] at slot
            cases slot
            exact ⟨m', State.put_calls_self .., move _ _ _ _ _ holds access⟩
          · exact ⟨k, (State.put_calls_of_ne _ _ _ same).trans slot, holds⟩
      | env => exact ⟨k, slot, holds⟩

/-! ## Admissible arguments -/

/-- The program whose calls are given admissible arguments only. -/
def limit (p : Program Γ κ α ω ε) (ok : α → Prop) : Program Γ κ {arg : α // ok arg} ω ε where
  start arg := p.start arg.val
  move := p.move
  env := p.env

theorem run_of_limit {ok : α → Prop} {s t : State Γ κ}
    {trace : List (State Γ κ × Label {arg : α // ok arg} ω ε)}
    (run : Run (p.limit ok).step s trace t) : ∃ trace, Run p.step s trace t := by
  induction run with
  | refl => exact ⟨[], .refl⟩
  | @snoc _ a b l _ edge ih =>
      obtain ⟨front, run⟩ := ih
      have moved : ∃ l, p.step a l = some b := by
        cases l with
        | start i arg => exact ⟨.start i arg.val, edge⟩
        | move i outcome => exact ⟨.move i outcome, edge⟩
        | env e => exact ⟨.env e, edge⟩
      obtain ⟨_, moved⟩ := moved
      exact ⟨_, run.snoc moved⟩

end Program

end Interleaving
