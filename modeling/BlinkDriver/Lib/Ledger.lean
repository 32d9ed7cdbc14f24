import Mathlib.Logic.Function.Basic

/-!
# A ledger of acquisitions and releases

For every resource the ledger counts how often it is held at present and how
often it has been released, and it counts the releases of what was not held.
-/

variable {R : Type*}

structure Ledger (R : Type*) where
  held : R → Nat
  released : R → Nat
  stray : Nat

namespace Ledger

/-- Nothing has been acquired. -/
def empty : Ledger R := ⟨fun _ => 0, fun _ => 0, 0⟩

/-- Nothing is held. -/
def Empty (l : Ledger R) : Prop := ∀ r, l.held r = 0

variable [DecidableEq R]

def acquire (r : R) (l : Ledger R) : Ledger R :=
  { l with held := Function.update l.held r (l.held r + 1) }

/-- Releasing what is not held changes nothing but the count of such releases. -/
def release (r : R) (l : Ledger R) : Ledger R :=
  if l.held r = 0 then { l with stray := l.stray + 1 }
  else
    { l with
      held := Function.update l.held r (l.held r - 1)
      released := Function.update l.released r (l.released r + 1) }

@[simp] theorem acquire_held_self (r : R) (l : Ledger R) : (l.acquire r).held r = l.held r + 1 :=
  Function.update_self ..

theorem acquire_held_of_ne {r q : R} (l : Ledger R) (other : q ≠ r) :
    (l.acquire r).held q = l.held q :=
  Function.update_of_ne other ..

/-- An acquisition never lowers a count. -/
theorem le_acquire_held (r q : R) (l : Ledger R) : l.held q ≤ (l.acquire r).held q := by
  by_cases same : q = r
  · subst same
    rw [acquire_held_self]
    exact Nat.le_succ _
  · exact Nat.le_of_eq (acquire_held_of_ne l same).symm

@[simp] theorem release_held_self (r : R) (l : Ledger R) :
    (l.release r).held r = l.held r - 1 := by
  unfold release
  split
  · rename_i none
    dsimp only
    rw [none]
  · exact Function.update_self ..

theorem release_held_of_ne {r q : R} (l : Ledger R) (other : q ≠ r) :
    (l.release r).held q = l.held q := by
  unfold release
  split
  · rfl
  · exact Function.update_of_ne other ..

/-- A release never raises a count. -/
theorem release_held_le (r q : R) (l : Ledger R) : (l.release r).held q ≤ l.held q := by
  by_cases same : q = r
  · subst same
    rw [release_held_self]
    exact Nat.sub_le ..
  · exact Nat.le_of_eq (release_held_of_ne l same)

theorem release_released_of_ne {r q : R} (l : Ledger R) (other : q ≠ r) :
    (l.release r).released q = l.released q := by
  unfold release
  split
  · rfl
  · exact Function.update_of_ne other ..

theorem acquire_held (r q : R) (l : Ledger R) :
    (l.acquire r).held q = if q = r then l.held q + 1 else l.held q := by
  split
  · rename_i same
    rw [same, acquire_held_self]
  · rename_i other
    exact acquire_held_of_ne l other

theorem release_held (r q : R) (l : Ledger R) :
    (l.release r).held q = if q = r then l.held q - 1 else l.held q := by
  split
  · rename_i same
    rw [same, release_held_self]
  · rename_i other
    exact release_held_of_ne l other

/-- A release takes an acquisition back. -/
theorem release_acquire_held (r : R) (l : Ledger R) :
    ((l.acquire r).release r).held = l.held := by
  funext q
  rw [release_held, acquire_held]
  split
  · exact Nat.add_sub_cancel ..
  · rfl

@[simp] theorem acquire_stray (r : R) (l : Ledger R) : (l.acquire r).stray = l.stray := rfl

/-- Only a release of what is not held is counted as such. -/
theorem release_stray (r : R) (l : Ledger R) :
    (l.release r).stray = if l.held r = 0 then l.stray + 1 else l.stray := by
  unfold release
  split <;> rfl

end Ledger
