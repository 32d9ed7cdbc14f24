import Mathlib.Data.Option.Basic

/-!
# A timer that calls back

A timer is initialised, armed with a delay and deleted by anybody; when it fires
it is no longer armed and its callback begins. Deleting it does not wait for a
callback that has begun. Initialising an armed timer forgets that it is armed but
leaves its entry in the queue of pending timers: such a stale entry can no longer
be deleted, and may still fire.

* `Quiet` says that nothing can make the callback begin.
* `Alive` says of a timer whose callback arms it again that the chain of
  callbacks goes on: an entry is pending, or a callback has yet to arm.
-/

structure Timer (δ : Type*) where
  setups : Nat
  armed : Option δ
  stale : Nat
  deriving DecidableEq

namespace Timer

variable {δ : Type*}

/-- A timer that has not been initialised. -/
def blank : Timer δ := ⟨0, none, 0⟩

def setup (t : Timer δ) : Timer δ := ⟨t.setups + 1, none, t.stale + t.armed.isSome.toNat⟩

def modify (delay : δ) (t : Timer δ) : Timer δ := { t with armed := some delay }

def delete (t : Timer δ) : Timer δ := { t with armed := none }

/-- A new timer takes the place of this one, whose entries stay in the queue. -/
def renew (t : Timer δ) : Timer δ := { t.setup with setups := 0 }

/-- What an expiry takes from the queue. -/
inductive Entry where
  | current
  | stale
  deriving DecidableEq

def fire (t : Timer δ) : Entry → Option (Timer δ)
  | .current => if t.armed.isSome then some { t with armed := none } else none
  | .stale => if t.stale = 0 then none else some { t with stale := t.stale - 1 }

/-- The queue has no entry of the timer. -/
def Quiet (t : Timer δ) : Prop := t.armed = none ∧ t.stale = 0

instance [DecidableEq δ] (t : Timer δ) : Decidable t.Quiet := inferInstanceAs (Decidable (_ ∧ _))

/-- The timer is armed, or a callback is `due` to arm it. -/
def Alive (t : Timer δ) (due : Prop) : Prop := t.armed.isSome ∨ due

theorem quiet_blank : (blank : Timer δ).Quiet := ⟨rfl, rfl⟩

theorem Quiet.setup {t : Timer δ} (quiet : t.Quiet) : t.setup.Quiet := by
  refine ⟨rfl, ?_⟩
  simp only [Timer.setup, quiet.1, quiet.2, Option.isSome_none, Bool.toNat_false]

theorem Quiet.renew {t : Timer δ} (quiet : t.Quiet) : t.renew.Quiet := quiet.setup

theorem quiet_delete {t : Timer δ} (stale : t.stale = 0) : t.delete.Quiet := ⟨rfl, stale⟩

/-- Nothing fires of a quiet timer. -/
theorem Quiet.fire {t : Timer δ} (quiet : t.Quiet) (entry : Entry) : t.fire entry = none := by
  cases entry with
  | current => simp only [Timer.fire, quiet.1, Option.isSome_none, Bool.false_eq_true, if_false]
  | stale => exact if_pos quiet.2

/-- What a firing timer becomes. -/
theorem fire_cases {t u : Timer δ} {entry : Entry} (fired : t.fire entry = some u) :
    (entry = .current ∧ t.armed.isSome ∧ u = { t with armed := none }) ∨
      (entry = .stale ∧ t.stale ≠ 0 ∧ u = { t with stale := t.stale - 1 }) := by
  cases entry with
  | current =>
      simp only [fire] at fired
      split at fired
      · rename_i armed
        cases fired
        exact Or.inl ⟨rfl, armed, rfl⟩
      · cases fired
  | stale =>
      simp only [fire] at fired
      split at fired
      · cases fired
      · rename_i pending
        cases fired
        exact Or.inr ⟨rfl, pending, rfl⟩

end Timer
