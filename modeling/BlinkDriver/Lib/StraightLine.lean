import BlinkDriver.Lib.Transition
import Mathlib.Data.List.Induction

/-!
# A straight-line program beside an environment

A program is a list of operations, each of which takes one step; between any two
of them the environment may take steps of its own. What is known before an
operation is a value `k` of some finite domain: `learn` computes what is known
after it, and `ok` is what must be known for the program and the environment not
to disturb each other. `known_of_run` says that a program whose every operation
is checked in this way keeps what is known true in every state.
-/

namespace StraightLine

open Transition

variable {ι κ σ ε : Type*}

section System

variable (perform : ι → σ → σ) (disturb : ε → σ → Option σ)

/-- The next operation of the program, or a step of the environment. -/
def step (s : σ × List ι) : Option ε → Option (σ × List ι)
  | none =>
      match s.2 with
      | [] => none
      | op :: rest => some (perform op s.1, rest)
  | some e => (disturb e s.1).map fun t => (t, s.2)

variable (learn : ι → κ → κ) (ok : κ → Bool)

/-- What is known before each operation, and at the end, passes the check. -/
def checked : List ι → κ → Bool
  | [], k => ok k
  | op :: rest, k => ok k && checked rest (learn op k)

/-- What is known after a list of operations. -/
def learned (done : List ι) (k : κ) : κ := done.foldl (fun k op => learn op k) k

end System

variable {perform : ι → σ → σ} {disturb : ε → σ → Option σ} {learn : ι → κ → κ} {ok : κ → Bool}

theorem ok_of_checked {program : List ι} {k : κ} (passes : checked learn ok program k = true) :
    ok k = true := by
  cases program with
  | nil => exact passes
  | cons op rest => exact (Bool.and_eq_true_iff.mp passes).1

theorem checked_append {done rest : List ι} {k : κ}
    (passes : checked learn ok (done ++ rest) k = true) :
    checked learn ok rest (learned learn done k) = true := by
  induction done generalizing k with
  | nil => exact passes
  | cons op done ih => exact ih (Bool.and_eq_true_iff.mp passes).2

theorem learned_snoc (done : List ι) (op : ι) (k : κ) :
    learned learn (done ++ [op]) k = learn op (learned learn done k) := by
  simp [learned]

/-- What an operation teaches and no later one takes back is known ever after. -/
theorem learned_of_mem {P : κ → Prop} {op : ι} (teaches : ∀ k, P (learn op k))
    (keeps : ∀ op k, P k → P (learn op k)) {done : List ι} (executed : op ∈ done) (k : κ) :
    P (learned learn done k) := by
  induction done using List.reverseRecOn with
  | nil => exact (List.not_mem_nil executed).elim
  | append_singleton done last ih =>
      rw [learned_snoc]
      rcases List.mem_append.mp executed with earlier | final
      · exact keeps last _ (ih earlier)
      · cases List.mem_singleton.mp final
        exact teaches _

/-- In every state of a run of a checked program, what the executed operations have
taught is true and passes the check. -/
theorem known_of_run {Hold : κ → σ → Prop} {program rest : List ι} {s t : σ} {k : κ}
    {trace : List ((σ × List ι) × Option ε)}
    (operation : ∀ op k s, ok k = true → Hold k s → Hold (learn op k) (perform op s))
    (environment : ∀ e k s t, ok k = true → Hold k s → disturb e s = some t → Hold k t)
    (passes : checked learn ok program k = true) (start : Hold k s)
    (run : Run (step perform disturb) (s, program) trace (t, rest)) :
    ∃ done, program = done ++ rest ∧ Hold (learned learn done k) t ∧
      ok (learned learn done k) = true := by
  suffices inv : ∀ u : σ × List ι, Run (step perform disturb) (s, program) trace u →
      ∃ done, program = done ++ u.2 ∧ Hold (learned learn done k) u.1 by
    obtain ⟨done, split, holds⟩ := inv (t, rest) run
    exact ⟨done, split, holds, ok_of_checked (checked_append (split ▸ passes))⟩
  clear run
  intro u run
  induction run with
  | refl => exact ⟨[], rfl, start⟩
  | @snoc _ a b l _ edge ih =>
      obtain ⟨done, split, holds⟩ := ih
      have fine := ok_of_checked (checked_append (split ▸ passes))
      cases l with
      | some e =>
          obtain ⟨t, moved, rfl⟩ := Option.map_eq_some_iff.mp edge
          exact ⟨done, split, environment e _ _ _ fine holds moved⟩
      | none =>
          obtain ⟨s, ops⟩ := a
          cases ops with
          | nil => cases edge
          | cons op rest =>
              cases edge
              refine ⟨done ++ [op], by rw [split, List.append_assoc]; rfl, ?_⟩
              rw [learned_snoc]
              exact operation op _ _ fine holds

end StraightLine
