import BlinkDriver.Lib.Transition
import Mathlib.Order.Basic

/-!
# Reading two values one after the other

`x` and `y` are two parts of a state, each moved by steps of its own. Reading
`x` at the beginning of a run and `y` at its end gives a pair that need not have
been there at any time: `x` may move before `y` does. `Run.snapshot` says that
nothing else can go wrong, and `Run.noneAfter_of_snapshot` that this does, if
neither value ever comes back.
-/

namespace Transition

variable {σ ℓ α β : Type*} {step : σ → ℓ → Option σ}

/-- What can move `x` and what can move `y`, never both at once. -/
structure Separate (step : σ → ℓ → Option σ) (x : σ → α) (y : σ → β)
    (movesX movesY : σ → ℓ → Prop) : Prop where
  left : ∀ s l t, step s l = some t → ¬ movesX s l → x t = x s
  right : ∀ s l t, step s l = some t → ¬ movesY s l → y t = y s
  apart : ∀ s l, movesX s l → ¬ movesY s l

/-- No step that can move `y` comes after one that can move `x`. -/
def NoneAfter (movesX movesY : σ → ℓ → Prop) (trace : List (σ × ℓ)) : Prop :=
  trace.Pairwise fun p q => movesX p.1 p.2 → ¬ movesY q.1 q.2

variable {x : σ → α} {y : σ → β} {movesX movesY : σ → ℓ → Prop} {s t : σ}
  {trace : List (σ × ℓ)}

instance [∀ s l, Decidable (movesX s l)] [∀ s l, Decidable (movesY s l)] :
    Decidable (NoneAfter movesX movesY trace) :=
  inferInstanceAs (Decidable (trace.Pairwise fun p q => movesX p.1 p.2 → ¬ movesY q.1 q.2))

theorem noneAfter_snoc {l : ℓ} :
    NoneAfter movesX movesY (trace ++ [(t, l)]) ↔
      NoneAfter movesX movesY trace ∧ ((∃ p ∈ trace, movesX p.1 p.2) → ¬ movesY t l) := by
  rw [NoneAfter, List.pairwise_append]
  simp [NoneAfter]

/-- If `y` does not move after `x` has, there is a state with the first `x` and the
last `y`: the one before `x` moves, or the last one if it does not. -/
theorem Run.snapshot (separate : Separate step x y movesX movesY) (run : Run step s trace t)
    (order : NoneAfter movesX movesY trace) : ∃ u ∈ visited trace t, x u = x s ∧ y u = y t := by
  suffices both : ((∀ p ∈ trace, ¬ movesX p.1 p.2) ∧ x t = x s) ∨
      ((∃ p ∈ trace, movesX p.1 p.2) ∧ ∃ u ∈ visited trace t, x u = x s ∧ y u = y t) by
    rcases both with ⟨-, still⟩ | ⟨-, found⟩
    · exact ⟨t, mem_visited_end trace t, still, rfl⟩
    · exact found
  induction run with
  | refl => exact Or.inl ⟨fun _ member => (List.not_mem_nil member).elim, rfl⟩
  | @snoc trace t t' l _ edge ih =>
      obtain ⟨earlier, last⟩ := noneAfter_snoc.mp order
      rw [visited_snoc]
      rcases ih earlier with ⟨none, still⟩ | ⟨⟨p, member, moved⟩, u, passed, first, same⟩
      · by_cases moves : movesX t l
        · refine Or.inr ⟨⟨(t, l), by simp, moves⟩, t, ?_, still, ?_⟩
          · exact List.mem_append_left _ (mem_visited_end trace t)
          · exact (separate.right t l t' edge (separate.apart t l moves)).symm
        · refine Or.inl ⟨fun p member => ?_, (separate.left t l t' edge moves).trans still⟩
          rcases List.mem_append.mp member with earlier | final
          · exact none p earlier
          · cases List.mem_singleton.mp final
            exact moves
      · refine Or.inr ⟨⟨p, List.mem_append_left _ member, moved⟩, u,
          List.mem_append_left _ passed, first, ?_⟩
        exact same.trans (separate.right t l t' edge (last ⟨p, member, moved⟩)).symm

/-! ## Values that do not come back -/

section Advance

variable [PartialOrder α] [PartialOrder β]

/-- Every step keeps `x` or raises it, and the given steps raise it. -/
structure Advances (step : σ → ℓ → Option σ) (x : σ → α) (moves : σ → ℓ → Prop) : Prop where
  le : ∀ s l t, step s l = some t → x s ≤ x t
  lt : ∀ s l t, step s l = some t → moves s l → x s < x t

theorem Advances.run_le (advances : Advances step x movesX) (run : Run step s trace t) :
    x s ≤ x t := by
  induction run with
  | refl => exact le_rfl
  | snoc _ edge ih => exact ih.trans (advances.le _ _ _ edge)

theorem Advances.le_visited (advances : Advances step x movesX) (run : Run step s trace t) {u : σ}
    (passed : u ∈ visited trace t) : x s ≤ x u ∧ x u ≤ x t := by
  obtain ⟨_, _, before, after, -⟩ := run.split_visited passed
  exact ⟨advances.run_le before, advances.run_le after⟩

/-- Where `x` ends as it began, it has not moved. -/
theorem Advances.still (advances : Advances step x movesX) (run : Run step s trace t)
    (same : x t ≤ x s) : ∀ p ∈ trace, ¬ movesX p.1 p.2 := by
  intro p member moves
  obtain ⟨front, back, u, before, edge, after, -⟩ := run.exists_split p member
  have raised := advances.lt _ _ _ edge moves
  exact absurd same (((advances.run_le before).trans_lt raised).trans_le
    (advances.run_le after)).not_ge

/-- If the pair read was there at any time before, between or after the reads, `y` has
not moved after `x` between them. -/
theorem Run.noneAfter_of_snapshot (xAdvances : Advances step x movesX)
    (yAdvances : Advances step y movesY) {a b u : σ} {front mid back : List (σ × ℓ)}
    (before : Run step s front a) (between : Run step a mid b) (after : Run step b back t)
    (passed : u ∈ visited front a ∨ u ∈ visited mid b ∨ u ∈ visited back t)
    (first : x u = x a) (last : y u = y b) : NoneAfter movesX movesY mid := by
  rcases passed with early | amid | late
  · have still := yAdvances.still between (last ▸ (yAdvances.le_visited before early).2)
    exact List.pairwise_of_forall_mem_list fun p _ q member _ => still q member
  · obtain ⟨left, right, there, onward, rfl⟩ := between.split_visited amid
    have xStill := xAdvances.still there first.le
    have yStill := yAdvances.still onward last.ge
    refine List.pairwise_append.mpr ⟨?_, ?_, fun p member _ _ moves => (xStill p member moves).elim⟩
    · exact List.pairwise_of_forall_mem_list fun p member _ _ moves => (xStill p member moves).elim
    · exact List.pairwise_of_forall_mem_list fun p _ q member _ => yStill q member
  · have still := xAdvances.still between (first ▸ (xAdvances.le_visited after late).1)
    exact List.pairwise_of_forall_mem_list fun p member _ _ moves => (still p member moves).elim

end Advance

end Transition
