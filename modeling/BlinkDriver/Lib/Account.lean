import BlinkDriver.Lib.Transition

/-!
# Accounts of a run

A potential is a number of a state out of which steps pay for what they do.

* `Run.account`: where every step balances what it spends and what it gains against
  the potential, every run does.
* `Run.exhaust`: where a move is enabled and costs one as long as something is left,
  making it over and over again uses up the potential, in exactly that many steps.
* `Run.account_le` and `Run.exists_settled` are the same of steps that need not spend
  exactly what they take, and of a choice of moves.

Together they say that a process ends, and when: `exhaust` and `exists_settled` that
it gets there, the accounts that nothing else the system does meanwhile keeps it from
that for longer than it pays for.
-/

namespace Transition

variable {σ ℓ : Type*} {step : σ → ℓ → Option σ}

/-- The sum of a quantity over the steps of a trace. -/
def total (quantity : σ → ℓ → Nat) : List (σ × ℓ) → Nat
  | [] => 0
  | p :: trace => quantity p.1 p.2 + total quantity trace

variable {quantity : σ → ℓ → Nat}

@[simp] theorem total_append (front back : List (σ × ℓ)) :
    total quantity (front ++ back) = total quantity front + total quantity back := by
  induction front with
  | nil => exact (Nat.zero_add _).symm
  | cons p front ih =>
      rw [List.cons_append, total, total, ih]
      exact (Nat.add_assoc ..).symm

@[simp] theorem total_singleton (s : σ) (l : ℓ) : total quantity [(s, l)] = quantity s l :=
  Nat.add_zero _

theorem total_mul (n : Nat) (trace : List (σ × ℓ)) :
    total (fun s l => n * quantity s l) trace = n * total quantity trace := by
  induction trace with
  | nil => rfl
  | cons p trace ih => rw [total, total, ih, Nat.mul_add]

theorem total_add (also : σ → ℓ → Nat) (trace : List (σ × ℓ)) :
    total (fun s l => quantity s l + also s l) trace =
      total quantity trace + total also trace := by
  induction trace with
  | nil => rfl
  | cons p trace ih =>
      rw [total, total, total, ih]
      omega

/-- A quantity that each step has one of adds up to the length. -/
theorem total_one {ok : σ → ℓ → Prop} (one : ∀ s l, ok s l → quantity s l = 1)
    {trace : List (σ × ℓ)} (meets : Meets ok trace) : total quantity trace = trace.length := by
  induction trace with
  | nil => rfl
  | cons p trace ih =>
      obtain ⟨first, rest⟩ := List.forall_mem_cons.mp meets
      rw [total, one _ _ first, ih rest, List.length_cons, Nat.add_comm]

/-- A quantity that no step has any of adds up to nothing. -/
theorem total_zero {ok : σ → ℓ → Prop} (none : ∀ s l, ok s l → quantity s l = 0)
    {trace : List (σ × ℓ)} (meets : Meets ok trace) : total quantity trace = 0 := by
  induction trace with
  | nil => rfl
  | cons p trace ih =>
      obtain ⟨first, rest⟩ := List.forall_mem_cons.mp meets
      rw [total, none _ _ first, ih rest]

/-- A run balances if all its steps do. -/
theorem Run.account {Inv : σ → Prop} {ok : σ → ℓ → Prop} (potential : σ → Nat)
    (spent gained : σ → ℓ → Nat)
    (preserved : ∀ a l b, Inv a → ok a l → step a l = some b → Inv b)
    (balanced : ∀ a l b, Inv a → ok a l → step a l = some b →
      spent a l + potential b = potential a + gained a l)
    {s t : σ} {trace : List (σ × ℓ)} (run : Run step s trace t) (meets : Meets ok trace)
    (start : Inv s) :
    total spent trace + potential t = potential s + total gained trace := by
  induction run with
  | refl => exact Nat.add_comm ..
  | snoc front edge ih =>
      obtain ⟨frontMeets, last⟩ := meets_append.mp meets
      have before := ih frontMeets
      have inv := front.invariant preserved frontMeets start
      have here := balanced _ _ _ inv (meets_singleton.mp last) edge
      rw [total_append, total_append, total_singleton, total_singleton]
      omega

/-- A run spends no more than it has and gains if no step does. -/
theorem Run.account_le {Inv : σ → Prop} {ok : σ → ℓ → Prop} (potential : σ → Nat)
    (spent gained : σ → ℓ → Nat)
    (preserved : ∀ a l b, Inv a → ok a l → step a l = some b → Inv b)
    (covered : ∀ a l b, Inv a → ok a l → step a l = some b →
      spent a l + potential b ≤ potential a + gained a l)
    {s t : σ} {trace : List (σ × ℓ)} (run : Run step s trace t) (meets : Meets ok trace)
    (start : Inv s) :
    total spent trace + potential t ≤ potential s + total gained trace := by
  induction run with
  | refl => exact Nat.le_of_eq (Nat.add_comm ..)
  | snoc front edge ih =>
      obtain ⟨frontMeets, last⟩ := meets_append.mp meets
      have before := ih frontMeets
      have inv := front.invariant preserved frontMeets start
      have here := covered _ _ _ inv (meets_singleton.mp last) edge
      rw [total_append, total_append, total_singleton, total_singleton]
      omega

/-- None of the moves in question is enabled. -/
def Settled (step : σ → ℓ → Option σ) (ok : σ → ℓ → Prop) (s : σ) : Prop :=
  ∀ l, ok s l → step s l = none

/-- Moves that all lower the potential lead to a state in which none of them is
enabled. -/
theorem Run.exists_settled {Inv : σ → Prop} {ok : σ → ℓ → Prop} (potential : σ → Nat)
    (preserved : ∀ a l b, Inv a → ok a l → step a l = some b → Inv b)
    (falls : ∀ a l b, Inv a → ok a l → step a l = some b → potential b < potential a)
    {s : σ} (start : Inv s) :
    ∃ t trace, Run step s trace t ∧ Meets ok trace ∧ Settled step ok t := by
  induction left : potential s using Nat.strongRecOn generalizing s with
  | ind n ih =>
      by_cases settled : Settled step ok s
      · exact ⟨s, [], .refl, meets_nil, settled⟩
      · simp only [Settled, not_forall] at settled
        obtain ⟨l, allowed, enabled⟩ := settled
        obtain ⟨b, edge⟩ := Option.ne_none_iff_exists'.mp enabled
        have less := falls s l b start allowed edge
        obtain ⟨t, trace, run, meets, rest⟩ :=
          ih (potential b) (left ▸ less) (preserved s l b start allowed edge) rfl
        refine ⟨t, (s, l) :: trace, (Run.single edge).trans run, ?_, rest⟩
        exact List.forall_mem_cons.mpr ⟨allowed, meets⟩

/-- A move that is enabled and costs one as long as something is left uses up the
potential. -/
theorem Run.exhaust (Inv : σ → Prop) (potential : σ → Nat) (l : ℓ)
    (next : ∀ a, Inv a → 0 < potential a →
      ∃ b, step a l = some b ∧ Inv b ∧ potential a = potential b + 1)
    {s : σ} (start : Inv s) :
    ∃ t trace, Run step s trace t ∧ Meets (fun a _ => 0 < potential a) trace ∧
      trace.map Prod.snd = List.replicate (potential s) l ∧ Inv t ∧ potential t = 0 := by
  induction left : potential s generalizing s with
  | zero => exact ⟨s, [], .refl, meets_nil, rfl, start, left⟩
  | succ n ih =>
      have positive : 0 < potential s := by omega
      obtain ⟨b, edge, inv, cost⟩ := next s start positive
      obtain ⟨t, trace, run, meets, labels, done⟩ := ih inv (by omega)
      refine ⟨t, (s, l) :: trace, (Run.single edge).trans run, ?_, ?_, done⟩
      · exact List.forall_mem_cons.mpr ⟨positive, meets⟩
      · rw [List.map_cons, labels, List.replicate_succ]

end Transition
