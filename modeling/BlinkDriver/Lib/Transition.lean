import Mathlib.Data.List.Basic

/-!
# Runs of a labelled step function

A system is a partial function `step : σ → ℓ → Option σ`: the label names who
moves and everything the move does not determine by itself, and `none` says
that the move is not enabled. `Run` records, for every step of a finite run,
the state it started from and its label, so that a statement can speak about
the steps of a run as well as about the states it reaches.

* `Meets ok trace` restricts a run by a condition on the state before each
  step; an assumption about an environment and the condition under which a
  system keeps a property both have this form.
* `Run.invariant` is the induction every safety proof below uses.
* `exec` evaluates a list of labels; `Run.of_exec` turns an evaluation into a
  run, so that a concrete run is checked by computation.
-/

namespace Transition

variable {σ ℓ : Type*}

/-- A finite run from `s` to `t`. The trace lists the state before each step
together with the label of the step, oldest first. -/
inductive Run (step : σ → ℓ → Option σ) (s : σ) : List (σ × ℓ) → σ → Prop
  | refl : Run step s [] s
  | snoc {trace : List (σ × ℓ)} {t u : σ} {l : ℓ} :
      Run step s trace t → step t l = some u → Run step s (trace ++ [(t, l)]) u

/-- Every step of the trace meets `ok` at the state it starts from. -/
def Meets (ok : σ → ℓ → Prop) (trace : List (σ × ℓ)) : Prop :=
  ∀ p ∈ trace, ok p.1 p.2

instance (ok : σ → ℓ → Prop) [∀ s l, Decidable (ok s l)] (trace : List (σ × ℓ)) :
    Decidable (Meets ok trace) :=
  inferInstanceAs (Decidable (∀ p ∈ trace, ok p.1 p.2))

@[simp] theorem meets_nil {ok : σ → ℓ → Prop} : Meets ok [] :=
  fun _ member => (List.not_mem_nil member).elim

@[simp] theorem meets_append {ok : σ → ℓ → Prop} {left right : List (σ × ℓ)} :
    Meets ok (left ++ right) ↔ Meets ok left ∧ Meets ok right := by
  simp only [Meets, List.mem_append]
  constructor
  · intro all
    exact ⟨fun p member => all p (Or.inl member), fun p member => all p (Or.inr member)⟩
  · intro both p either
    rcases both with ⟨onLeft, onRight⟩
    rcases either with member | member
    · exact onLeft p member
    · exact onRight p member

@[simp] theorem meets_singleton {ok : σ → ℓ → Prop} {s : σ} {l : ℓ} :
    Meets ok [(s, l)] ↔ ok s l := by
  simp [Meets]

theorem Meets.and {ok also : σ → ℓ → Prop} {trace : List (σ × ℓ)} (left : Meets ok trace)
    (right : Meets also trace) : Meets (fun s l => ok s l ∧ also s l) trace :=
  fun p member => ⟨left p member, right p member⟩

theorem Meets.mono {ok weaker : σ → ℓ → Prop} {trace : List (σ × ℓ)}
    (all : Meets ok trace) (weaken : ∀ s l, ok s l → weaker s l) : Meets weaker trace :=
  fun p member => weaken p.1 p.2 (all p member)

variable {step : σ → ℓ → Option σ}

/-- A run without restrictions. -/
theorem Run.meets_true {s t : σ} {trace : List (σ × ℓ)} (_ : Run step s trace t) :
    Meets (fun _ _ => True) trace :=
  fun _ _ => trivial

theorem Run.single {s t : σ} {l : ℓ} (edge : step s l = some t) : Run step s [(s, l)] t :=
  .snoc .refl edge

theorem Run.trans {s t u : σ} {front back : List (σ × ℓ)}
    (first : Run step s front t) (second : Run step t back u) :
    Run step s (front ++ back) u := by
  induction second with
  | refl => simpa using first
  | snoc _ edge ih => simpa only [← List.append_assoc] using ih.snoc edge

/-- What holds at the start and is preserved by every allowed step holds at
the end of every allowed run. -/
theorem Run.invariant {Inv : σ → Prop} {ok : σ → ℓ → Prop} {s t : σ}
    {trace : List (σ × ℓ)}
    (preserved : ∀ a l b, Inv a → ok a l → step a l = some b → Inv b)
    (run : Run step s trace t) (meets : Meets ok trace) (start : Inv s) : Inv t := by
  induction run with
  | refl => exact start
  | snoc _ edge ih =>
      obtain ⟨front, last⟩ := meets_append.mp meets
      exact preserved _ _ _ (ih front) (meets_singleton.mp last) edge

/-- Where an invariant turns a property of a step into a condition on it, and the
condition preserves the invariant, the steps of a run have the property exactly if
they meet the condition. -/
theorem Run.meets_iff {Inv : σ → Prop} {P ok : σ → ℓ → Prop} {s t : σ} {trace : List (σ × ℓ)}
    (same : ∀ a l, Inv a → (P a l ↔ ok a l))
    (preserved : ∀ a l b, Inv a → ok a l → step a l = some b → Inv b)
    (run : Run step s trace t) (start : Inv s) : Meets P trace ↔ Meets ok trace := by
  induction run with
  | refl => exact ⟨fun _ => meets_nil, fun _ => meets_nil⟩
  | snoc front _ ih =>
      rw [meets_append, meets_append, meets_singleton, meets_singleton, ih]
      refine and_congr_right fun meets => ?_
      exact same _ _ (front.invariant preserved meets start)

/-- The states a run passes through, its end included. -/
def visited (trace : List (σ × ℓ)) (t : σ) : List σ := trace.map Prod.fst ++ [t]

theorem mem_visited_end (trace : List (σ × ℓ)) (t : σ) : t ∈ visited trace t := by
  simp [visited]

theorem mem_visited_of_mem {trace : List (σ × ℓ)} {t : σ} {p : σ × ℓ} (member : p ∈ trace) :
    p.1 ∈ visited trace t :=
  List.mem_append_left _ (List.mem_map_of_mem member)

theorem visited_snoc (trace : List (σ × ℓ)) (t u : σ) (l : ℓ) :
    visited (trace ++ [(t, l)]) u = visited trace t ++ [u] := by
  simp [visited]

/-- An invariant holds at every state an allowed run passes through. -/
theorem Run.invariant_visited {Inv : σ → Prop} {ok : σ → ℓ → Prop} {s t : σ}
    {trace : List (σ × ℓ)}
    (preserved : ∀ a l b, Inv a → ok a l → step a l = some b → Inv b)
    (run : Run step s trace t) (meets : Meets ok trace) (start : Inv s) :
    ∀ u ∈ visited trace t, Inv u := by
  induction run with
  | refl => simpa [visited] using start
  | snoc front edge ih =>
      have whole := (front.snoc edge).invariant preserved meets start
      obtain ⟨frontMeets, -⟩ := meets_append.mp meets
      intro u member
      rw [visited_snoc, List.mem_append, List.mem_singleton] at member
      rcases member with earlier | rfl
      · exact ih frontMeets u earlier
      · exact whole

/-- Every step of a run leads to a state the run passes through. -/
theorem Run.exists_next {s t : σ} {trace : List (σ × ℓ)} (run : Run step s trace t) :
    ∀ p ∈ trace, ∃ u ∈ visited trace t, step p.1 p.2 = some u := by
  induction run with
  | refl => exact fun _ member => (List.not_mem_nil member).elim
  | snoc front edge ih =>
      intro p member
      rw [List.mem_append, List.mem_singleton] at member
      rcases member with earlier | rfl
      · obtain ⟨u, passed, next⟩ := ih p earlier
        exact ⟨u, by rw [visited_snoc]; exact List.mem_append_left _ passed, next⟩
      · exact ⟨_, mem_visited_end _ _, edge⟩

/-- Every step of a run splits it in two. -/
theorem Run.exists_split {s t : σ} {trace : List (σ × ℓ)} (run : Run step s trace t) :
    ∀ p ∈ trace, ∃ front back u, Run step s front p.1 ∧ step p.1 p.2 = some u ∧
      Run step u back t ∧ trace = front ++ p :: back := by
  induction run with
  | refl => exact fun _ member => (List.not_mem_nil member).elim
  | snoc run edge ih =>
      intro p member
      rw [List.mem_append, List.mem_singleton] at member
      rcases member with earlier | rfl
      · obtain ⟨front, back, u, before, next, after, rfl⟩ := ih p earlier
        exact ⟨front, _, u, before, next, after.snoc edge, by simp⟩
      · exact ⟨_, [], _, run, edge, .refl, rfl⟩

/-- A run splits wherever its trace does. -/
theorem Run.of_append {s t : σ} {front back : List (σ × ℓ)} (run : Run step s (front ++ back) t) :
    ∃ u, Run step s front u ∧ Run step u back t := by
  generalize whole : front ++ back = trace at run
  induction run generalizing back with
  | refl =>
      obtain ⟨rfl, rfl⟩ := List.append_eq_nil_iff.mp whole
      exact ⟨s, .refl, .refl⟩
  | snoc run edge ih =>
      rcases List.eq_nil_or_concat back with rfl | ⟨early, last, rfl⟩
      · rw [List.append_nil] at whole
        exact ⟨_, whole ▸ run.snoc edge, .refl⟩
      · rw [List.concat_eq_append, ← List.append_assoc] at whole
        obtain ⟨same, final⟩ := List.append_inj' whole rfl
        cases final
        obtain ⟨u, before, after⟩ := ih same
        exact ⟨u, before, List.concat_eq_append ▸ after.snoc edge⟩

theorem Run.of_nil {s t : σ} (run : Run step s [] t) : t = s := by
  generalize whole : [] = trace at run
  cases run with
  | refl => rfl
  | snoc => simp at whole

/-- The first step of a run. -/
theorem Run.of_cons {s t : σ} {p : σ × ℓ} {back : List (σ × ℓ)}
    (run : Run step s (p :: back) t) : p.1 = s ∧ ∃ u, step s p.2 = some u ∧ Run step u back t := by
  obtain ⟨u, first, rest⟩ := Run.of_append (show Run step s ([p] ++ back) t from run)
  generalize whole : [p] = trace at first
  cases first with
  | refl => cases whole
  | @snoc trace v _ l before edge =>
      obtain ⟨nothing, final⟩ := List.append_inj' (show [] ++ [p] = trace ++ [(v, l)] from whole) rfl
      cases nothing
      cases final
      cases before.of_nil
      exact ⟨rfl, u, edge, rest⟩

theorem Run.mem_visited_start {s t : σ} {trace : List (σ × ℓ)} (run : Run step s trace t) :
    s ∈ visited trace t := by
  induction run with
  | refl => exact List.mem_singleton.mpr rfl
  | snoc _ _ ih =>
      rw [visited_snoc]
      exact List.mem_append_left _ ih

/-- Two runs one after the other pass through what either passes through. -/
theorem Run.mem_visited_append {t u v : σ} {front back : List (σ × ℓ)}
    (second : Run step t back u) :
    v ∈ visited (front ++ back) u ↔ v ∈ visited front t ∨ v ∈ visited back u := by
  have meet := second.mem_visited_start
  simp only [visited, List.map_append, List.mem_append, List.mem_singleton] at meet ⊢
  constructor
  · rintro ((left | right) | last)
    · exact Or.inl (Or.inl left)
    · exact Or.inr (Or.inl right)
    · exact Or.inr (Or.inr last)
  · rintro ((left | rfl) | right)
    · exact Or.inl (Or.inl left)
    · exact meet.imp_left Or.inr
    · exact right.imp_left Or.inr

/-- Every state a run passes through splits it in two. -/
theorem Run.split_visited {s t u : σ} {trace : List (σ × ℓ)} (run : Run step s trace t)
    (passed : u ∈ visited trace t) :
    ∃ front back, Run step s front u ∧ Run step u back t ∧ trace = front ++ back := by
  rcases List.mem_append.mp passed with earlier | last
  · obtain ⟨p, member, rfl⟩ := List.mem_map.mp earlier
    obtain ⟨front, back, v, before, edge, after, rfl⟩ := run.exists_split p member
    exact ⟨front, p :: back, before, (Run.single edge).trans after, rfl⟩
  · cases List.mem_singleton.mp last
    exact ⟨trace, [], run, .refl, (List.append_nil trace).symm⟩

/-! ## Histories

A history is what an onlooker keeps of a run: it starts at `o` and is updated
with every step by `next`. -/

section History

variable {ω : Type*}

/-- The history at the end of a trace. -/
def history (next : σ → ℓ → ω → ω) (o : ω) (trace : List (σ × ℓ)) : ω :=
  trace.foldl (fun o p => next p.1 p.2 o) o

/-- The states a run passes through, its end included, each with the history
there. -/
def watched (next : σ → ℓ → ω → ω) (o : ω) : List (σ × ℓ) → σ → List (σ × ω)
  | [], t => [(t, o)]
  | (s, l) :: trace, t => (s, o) :: watched next (next s l o) trace t

variable {next : σ → ℓ → ω → ω}

theorem watched_snoc (o : ω) (trace : List (σ × ℓ)) (t u : σ) (l : ℓ) :
    watched next o (trace ++ [(t, l)]) u =
      watched next o trace t ++ [(u, next t l (history next o trace))] := by
  induction trace generalizing o with
  | nil => rfl
  | cons p trace ih => simpa [watched, history] using ih _

theorem history_snoc (o : ω) (trace : List (σ × ℓ)) (t : σ) (l : ℓ) :
    history next o (trace ++ [(t, l)]) = next t l (history next o trace) := by
  simp [history]

theorem mem_watched_end (o : ω) (trace : List (σ × ℓ)) (t : σ) :
    (t, history next o trace) ∈ watched next o trace t := by
  induction trace generalizing o with
  | nil => exact List.mem_cons_self ..
  | cons p trace ih => exact List.mem_cons_of_mem _ (ih _)

/-- What holds of the start and its history and is preserved by every allowed
step holds of every state an allowed run passes through and the history there. -/
theorem Run.invariant_watched {Inv : σ → ω → Prop} {ok : σ → ℓ → Prop} {s t : σ} {o : ω}
    {trace : List (σ × ℓ)}
    (preserved : ∀ a o l b, Inv a o → ok a l → step a l = some b → Inv b (next a l o))
    (run : Run step s trace t) (meets : Meets ok trace) (start : Inv s o) :
    ∀ u ∈ watched next o trace t, Inv u.1 u.2 := by
  induction run with
  | refl =>
      intro u member
      cases List.mem_singleton.mp member
      exact start
  | snoc front edge ih =>
      obtain ⟨frontMeets, last⟩ := meets_append.mp meets
      intro u member
      rw [watched_snoc, List.mem_append, List.mem_singleton] at member
      rcases member with earlier | rfl
      · exact ih frontMeets u earlier
      · exact preserved _ _ _ _ (ih frontMeets _ (mem_watched_end _ _ _))
          (meets_singleton.mp last) edge

/-- Every step of a run with the histories around it. -/
theorem Run.exists_watched {s t : σ} {o : ω} {trace : List (σ × ℓ)} (run : Run step s trace t) :
    ∀ p ∈ trace, ∃ q u, (p.1, q) ∈ watched next o trace t ∧ step p.1 p.2 = some u ∧
      (u, next p.1 p.2 q) ∈ watched next o trace t := by
  induction run with
  | refl => exact fun _ member => (List.not_mem_nil member).elim
  | snoc front edge ih =>
      intro p member
      rw [List.mem_append, List.mem_singleton] at member
      simp only [watched_snoc, List.mem_append, List.mem_singleton]
      rcases member with earlier | rfl
      · obtain ⟨q, u, before, taken, after⟩ := ih p earlier
        exact ⟨q, u, Or.inl before, taken, Or.inl after⟩
      · exact ⟨_, _, Or.inl (mem_watched_end _ _ _), edge, Or.inr rfl⟩

/-- The step function that carries the history along. -/
def observe (next : σ → ℓ → ω → ω) (step : σ → ℓ → Option σ) (u : σ × ω) (l : ℓ) :
    Option (σ × ω) :=
  (step u.1 l).map fun t => (t, next u.1 l u.2)

/-- A run that carries the history along is a run with that history. -/
theorem Run.of_observe {s : σ} {o : ω} {u : σ × ω} {trace : List ((σ × ω) × ℓ)}
    (run : Run (observe next step) (s, o) trace u) :
    ∃ front, Run step s front u.1 ∧ history next o front = u.2 := by
  induction run with
  | refl => exact ⟨[], .refl, rfl⟩
  | snoc _ edge ih =>
      obtain ⟨front, run, past⟩ := ih
      obtain ⟨next, moved, rfl⟩ := Option.map_eq_some_iff.mp edge
      exact ⟨_, run.snoc moved, by rw [history_snoc, past]⟩

end History

/-! ## Evaluating a schedule -/

/-- Take the moves of a schedule one after another. -/
def exec (step : σ → ℓ → Option σ) (s : σ) : List ℓ → Option σ
  | [] => some s
  | l :: labels => (step s l).bind fun t => exec step t labels

/-- A schedule that evaluates is a run along exactly its labels. -/
theorem Run.of_exec {labels : List ℓ} {s t : σ} (done : exec step s labels = some t) :
    ∃ trace, Run step s trace t ∧ trace.map Prod.snd = labels := by
  induction labels generalizing s with
  | nil =>
      cases done
      exact ⟨[], .refl, rfl⟩
  | cons l labels ih =>
      obtain ⟨next, edge, rest⟩ := Option.bind_eq_some_iff.mp done
      obtain ⟨trace, run, same⟩ := ih rest
      exact ⟨(s, l) :: trace, (Run.single edge).trans run, by simp [same]⟩

/-- A schedule whose evaluation passes a check is a run to a state that passes it. -/
theorem Run.of_exec_any (step : σ → ℓ → Option σ) (s : σ) (labels : List ℓ) (P : σ → Prop)
    [DecidablePred P] (checked : (exec step s labels).any (fun t => decide (P t)) = true) :
    ∃ t trace, Run step s trace t ∧ trace.map Prod.snd = labels ∧ P t := by
  obtain ⟨t, done, holds⟩ := (Option.any_eq_true _ _).mp checked
  obtain ⟨trace, run, same⟩ := Run.of_exec done
  exact ⟨t, trace, run, same, of_decide_eq_true holds⟩

/-- The trace of a schedule and the state it leads to. -/
def traced (step : σ → ℓ → Option σ) (s : σ) : List ℓ → Option (List (σ × ℓ) × σ)
  | [] => some ([], s)
  | l :: labels =>
      (step s l).bind fun t => (traced step t labels).map fun rest => ((s, l) :: rest.1, rest.2)

theorem Run.of_traced {labels : List ℓ} {s t : σ} {trace : List (σ × ℓ)}
    (done : traced step s labels = some (trace, t)) : Run step s trace t := by
  induction labels generalizing s trace with
  | nil =>
      cases done
      exact .refl
  | cons l labels ih =>
      obtain ⟨next, edge, rest⟩ := Option.bind_eq_some_iff.mp done
      obtain ⟨⟨back, u⟩, after, same⟩ := Option.map_eq_some_iff.mp rest
      cases same
      exact (Run.single edge).trans (ih after)

/-- A schedule whose trace passes a check is a run with such a trace. -/
theorem Run.of_traced_any (step : σ → ℓ → Option σ) (s : σ) (labels : List ℓ)
    (P : List (σ × ℓ) × σ → Prop) [DecidablePred P]
    (checked : (traced step s labels).any (fun r => decide (P r)) = true) :
    ∃ t trace, Run step s trace t ∧ P (trace, t) := by
  obtain ⟨⟨trace, t⟩, done, holds⟩ := (Option.any_eq_true _ _).mp checked
  exact ⟨t, trace, Run.of_traced done, of_decide_eq_true holds⟩

/-- The step function that takes only the allowed steps. -/
def restrict (ok : σ → ℓ → Prop) [∀ s l, Decidable (ok s l)] (step : σ → ℓ → Option σ)
    (s : σ) (l : ℓ) : Option σ :=
  if ok s l then step s l else none

/-- A run of the restricted system is a run all of whose steps are allowed. -/
theorem Run.of_restrict {ok : σ → ℓ → Prop} [∀ s l, Decidable (ok s l)] {s t : σ}
    {trace : List (σ × ℓ)} (run : Run (restrict ok step) s trace t) :
    Run step s trace t ∧ Meets ok trace := by
  induction run with
  | refl => exact ⟨.refl, meets_nil⟩
  | @snoc trace t u l _ edge ih =>
      by_cases allowed : ok t l
      · rw [restrict, if_pos allowed] at edge
        exact ⟨ih.1.snoc edge, meets_append.mpr ⟨ih.2, meets_singleton.mpr allowed⟩⟩
      · rw [restrict, if_neg allowed] at edge
        cases edge

end Transition
