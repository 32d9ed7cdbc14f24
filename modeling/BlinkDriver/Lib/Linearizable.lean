import BlinkDriver.Lib.Interleaving
import Mathlib.Data.List.Nodup

/-!
# Linearizable calls

Calls that interleave are linearizable if each of them seems to happen at once, at
some point between its beginning and its return. `Linearizes` says so of one run: an
order of events, one for a call at most, can be performed on an abstract value one
after another, and every beginning of the run is accounted for by a beginning of
the order. So the order of two calls that do not overlap is theirs.

`Points` is how this is shown: `taken` tells from the state of a call whether it has
taken effect, and the abstract value changes with the step by which it does, or by an
act of the surroundings, and with no other. `Points.linearizes` reads the order off
the run. `Atomic` is the case of a register, where a read delivers the value that was
stored last.
-/

namespace Interleaving

open Transition

variable {Γ κ α ω ε σ η : Type*}

/-! ## Events -/

/-- Perform events one after another, as long as they are possible. -/
def replay (perform : η → σ → Option σ) : σ → List η → Option σ
  | s, [] => some s
  | s, e :: events => (perform e s).bind fun t => replay perform t events

theorem replay_append {perform : η → σ → Option σ} {s t : σ} {front : List η}
    (done : replay perform s front = some t) (back : List η) :
    replay perform s (front ++ back) = replay perform t back := by
  induction front generalizing s with
  | nil =>
      cases done
      rfl
  | cons e front ih =>
      obtain ⟨u, first, rest⟩ := Option.bind_eq_some_iff.mp done
      rw [List.cons_append, replay, first]
      exact ih rest

/-- What is seen of the calls from outside: which events a call can amount to, which
it did amount to when it has returned, and which event an act of the surroundings is. -/
structure Interface (κ ε η : Type*) where
  asks : κ → η → Prop
  done : κ → Option η
  outside : ε → Option η

/-- The acts of the surroundings in a trace. -/
def Interface.acts (face : Interface κ ε η) (trace : List (State Γ κ × Label α ω ε)) : List η :=
  trace.filterMap fun q =>
    match q.2 with
    | .env e => face.outside e
    | _ => none

/-- The order accounts for what has happened between the globals `g` and the state
`u`: it can be performed, it has the events of all calls that have returned, of others
only what they ask for, of each at most one, and the acts of the surroundings. An
entry has the slot of its call. -/
structure Accounts (face : Interface κ ε η) (perform : η → σ → Option σ) (abs : Γ → σ) (g : Γ)
    (front : List (State Γ κ × Label α ω ε)) (u : State Γ κ) (order : List (Option Nat × η)) :
    Prop where
  replays : replay perform (abs g) (order.map Prod.snd) = some (abs u.globals)
  answered : ∀ i k e, u.calls i = some k → face.done k = some e → (some i, e) ∈ order
  asked : ∀ i e, (some i, e) ∈ order → ∃ k, u.calls i = some k ∧ face.asks k e
  once : (order.filterMap Prod.fst).Nodup
  acts : (order.filter fun q => q.1.isNone).map Prod.snd = face.acts front

/-- Every beginning of the run is accounted for by a beginning of the order. -/
def Linearizes (p : Program Γ κ α ω ε) (face : Interface κ ε η) (perform : η → σ → Option σ)
    (abs : Γ → σ) (g : Γ) (trace : List (State Γ κ × Label α ω ε)) (t : State Γ κ)
    (order : List (Option Nat × η)) : Prop :=
  ∀ front u back, Run p.step (.idle g) front u → Run p.step u back t → trace = front ++ back →
    ∃ before after, order = before ++ after ∧ Accounts face perform abs g front u before

/-! ## Points at which calls take effect -/

/-- The event with which the call in slot `i` has taken effect. -/
def takenAt (taken : κ → Option η) (s : State Γ κ) (i : Nat) : Option η := (s.calls i).bind taken

/-- From states with the invariant an allowed step makes a call take effect and
performs its event on the abstract value, or does neither. -/
structure Points (p : Program Γ κ α ω ε) (face : Interface κ ε η) (perform : η → σ → Option σ)
    (abs : Γ → σ) (Inv : State Γ κ → Prop) (ok : State Γ κ → Label α ω ε → Prop)
    (taken : κ → Option η) : Prop where
  start : ∀ arg, taken (p.start arg) = none
  move : ∀ s i outcome k g' k', Inv s → ok s (.move i outcome) → s.calls i = some k →
    p.move outcome s.globals k = some (g', k') →
    (taken k' = taken k ∧ abs g' = abs s.globals) ∨
      (taken k = none ∧ ∃ e, taken k' = some e ∧ perform e (abs s.globals) = some (abs g'))
  env : ∀ e g, replay perform (abs g) (face.outside e).toList = some (abs (p.env e g))
  done : ∀ s i k e, Inv s → s.calls i = some k → face.done k = some e → taken k = some e
  asks : ∀ s i k e, Inv s → s.calls i = some k → taken k = some e → face.asks k e

/-- The same calls, when a call asks only for the event with which it has taken effect. -/
def Interface.exactly (face : Interface κ ε η) (taken : κ → Option η) : Interface κ ε η :=
  { face with asks := fun k e => taken k = some e }

theorem Points.exactly {p : Program Γ κ α ω ε} {face : Interface κ ε η}
    {perform : η → σ → Option σ} {abs : Γ → σ} {Inv : State Γ κ → Prop}
    {ok : State Γ κ → Label α ω ε → Prop} {taken : κ → Option η}
    (points : Points p face perform abs Inv ok taken) :
    Points p (face.exactly taken) perform abs Inv ok taken where
  start := points.start
  move := points.move
  env := points.env
  done := points.done
  asks _ _ _ _ _ _ taking := taking

/-- The event of a step: that of the call that takes effect with it, or the act of
the surroundings. -/
def effect (p : Program Γ κ α ω ε) (face : Interface κ ε η) (taken : κ → Option η) (s : State Γ κ) :
    Label α ω ε → List (Option Nat × η)
  | .start _ _ => []
  | .move i outcome =>
      match takenAt taken s i with
      | some _ => []
      | none =>
          ((p.step s (.move i outcome)).bind fun t => takenAt taken t i).toList.map
            fun e => (some i, e)
  | .env e => (face.outside e).toList.map fun e => (none, e)

/-- The events of a trace, in the order of its steps. -/
def effects (p : Program Γ κ α ω ε) (face : Interface κ ε η) (taken : κ → Option η)
    (trace : List (State Γ κ × Label α ω ε)) : List (Option Nat × η) :=
  trace.flatMap fun q => effect p face taken q.1 q.2

section Effects

variable {p : Program Γ κ α ω ε} {face : Interface κ ε η} {perform : η → σ → Option σ}
  {abs : Γ → σ} {Inv : State Γ κ → Prop} {ok : State Γ κ → Label α ω ε → Prop}
  {taken : κ → Option η}

theorem effects_append (front back : List (State Γ κ × Label α ω ε)) :
    effects p face taken (front ++ back) =
      effects p face taken front ++ effects p face taken back :=
  List.flatMap_append

theorem effects_snoc (front : List (State Γ κ × Label α ω ε)) (s : State Γ κ) (l : Label α ω ε) :
    effects p face taken (front ++ [(s, l)]) =
      effects p face taken front ++ effect p face taken s l := by
  simp [effects]

theorem takenAt_of_slot {s : State Γ κ} {i : Nat} {k : κ} (slot : s.calls i = some k) :
    takenAt taken s i = taken k := by
  rw [takenAt, slot, Option.bind_some]

/-- A call that has taken effect has no further event. -/
theorem effect_move_late {s : State Γ κ} {i : Nat} {outcome : ω} {k : κ} {e : η}
    (slot : s.calls i = some k) (late : taken k = some e) :
    effect p face taken s (.move i outcome) = [] := by
  rw [effect, takenAt_of_slot slot, late]

/-- A call that has not has the event with which it takes effect, if it does. -/
theorem effect_move_early {s : State Γ κ} {i : Nat} {outcome : ω} {k k' : κ} {g' : Γ}
    (slot : s.calls i = some k) (moved : p.move outcome s.globals k = some (g', k'))
    (early : taken k = none) :
    effect p face taken s (.move i outcome) = (taken k').toList.map fun e => (some i, e) := by
  have next : p.step s (.move i outcome) = some (s.put g' i k') := by
    rw [Program.step, slot, Option.bind_some, moved, Option.map_some]
  rw [effect, takenAt_of_slot slot, early, next, Option.bind_some,
    takenAt_of_slot (State.put_calls_self s g' i k')]

/-- What the events of a trace say about the state at its end. -/
structure Told (face : Interface κ ε η) (perform : η → σ → Option σ) (abs : Γ → σ)
    (taken : κ → Option η) (g : Γ) (front : List (State Γ κ × Label α ω ε)) (u : State Γ κ)
    (order : List (Option Nat × η)) : Prop where
  replays : replay perform (abs g) (order.map Prod.snd) = some (abs u.globals)
  told : ∀ i e, (some i, e) ∈ order ↔ takenAt taken u i = some e
  once : (order.filterMap Prod.fst).Nodup
  acts : (order.filter fun q => q.1.isNone).map Prod.snd = face.acts front

/-- A step that leaves the abstract value alone and with which no call takes effect. -/
theorem Told.quiet {g : Γ} {front : List (State Γ κ × Label α ω ε)} {s u : State Γ κ}
    {l : Label α ω ε} {order : List (Option Nat × η)}
    (told : Told face perform abs taken g front s order) (same : abs u.globals = abs s.globals)
    (kept : ∀ i, takenAt taken u i = takenAt taken s i) (noAct : face.acts [(s, l)] = []) :
    Told face perform abs taken g (front ++ [(s, l)]) u order where
  replays := by rw [same]; exact told.replays
  told i e := by rw [kept]; exact told.told i e
  once := told.once
  acts := by
    have whole : face.acts (front ++ [(s, l)]) = face.acts front ++ face.acts [(s, l)] :=
      List.filterMap_append
    rw [whole, noAct, List.append_nil]
    exact told.acts

/-- A step with which the call in slot `i` takes effect. -/
theorem Told.take {g : Γ} {front : List (State Γ κ × Label α ω ε)} {s u : State Γ κ}
    {i : Nat} {outcome : ω} {e : η} {order : List (Option Nat × η)}
    (told : Told face perform abs taken g front s order)
    (performed : perform e (abs s.globals) = some (abs u.globals))
    (before : takenAt taken s i = none) (after : takenAt taken u i = some e)
    (others : ∀ j, j ≠ i → takenAt taken u j = takenAt taken s j) :
    Told face perform abs taken g (front ++ [(s, .move i outcome)]) u (order ++ [(some i, e)]) where
  replays := by
    rw [List.map_append, replay_append told.replays]
    simp only [List.map_cons, List.map_nil, replay, performed, Option.bind_some]
  told j e' := by
    rw [List.mem_append, List.mem_singleton, told.told]
    by_cases same : j = i
    · subst same
      simp [before, after, eq_comm]
    · rw [others j same]
      simp [same]
  once := by
    have new : i ∉ order.filterMap Prod.fst := by
      intro member
      obtain ⟨⟨_, e'⟩, entry, rfl⟩ := List.mem_filterMap.mp member
      have earlier := (told.told i e').mp entry
      rw [before] at earlier
      cases earlier
    rw [List.filterMap_append]
    refine List.nodup_append.mpr ⟨told.once, List.nodup_singleton i, ?_⟩
    rintro j early _ last rfl
    cases List.mem_singleton.mp last
    exact new early
  acts := by
    have whole : face.acts (front ++ [(s, .move i outcome)]) = face.acts front := by
      simp [Interface.acts]
    rw [whole, List.filter_append, List.map_append]
    simpa using told.acts

/-- An act of the surroundings. -/
theorem Told.act {g : Γ} {front : List (State Γ κ × Label α ω ε)} {s u : State Γ κ} {e : ε}
    {order : List (Option Nat × η)} (told : Told face perform abs taken g front s order)
    (performed : replay perform (abs s.globals) (face.outside e).toList = some (abs u.globals))
    (kept : u.calls = s.calls) :
    Told face perform abs taken g (front ++ [(s, .env e)]) u
      (order ++ (face.outside e).toList.map fun e => (none, e)) where
  replays := by
    rw [List.map_append, replay_append told.replays, List.map_map]
    simpa [Function.comp_def] using performed
  told i e' := by
    rw [takenAt, kept, ← takenAt, ← told.told]
    simp
  once := by
    rw [List.filterMap_append]
    simpa [List.filterMap_map, Function.comp_def] using told.once
  acts := by
    rw [List.filter_append, List.map_append, told.acts]
    cases act : face.outside e <;> simp [Interface.acts, act]

/-- One step of the run adds its event. -/
theorem Points.step (points : Points p face perform abs Inv ok taken) {g : Γ}
    {front : List (State Γ κ × Label α ω ε)} {s u : State Γ κ} {l : Label α ω ε} (inv : Inv s)
    (allowed : ok s l) (moved : p.step s l = some u)
    (told : Told face perform abs taken g front s (effects p face taken front)) :
    Told face perform abs taken g (front ++ [(s, l)]) u
      (effects p face taken (front ++ [(s, l)])) := by
  rw [effects_snoc]
  cases Program.Step.of_step moved with
  | @start i arg vacant =>
      rw [effect, List.append_nil]
      refine told.quiet rfl (fun j => ?_) rfl
      by_cases same : j = i
      · subst same
        rw [takenAt_of_slot (State.put_calls_self ..), points.start, takenAt, vacant]
        rfl
      · rw [takenAt, takenAt, State.put_calls_of_ne _ _ _ same]
  | @move i outcome k k' g' slot access =>
      have others : ∀ j, j ≠ i → takenAt taken (s.put g' i k') j = takenAt taken s j := by
        intro j other
        rw [takenAt, takenAt, State.put_calls_of_ne _ _ _ other]
      have after : takenAt taken (s.put g' i k') i = taken k' :=
        takenAt_of_slot (State.put_calls_self ..)
      rcases points.move s i outcome k g' k' inv allowed slot access with
        ⟨kept, same⟩ | ⟨early, e, taking, performed⟩
      · have none : effect p face taken s (.move i outcome) = [] := by
          cases had : taken k with
          | none => rw [effect_move_early slot access had, kept, had]; rfl
          | some e => exact effect_move_late slot had
        rw [none, List.append_nil]
        refine told.quiet same (fun j => ?_) rfl
        by_cases own : j = i
        · rw [own, after, kept, takenAt_of_slot slot]
        · exact others j own
      · rw [effect_move_early slot access early, taking]
        exact told.take performed ((takenAt_of_slot slot).trans early) (after.trans taking) others
  | @env e => exact told.act (points.env e s.globals) rfl

/-- The events of a run tell what has become of its calls. -/
theorem Points.told (points : Points p face perform abs Inv ok taken) {g : Γ}
    (invariant : ∀ t trace, Run p.step (.idle g) trace t → Meets ok trace → Inv t)
    {trace : List (State Γ κ × Label α ω ε)} {t : State Γ κ} (run : Run p.step (.idle g) trace t)
    (meets : Meets ok trace) :
    Told face perform abs taken g trace t (effects p face taken trace) := by
  induction run with
  | refl => exact ⟨rfl, fun _ _ => ⟨nofun, nofun⟩, List.nodup_nil, rfl⟩
  | snoc front edge ih =>
      obtain ⟨before, last⟩ := meets_append.mp meets
      exact points.step (invariant _ _ front before) (meets_singleton.mp last) edge (ih before)

/-- **Calls with such points are linearizable.** -/
theorem Points.linearizes (points : Points p face perform abs Inv ok taken) {g : Γ}
    (invariant : ∀ t trace, Run p.step (.idle g) trace t → Meets ok trace → Inv t)
    {trace : List (State Γ κ × Label α ω ε)} {t : State Γ κ} (meets : Meets ok trace) :
    Linearizes p face perform abs g trace t (effects p face taken trace) := by
  rintro front u back first - rfl
  obtain ⟨before, -⟩ := meets_append.mp meets
  have inv := invariant u front first before
  have told := points.told invariant first before
  refine ⟨_, _, effects_append front back, told.replays, fun i k e slot done => ?_,
    fun i e member => ?_, told.once, told.acts⟩
  · apply (told.told i e).mpr
    rw [takenAt_of_slot slot]
    exact points.done u i k e inv slot done
  · obtain ⟨k, slot, taking⟩ := Option.bind_eq_some_iff.mp ((told.told i e).mp member)
    exact ⟨k, slot, points.asks u i k e inv slot taking⟩

end Effects

/-! ## The atomic register -/

/-- What can happen to a register: it is set, its value is delivered, or nothing. -/
inductive Access (β : Type*) where
  | store (v : β)
  | load (v : β)
  | idle
  deriving DecidableEq

/-- A load delivers the value the register has. -/
def Access.perform {β : Type*} [DecidableEq β] : Access β → β → Option β
  | .store v, _ => some v
  | .load v, s => if v = s then some s else none
  | .idle, s => some s

/-- The value of the last store, or else the given one. -/
def lastStored {β : Type*} (s : β) : List (Access β) → β
  | [] => s
  | .store v :: events => lastStored v events
  | .load _ :: events | .idle :: events => lastStored s events

/-- A register has the value that was stored last. -/
theorem replay_register {β : Type*} [DecidableEq β] {s t : β} {events : List (Access β)}
    (done : replay Access.perform s events = some t) : t = lastStored s events := by
  induction events generalizing s with
  | nil =>
      cases done
      rfl
  | cons e events ih =>
      obtain ⟨u, first, rest⟩ := Option.bind_eq_some_iff.mp done
      cases e with
      | store v => cases first; exact ih rest
      | load v =>
          simp only [Access.perform] at first
          split at first
          · cases first
            exact ih rest
          · cases first
      | idle => cases first; exact ih rest

/-- A load delivers the value that was stored last before it. -/
theorem replay_load {β : Type*} [DecidableEq β] {s t v : β} {front back : List (Access β)}
    (done : replay Access.perform s (front ++ .load v :: back) = some t) :
    v = lastStored s front := by
  have split : ∃ u, replay Access.perform s front = some u := by
    induction front generalizing s with
    | nil => exact ⟨s, rfl⟩
    | cons e front ih =>
        obtain ⟨u, first, rest⟩ := Option.bind_eq_some_iff.mp done
        obtain ⟨w, reached⟩ := ih rest
        exact ⟨w, by rw [replay, first]; exact reached⟩
  obtain ⟨u, reached⟩ := split
  rw [replay_append reached] at done
  obtain ⟨w, loaded, -⟩ := Option.bind_eq_some_iff.mp done
  rw [← replay_register reached]
  simp only [Access.perform] at loaded
  split at loaded
  · assumption
  · cases loaded

theorem lastStored_append {β : Type*} (s : β) (front back : List (Access β)) :
    lastStored s (front ++ back) = lastStored (lastStored s front) back := by
  induction front generalizing s with
  | nil => rfl
  | cons e front ih => cases e <;> exact ih _

/-- It is the given value or one that was stored. -/
theorem lastStored_cases {β : Type*} (s : β) (events : List (Access β)) :
    lastStored s events = s ∨ .store (lastStored s events) ∈ events := by
  induction events generalizing s with
  | nil => exact Or.inl rfl
  | cons e events ih =>
      cases e with
      | store v =>
          rcases ih v with same | later
          · exact Or.inr (by rw [lastStored, same]; exact List.mem_cons_self)
          · exact Or.inr (List.mem_cons_of_mem _ later)
      | load v | idle => exact (ih s).imp id (List.mem_cons_of_mem _)

/-- The calls of the run seem to act on a register one after another: it has at the end
what they stored last, and every read delivers what was stored last before it. -/
def Atomic {β : Type*} [DecidableEq β] (p : Program Γ κ α ω ε) (face : Interface κ ε (Access β))
    (abs : Γ → β) (g : Γ) (trace : List (State Γ κ × Label α ω ε)) (t : State Γ κ) : Prop :=
  ∃ order, Linearizes p face Access.perform abs g trace t order ∧
    abs t.globals = lastStored (abs g) (order.map Prod.snd) ∧
    ∀ front i v back, order = front ++ (some i, .load v) :: back →
      v = lastStored (abs g) (front.map Prod.snd)

/-- **Calls on a register with such points act on it one after another.** -/
theorem Points.atomic {β : Type*} [DecidableEq β] {p : Program Γ κ α ω ε}
    {face : Interface κ ε (Access β)} {abs : Γ → β} {Inv : State Γ κ → Prop}
    {ok : State Γ κ → Label α ω ε → Prop} {taken : κ → Option (Access β)}
    (points : Points p face Access.perform abs Inv ok taken) {g : Γ}
    (invariant : ∀ t trace, Run p.step (.idle g) trace t → Meets ok trace → Inv t)
    {trace : List (State Γ κ × Label α ω ε)} {t : State Γ κ} (run : Run p.step (.idle g) trace t)
    (meets : Meets ok trace) : Atomic p face abs g trace t := by
  have told := points.told invariant run meets
  refine ⟨_, points.linearizes invariant meets, replay_register told.replays, ?_⟩
  rintro front i v back split
  have replays := told.replays
  rw [split, List.map_append, List.map_cons] at replays
  exact replay_load replays

/-! ### What a read may deliver -/

/-- A beginning of a list without one of its members ends before that. -/
theorem prefix_before {ρ : Type*} {b x y : List ρ} {a : ρ} (start : b <+: x ++ a :: y)
    (absent : a ∉ b) : b <+: x := by
  rcases List.prefix_or_prefix_of_prefix start (List.prefix_append x (a :: y)) with within | past
  · exact within
  · obtain ⟨r, rfl⟩ := past
    have tail := (List.prefix_append_right_inj x).mp start
    cases r with
    | nil => exact ⟨[], by rw [List.append_nil, List.append_nil]⟩
    | cons c r =>
        obtain ⟨rfl, -⟩ := List.cons_prefix_cons.mp tail
        exact (absent (List.mem_append_right x List.mem_cons_self)).elim

/-- A slot without a call has no event. -/
theorem Accounts.absent {face : Interface κ ε η} {perform : η → σ → Option σ} {abs : Γ → σ} {g : Γ}
    {front : List (State Γ κ × Label α ω ε)} {u : State Γ κ} {order : List (Option Nat × η)}
    (accounts : Accounts face perform abs g front u order) {i : Nat} (vacant : u.calls i = none)
    (e : η) : (some i, e) ∉ order := by
  intro member
  obtain ⟨k, slot, -⟩ := accounts.asked i e member
  rw [vacant] at slot
  cases slot

/-- A call has its event once. -/
theorem event_apart {front back : List (Option Nat × η)}
    (once : ((front ++ back).filterMap Prod.fst).Nodup) {n : Nat} {e e' : η}
    (left : (some n, e) ∈ front) (right : (some n, e') ∈ back) : False := by
  rw [List.filterMap_append] at once
  have disjoint := (List.nodup_append.mp once).2.2
  exact disjoint n (List.mem_filterMap.mpr ⟨_, left, rfl⟩) n
    (List.mem_filterMap.mpr ⟨_, right, rfl⟩) rfl

/-- The order of two calls, of which one begins after the other has returned, and of
what had returned before either: `early` are the events at a state `s`, and then come
the event of the call in slot `i`, which begins after `s`, and that of the call in slot
`j`, which begins in `u`. -/
theorem Linearizes.arranged {p : Program Γ κ α ω ε} {face : Interface κ ε η}
    {perform : η → σ → Option σ} {abs : Γ → σ} {g : Γ}
    {first middle last : List (State Γ κ × Label α ω ε)} {s u t : State Γ κ}
    {order : List (Option Nat × η)}
    (linear : Linearizes p face perform abs g (first ++ (middle ++ last)) t order)
    (begins : Run p.step (.idle g) first s) (writes : Run p.step s middle u)
    (reads : Run p.step u last t) {i j : Nat} {k k' : κ} {e e' : η} (fresh : s.calls i = none)
    (write : u.calls i = some k) (written : face.done k = some e) (vacant : u.calls j = none)
    (read : t.calls j = some k') (delivered : face.done k' = some e') :
    ∃ early between gap back rest,
      order = early ++ (between ++ (some i, e) :: (gap ++ (some j, e') :: (back ++ rest))) ∧
      Accounts face perform abs g first s early ∧
      Accounts face perform abs g (first ++ (middle ++ last)) t
        (early ++ (between ++ (some i, e) :: (gap ++ (some j, e') :: back))) := by
  obtain ⟨early, early', orderEarly, atStart⟩ := linear _ s _ begins (writes.trans reads) rfl
  obtain ⟨half, half', orderHalf, atWrite⟩ := linear _ u _ (begins.trans writes) reads
    (List.append_assoc ..).symm
  obtain ⟨whole, rest, orderWhole, atRead⟩ := linear _ t _
    (begins.trans (writes.trans reads)) .refl (List.append_nil _).symm
  obtain ⟨front, back, split⟩ := List.append_of_mem (atRead.answered j k' _ read delivered)
  have halfFront : half <+: front := by
    refine prefix_before (a := (some j, e')) (y := back ++ rest) ?_ (atWrite.absent vacant _)
    rw [← List.cons_append, ← List.append_assoc, ← split, ← orderWhole, orderHalf]
    exact List.prefix_append ..
  obtain ⟨gap', rfl⟩ := halfFront
  obtain ⟨before, gap, rfl⟩ := List.append_of_mem (atWrite.answered i k _ write written)
  have earlyBefore : early <+: before := by
    refine prefix_before (a := (some i, e)) (y := gap ++ half') ?_ (atStart.absent fresh _)
    rw [← List.cons_append, ← List.append_assoc, ← orderHalf, orderEarly]
    exact List.prefix_append ..
  obtain ⟨between, rfl⟩ := earlyBefore
  have same : whole =
      early ++ (between ++ (some i, e) :: ((gap ++ gap') ++ (some j, e') :: back)) := by
    rw [split]
    simp only [List.append_assoc, List.cons_append]
  refine ⟨early, between, gap ++ gap', back, rest, ?_, atStart, same ▸ atRead⟩
  rw [orderWhole, same]
  simp only [List.append_assoc, List.cons_append]

/-- **A read delivers a recent value.** Let a write begin in `s` and have returned in
`u`, and a read begin after that and have returned in `t`. Then the read delivers the
value of that write, or a value stored since `s`: by another call that had not returned
there, or by an act of the surroundings. -/
theorem Atomic.recent {β : Type*} [DecidableEq β] {p : Program Γ κ α ω ε}
    {face : Interface κ ε (Access β)} {abs : Γ → β} {g : Γ}
    {first middle last : List (State Γ κ × Label α ω ε)} {s u t : State Γ κ}
    (atomic : Atomic p face abs g (first ++ (middle ++ last)) t)
    (begins : Run p.step (.idle g) first s) (writes : Run p.step s middle u)
    (reads : Run p.step u last t) {i j : Nat} {k k' : κ} {w v : β} (fresh : s.calls i = none)
    (write : u.calls i = some k) (written : face.done k = some (.store w))
    (vacant : u.calls j = none) (read : t.calls j = some k')
    (delivered : face.done k' = some (.load v)) :
    v = w ∨
      (∃ n c, n ≠ i ∧ t.calls n = some c ∧ face.asks c (.store v) ∧
        ∀ c₀, s.calls n = some c₀ → face.done c₀ = none) ∨
      .store v ∈ face.acts (middle ++ last) := by
  obtain ⟨order, linear, -, loads⟩ := atomic
  obtain ⟨early, between, gap, back, rest, split, atStart, atRead⟩ :=
    linear.arranged begins writes reads fresh write written vacant read delivered
  have value : v = lastStored w (gap.map Prod.snd) := by
    rw [loads (early ++ (between ++ (some i, .store w) :: gap)) j v (back ++ rest)
      (by rw [split]; simp only [List.append_assoc, List.cons_append])]
    simp only [List.map_append, List.map_cons, lastStored_append, lastStored]
  rcases lastStored_cases w (gap.map Prod.snd) with same | stored
  · exact Or.inl (value.trans same)
  rw [← value] at stored
  obtain ⟨⟨slot, _⟩, member, rfl⟩ := List.mem_map.mp stored
  have afterEarly : (slot, Access.store v) ∈
      between ++ (some i, .store w) :: (gap ++ (some j, .load v) :: back) :=
    List.mem_append_right _ (List.mem_cons_of_mem _ (List.mem_append_left _ member))
  cases slot with
  | some n =>
      obtain ⟨c, running, asks⟩ := atRead.asked n _ (List.mem_append_right _ afterEarly)
      refine Or.inr (Or.inl ⟨n, c, ?_, running, asks, fun c₀ slot => ?_⟩)
      · rintro rfl
        have once := atRead.once
        rw [← List.append_assoc, List.append_cons] at once
        exact event_apart once (List.mem_append_right _ (List.mem_singleton_self _))
          (List.mem_append_left _ member)
      · by_contra returned
        obtain ⟨e, done⟩ := Option.ne_none_iff_exists'.mp returned
        exact event_apart atRead.once (atStart.answered n c₀ e slot done) afterEarly
  | none =>
      have acts := atRead.acts
      have later : face.acts (first ++ (middle ++ last)) =
          face.acts first ++ face.acts (middle ++ last) := List.filterMap_append
      rw [List.filter_append, List.map_append, atStart.acts, later] at acts
      right
      right
      rw [← List.append_cancel_left acts]
      exact List.mem_map.mpr ⟨_, List.mem_filter.mpr ⟨afterEarly, rfl⟩, rfl⟩

end Interleaving
