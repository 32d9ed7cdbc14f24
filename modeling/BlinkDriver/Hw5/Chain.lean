import BlinkDriver.Hw5.Teardown

/-!
# One chain of callbacks

`example5_open` sets the timer up if `openTracker` is zero and sets `openTracker`
only after it has armed the timer. Two opens that both find it zero initialise
the timer twice, the second time while it is armed or its callback is running:
`timer_set_up_twice` is such a run.

`one_chain` says that between a load and the next exit this is the only way to
break the chain: if no open tests `openTracker` while another one is between its
test and its assignment, the timer is set up at most once, while it is off, it is
armed only after that, and from the first completed open on it is armed whenever
the callback is not running. `Stage` is the invariant: the chain has not been
touched, one open is starting it, or it is beating.
-/

namespace BlinkDriver.Hw5

open Transition

/-- The state right after the module has been loaded. -/
def State.loaded (ledctl blinkRate : BitVec 32) : State :=
  { State.off ledctl with g := (State.off ledctl).g.loaded blinkRate, phase := .live }

/-- An open that has found `openTracker` zero and has not set it yet. -/
def Call.starting : Call → Bool
  | .opening .setup | .opening .arm | .opening .setTracker => true
  | _ => false

/-- An open that has completed. -/
def Call.hasOpened : Call → Bool
  | .opening .returned | .closed => true
  | _ => false

/-- The step is `timer_setup`. -/
def SetsUp (s : State) (l : Label) : Prop :=
  ∃ i ok, l = .move i ok ∧ s.calls[i]? = some (.opening .setup)

/-- The step is `mod_timer`, by an open or by the callback. -/
def Arms (s : State) (l : Label) : Prop :=
  (∃ i ok, l = .move i ok ∧ s.calls[i]? = some (.opening .arm)) ∨
    (l = .callbackStep ∧ s.callback = some .arm)

/-- The timer is set up at most once, and only while it is off; it is armed only
after that; and once an open has completed it is armed whenever the callback is
not running. -/
structure OneChain (trace : List (State × Label)) (t : State) : Prop where
  once : ∀ u ∈ visited trace t, u.g.timer.setups ≤ 1
  setup : Meets (fun s l => SetsUp s l → s.g.timer.armed = none ∧ s.callback = none) trace
  arm : Meets (fun s l => Arms s l → 0 < s.g.timer.setups) trace
  beats : ∀ u ∈ visited trace t, u.calls.any Call.hasOpened → u.callback = none →
    u.g.timer.armed.isSome

/-- An open that tests `openTracker` and finds it zero is not overtaking another
one on its way from that test to the assignment. -/
def StartsAlone (s : State) : Label → Prop
  | .move i _ => s.calls[i]? = some (.opening .testTracker) → s.g.openTracker = 0 →
      ∀ c ∈ s.calls, c.starting = false
  | _ => True

/-- The module is not asked to exit. -/
def Stays (_ : State) (l : Label) : Prop := l ≠ .exit

instance (s : State) : ∀ l, Decidable (StartsAlone s l)
  | .move i _ =>
      inferInstanceAs (Decidable (s.calls[i]? = some (.opening .testTracker) →
        s.g.openTracker = 0 → ∀ c ∈ s.calls, c.starting = false))
  | .load _ | .setParam _ | .probe | .probeStep _ | .unbind | .removeStep | .start _ | .close _
  | .expire _ | .callbackStep | .exit | .exitStep => inferInstanceAs (Decidable True)

instance (s : State) (l : Label) : Decidable (Stays s l) := inferInstanceAs (Decidable (l ≠ .exit))

/-! ## The invariant -/

/-- The timer has been set up once and the chain of callbacks goes on: the timer
is armed, or the callback is running and has yet to arm it. -/
structure Beating (s : State) : Prop where
  setups : s.g.timer.setups = 1
  stale : s.g.timer.stale = 0
  alive : s.g.timer.Alive (∃ pc, s.callback = some pc ∧ pc ≠ .finish)

/-- How far the open that starts the chain has got. -/
def Progress (s : State) : OpenPc → Prop
  | .setup => s.g.timer = .blank ∧ s.callback = none
  | .arm => s.g.timer = Timer.blank.setup ∧ s.callback = none
  | .setTracker => Beating s
  | _ => False

/-- The chain has not been touched, one open is starting it, or it is beating. -/
inductive Stage (s : State) : Prop
  | untouched (tracker : s.g.openTracker = 0) (starts : ∀ c ∈ s.calls, c.starting = false)
      (unopened : ∀ c ∈ s.calls, c.hasOpened = false) (timer : s.g.timer = .blank)
      (rest : s.callback = none) : Stage s
  | starting {i : Nat} {pc : OpenPc} (tracker : s.g.openTracker = 0)
      (slot : s.calls[i]? = some (.opening pc))
      (only : ∀ j c, s.calls[j]? = some c → c.starting = true → j = i)
      (unopened : ∀ c ∈ s.calls, c.hasOpened = false) (progress : Progress s pc) : Stage s
  | beating (tracker : s.g.openTracker ≠ 0) (starts : ∀ c ∈ s.calls, c.starting = false)
      (beating : Beating s) : Stage s

/-- What has to hold of a state for the law. -/
structure ChainInv (s : State) : Prop where
  live : s.phase = .live
  stage : Stage s

theorem chainInv_loaded (ledctl blinkRate : BitVec 32) : ChainInv (.loaded ledctl blinkRate) where
  live := rfl
  stage := .untouched rfl nofun nofun rfl rfl

theorem Progress.starting {s : State} {pc : OpenPc} (progress : Progress s pc) :
    (Call.opening pc).starting = true := by
  cases pc with
  | setup | arm | setTracker => rfl
  | _ => exact progress.elim

/-! ## Steps that leave the chain alone -/

/-- No open has begun or ended its way from the test of `openTracker` to the
assignment, and none has completed that had not before. -/
structure SameStarts (before after : List Call) : Prop where
  kept : ∀ (i : Nat) (c : Call), before[i]? = some c → c.starting = true → after[i]? = some c
  old : ∀ (i : Nat) (c : Call), after[i]? = some c → c.starting = true → before[i]? = some c
  unopened : (∀ c ∈ before, c.hasOpened = false) → ∀ c ∈ after, c.hasOpened = false

theorem SameStarts.refl (calls : List Call) : SameStarts calls calls :=
  ⟨fun _ _ slot _ => slot, fun _ _ slot _ => slot, id⟩

/-- A new call has not come to the test. -/
theorem SameStarts.append (calls : List Call) (request : Request) :
    SameStarts calls (calls ++ [request.call]) where
  kept i c slot _ := by
    obtain ⟨inside, -⟩ := List.getElem?_eq_some_iff.mp slot
    rwa [List.getElem?_append_left inside]
  old i c slot starts := by
    rcases Nat.lt_or_ge i calls.length with inside | outside
    · rwa [List.getElem?_append_left inside] at slot
    · rw [List.getElem?_append_right outside] at slot
      obtain rfl := List.mem_singleton.mp (List.mem_of_getElem? slot)
      cases request <;> cases starts
  unopened none c member := by
    rcases List.mem_append.mp member with before | new
    · exact none c before
    · obtain rfl := List.mem_singleton.mp new
      cases request <;> rfl

theorem SameStarts.set {calls : List Call} {i : Nat} {c c' : Call} (slot : calls[i]? = some c)
    (before : c.starting = false) (after : c'.starting = false)
    (opened : c.hasOpened = false → c'.hasOpened = false) : SameStarts calls (calls.set i c') where
  kept j d slot' starts := by
    have other : i ≠ j := by
      intro same
      subst same
      obtain rfl := Option.some.inj (slot.symm.trans slot')
      exact absurd (before.symm.trans starts) nofun
    rwa [List.getElem?_set_ne other]
  old j d slot' starts := by
    by_cases same : i = j
    · subst same
      obtain ⟨inside, -⟩ := List.getElem?_eq_some_iff.mp slot
      rw [List.getElem?_set_self inside] at slot'
      obtain rfl := Option.some.inj slot'
      exact absurd (after.symm.trans starts) nofun
    · rwa [List.getElem?_set_ne same] at slot'
  unopened none d member := by
    rcases List.mem_or_eq_of_mem_set member with kept | rfl
    · exact none d kept
    · exact opened (none c (List.mem_of_getElem? slot))

theorem SameStarts.starts {before after : List Call} (same : SameStarts before after)
    (none : ∀ c ∈ before, c.starting = false) : ∀ c ∈ after, c.starting = false := by
  intro c member
  by_contra starts
  obtain ⟨i, slot⟩ := List.mem_iff_getElem?.mp member
  rw [Bool.not_eq_false] at starts
  have found := none c (List.mem_of_getElem? (same.old i c slot starts))
  exact absurd (found.symm.trans starts) nofun

section Step

variable {s t : State} {l : Label}

theorem Beating.congr (beating : Beating s) (timer : t.g.timer = s.g.timer)
    (callback : t.callback = s.callback) : Beating t := by
  obtain ⟨setups, stale, alive⟩ := beating
  rw [← timer] at setups stale alive
  rw [← callback] at alive
  exact ⟨setups, stale, alive⟩

theorem Progress.congr {pc : OpenPc} (progress : Progress s pc) (timer : t.g.timer = s.g.timer)
    (callback : t.callback = s.callback) : Progress t pc := by
  cases pc with
  | setup | arm => exact ⟨timer.trans progress.1, callback.trans progress.2⟩
  | setTracker => exact Beating.congr progress timer callback
  | _ => exact progress.elim

theorem Stage.keep (stage : Stage s) (same : SameStarts s.calls t.calls)
    (tracker : t.g.openTracker = s.g.openTracker) (timer : t.g.timer = s.g.timer)
    (callback : t.callback = s.callback) : Stage t := by
  cases stage with
  | untouched untracked starts unopened blank rest =>
      exact .untouched (tracker.trans untracked) (same.starts starts) (same.unopened unopened)
        (timer.trans blank) (callback.trans rest)
  | @starting i pc untracked slot only unopened progress =>
      refine .starting (tracker.trans untracked) (same.kept i _ slot progress.starting)
        (fun j c slot starts => ?_) (same.unopened unopened) (progress.congr timer callback)
      exact only j c (same.old j c slot starts) starts
  | beating tracked starts beating =>
      exact .beating (tracker ▸ tracked) (same.starts starts) (beating.congr timer callback)

/-- An expiry or a statement of the callback: the chain has been started. -/
theorem Stage.pulse (stage : Stage s) (running : ¬ s.TimerOff) (calls : t.calls = s.calls)
    (tracker : t.g.openTracker = s.g.openTracker) (pulse : Beating s → Beating t) : Stage t := by
  cases stage with
  | untouched _ _ _ blank rest =>
      refine (running ⟨?_, rest⟩).elim
      rw [blank]
      exact Timer.quiet_blank
  | @starting i pc untracked slot only unopened progress =>
      rw [← calls] at slot only unopened
      refine .starting (tracker.trans untracked) slot only unopened ?_
      cases pc with
      | setup =>
          refine (running ⟨?_, progress.2⟩).elim
          rw [progress.1]
          exact Timer.quiet_blank
      | arm =>
          refine (running ⟨?_, progress.2⟩).elim
          rw [progress.1]
          exact Timer.quiet_blank.setup
      | setTracker => exact pulse progress
      | _ => exact progress.elim
  | beating tracked starts beating =>
      rw [← calls] at starts
      exact .beating (tracker ▸ tracked) starts (pulse beating)

/-! ## Steps of the chain -/

theorem Beating.expire {entry : Timer.Entry} {timer : Timer (BitVec 32)} (beating : Beating s)
    (fired : s.g.timer.fire entry = some timer) :
    Beating { s with g := { s.g with timer }, callback := some .toggle } := by
  rcases Timer.fire_cases fired with ⟨-, -, rfl⟩ | ⟨-, pending, -⟩
  · exact ⟨beating.setups, beating.stale, Or.inr ⟨.toggle, rfl, nofun⟩⟩
  · exact (pending beating.stale).elim

theorem Beating.callback {pc : CallbackPc} (beating : Beating s) (running : s.callback = some pc) :
    Beating { s with g := (myCallback s.g pc).1, callback := (myCallback s.g pc).2 } := by
  obtain ⟨setups, stale, alive⟩ := beating
  cases pc with
  | toggle => exact ⟨setups, stale, Or.inr ⟨.writeLed, rfl, nofun⟩⟩
  | writeLed => exact ⟨setups, stale, Or.inr ⟨.arm, rfl, nofun⟩⟩
  | arm => exact ⟨setups, stale, Or.inl rfl⟩
  | finish =>
      refine ⟨setups, stale, Or.inl (alive.resolve_right ?_)⟩
      rintro ⟨pc, running', other⟩
      exact other (Option.some.inj (running'.symm.trans running))

/-- Only the open that is starting the chain makes the statements of a start. -/
theorem Stage.of_starting (stage : Stage s) {i : Nat} {pc : OpenPc}
    (slot : s.calls[i]? = some (.opening pc)) (starts : (Call.opening pc).starting = true) :
    s.g.openTracker = 0 ∧ Progress s pc ∧ (∀ c ∈ s.calls, c.hasOpened = false) ∧
      ∀ j c, s.calls[j]? = some c → c.starting = true → j = i := by
  cases stage with
  | untouched _ none => exact absurd ((none _ (List.mem_of_getElem? slot)).symm.trans starts) nofun
  | @starting j pc' tracker slot' only unopened progress =>
      have same := only i _ slot starts
      subst same
      cases Option.some.inj (slot.symm.trans slot')
      exact ⟨tracker, progress, unopened, only⟩
  | beating _ none => exact absurd ((none _ (List.mem_of_getElem? slot)).symm.trans starts) nofun

/-- The open that is starting the chain has got further. -/
theorem Stage.advance {i : Nat} {c : Call} {pc : OpenPc} (slot : s.calls[i]? = some c)
    (tracker : t.g.openTracker = 0) (calls : t.calls = s.calls.set i (.opening pc))
    (only : ∀ j d, s.calls[j]? = some d → d.starting = true → j = i)
    (unopened : ∀ c ∈ s.calls, c.hasOpened = false) (progress : Progress t pc) : Stage t := by
  obtain ⟨inside, -⟩ := List.getElem?_eq_some_iff.mp slot
  refine .starting tracker (i := i) ?_ (fun j d slot' starts => ?_) (fun d member => ?_) progress
  · rw [calls, List.getElem?_set_self inside]
  · by_contra other
    rw [calls, List.getElem?_set_ne (Ne.symm other)] at slot'
    exact other (only j d slot' starts)
  · rw [calls] at member
    rcases List.mem_or_eq_of_mem_set member with before | rfl
    · exact unopened d before
    · have starts := progress.starting
      cases pc with
      | setup | arm | setTracker => rfl
      | _ => cases starts

/-- A statement of a call, if a test of `openTracker` that succeeds overtakes
nobody. -/
theorem Stage.move (stage : Stage s) {i : Nat} {g' : Globals} {c c' : Call}
    (alone : s.calls[i]? = some (.opening .testTracker) → s.g.openTracker = 0 →
      ∀ c ∈ s.calls, c.starting = false)
    (slot : s.calls[i]? = some c) (statement : CallStep s.g c g' c') :
    Stage { s with g := g', calls := s.calls.set i c' } := by
  cases statement with
  | opening statement =>
      cases statement with
      | stage after =>
          rcases after with rfl | ⟨pc', rfl⟩
          · exact stage.keep (.set slot rfl rfl id) rfl rfl rfl
          · exact stage.keep (.set slot rfl rfl id) rfl rfl rfl
      | clearLed => exact stage.keep (.set slot rfl rfl id) rfl rfl rfl
      | first untracked =>
          have none := alone slot untracked
          cases stage with
          | untouched tracker _ unopened timer rest =>
              refine Stage.advance slot tracker rfl (fun j d slot' starts => ?_) unopened
                ⟨timer, rest⟩
              have idle := none d (List.mem_of_getElem? slot')
              exact absurd (idle.symm.trans starts) nofun
          | starting _ slot' _ _ progress =>
              have idle := none _ (List.mem_of_getElem? slot')
              exact absurd (idle.symm.trans progress.starting) nofun
          | beating tracked => exact (tracked untracked).elim
      | later tracked =>
          cases stage with
          | untouched tracker => exact (tracked tracker).elim
          | starting tracker => exact (tracked tracker).elim
          | beating _ starts beating =>
              refine .beating tracked (fun d member => ?_) (beating.congr rfl rfl)
              rcases List.mem_or_eq_of_mem_set member with before | rfl
              · exact starts d before
              · rfl
      | setup =>
          obtain ⟨tracker, ⟨timer, rest⟩, unopened, only⟩ := stage.of_starting slot rfl
          exact Stage.advance slot tracker rfl only unopened ⟨congrArg Timer.setup timer, rest⟩
      | arm =>
          obtain ⟨tracker, ⟨timer, rest⟩, unopened, only⟩ := stage.of_starting slot rfl
          refine Stage.advance slot tracker rfl only unopened ⟨?_, ?_, Or.inl rfl⟩
          · exact congrArg Timer.setups timer
          · exact congrArg Timer.stale timer
      | setTracker =>
          obtain ⟨-, beating, -, only⟩ := stage.of_starting slot rfl
          refine .beating (by decide : (1 : BitVec 32) ≠ 0) (fun d member => ?_)
            (Beating.congr beating rfl rfl)
          obtain ⟨j, slot'⟩ := List.mem_iff_getElem?.mp member
          obtain ⟨inside, -⟩ := List.getElem?_eq_some_iff.mp slot
          by_cases same : i = j
          · subst same
            rw [List.getElem?_set_self inside] at slot'
            cases slot'
            rfl
          · rw [List.getElem?_set_ne same] at slot'
            by_contra starts
            exact same (only j d slot' (Bool.not_eq_false _ ▸ starts)).symm
  | reading => exact stage.keep (.set slot rfl rfl id) rfl rfl rfl
  | writing => exact stage.keep (.set slot rfl rfl id) rfl rfl rfl

theorem probe_openTracker (ok : Bool) (g : Globals) (pc : ProbePc) :
    (probe ok g pc).1.openTracker = g.openTracker := by
  cases pc with
  | map => cases ok <;> rfl
  | _ => rfl

theorem ChainInv.step (inv : ChainInv s) (alone : StartsAlone s l) (stays : Stays s l)
    (moved : Step s l t) : ChainInv t := by
  obtain ⟨live, stage⟩ := inv
  cases moved with
  | load phase => exact absurd (live.symm.trans phase) nofun
  | setParam => exact ⟨live, stage.keep (.refl _) rfl rfl rfl⟩
  | probe => exact ⟨live, stage.keep (.refl _) rfl rfl rfl⟩
  | @probeStep ok pc pci =>
      exact ⟨live, stage.keep (.refl _) (probe_openTracker ok s.g pc) (probe_timer ok s.g pc) rfl⟩
  | unbind => exact ⟨live, stage.keep (.refl _) rfl rfl rfl⟩
  | @removeStep pc pci =>
      exact ⟨live, stage.keep (.refl _) (by cases pc <;> rfl) (remove_timer s.g pc) rfl⟩
  | @start request => exact ⟨live, stage.keep (.append s.calls request) rfl rfl rfl⟩
  | move slot statement => exact ⟨live, stage.move alone slot statement⟩
  | close slot =>
      exact ⟨live, stage.keep (.set slot rfl rfl fun same => by cases same) rfl rfl rfl⟩
  | @expire entry timer rest fired =>
      have running : ¬ s.TimerOff := fun off => by
        have none := off.1.fire entry
        rw [fired] at none
        cases none
      exact ⟨live, stage.pulse running rfl rfl fun beating => beating.expire fired⟩
  | @callback pc running =>
      have on : ¬ s.TimerOff := fun off => by
        have none := off.2
        rw [running] at none
        cases none
      exact ⟨live, stage.pulse on rfl (by cases pc <;> rfl) fun beating => beating.callback running⟩
  | exit => exact (stays rfl).elim
  | exitStep statement =>
      cases statement with
      | delTimer phase | remove phase | unregister phase | cleanup phase =>
          rw [live] at phase
          cases phase

end Step

/-! ## Whole runs -/

section Runs

variable {ledctl blinkRate : BitVec 32} {s t : State} {trace : List (State × Label)}

/-- How often the timer has been set up tells the stage. -/
theorem Stage.setups (stage : Stage s) : s.g.timer.setups ≤ 1 := by
  cases stage with
  | untouched _ _ _ timer =>
      rw [timer]
      exact Nat.zero_le 1
  | @starting i pc _ _ _ _ progress =>
      cases pc with
      | setup =>
          rw [progress.1]
          exact Nat.zero_le 1
      | arm =>
          rw [progress.1]
          exact Nat.le_refl 1
      | setTracker => exact Nat.le_of_eq (Beating.setups progress)
      | _ => exact progress.elim
  | beating _ _ beating => exact Nat.le_of_eq beating.setups

/-- While the timer has not been set up the callback does not run. -/
theorem Stage.of_callback (stage : Stage s) (running : s.callback ≠ none) : Beating s := by
  cases stage with
  | untouched _ _ _ _ rest => exact (running rest).elim
  | @starting i pc _ _ _ _ progress =>
      cases pc with
      | setup | arm => exact (running progress.2).elim
      | setTracker => exact progress
      | _ => exact progress.elim
  | beating _ _ beating => exact beating

theorem chainInv_of_run (run : Run step (.loaded ledctl blinkRate) trace t)
    (alone : Meets StartsAlone trace) (stays : Meets Stays trace) :
    ∀ u ∈ visited trace t, ChainInv u :=
  run.invariant_visited
    (fun _ _ _ inv allowed moved => ChainInv.step inv allowed.1 allowed.2 (Step.of_step moved))
    (alone.and stays) (chainInv_loaded ledctl blinkRate)

/-- **One chain of callbacks.** In every run between a load and the next exit, of
any number of opens, reads, writes, expiries, probes and unbinds interleaved
statement by statement, in which no open finds `openTracker` zero while another
is on its way from its test to its assignment, the timer is set up at most once
and only while it is off, it is armed only after that, and once an open has
completed it is armed whenever the callback is not running. -/
theorem one_chain (run : Run step (.loaded ledctl blinkRate) trace t)
    (stays : Meets Stays trace) (alone : Meets StartsAlone trace) : OneChain trace t := by
  have inv := chainInv_of_run run alone stays
  have before : ∀ p ∈ trace, Stage p.1 := fun p member =>
    (inv p.1 (mem_visited_of_mem member)).stage
  refine ⟨fun u passed => (inv u passed).stage.setups, ?_, ?_, ?_⟩
  · rintro ⟨a, l⟩ member ⟨i, ok, rfl, slot⟩
    obtain ⟨-, progress, -⟩ := (before _ member).of_starting slot rfl
    exact ⟨congrArg Timer.armed progress.1, progress.2⟩
  · rintro ⟨a, l⟩ member (⟨i, ok, rfl, slot⟩ | ⟨rfl, running⟩)
    · obtain ⟨-, progress, -⟩ := (before _ member).of_starting slot rfl
      have set := congrArg Timer.setups progress.1
      exact set ▸ Nat.one_pos
    · have beating := (before _ member).of_callback (by rw [running]; nofun)
      exact beating.setups ▸ Nat.one_pos
  · intro u passed opened rest
    obtain ⟨c, member, has⟩ := List.any_eq_true.mp opened
    cases (inv u passed).stage with
    | untouched _ _ unopened => exact absurd ((unopened c member).symm.trans has) nofun
    | starting _ _ _ unopened => exact absurd ((unopened c member).symm.trans has) nofun
    | beating _ _ beating =>
        refine beating.alive.resolve_right ?_
        rintro ⟨pc, running, -⟩
        exact absurd (running.symm.trans rest) nofun

end Runs

/-- Two opens one after the other, with two expiries. -/
theorem one_chain_in_turn :
    ∃ t trace, Run step (.loaded 0x800000 2) trace t ∧ t.g.timer.setups = 1 ∧ OneChain trace t := by
  obtain ⟨t, trace, run, -, once⟩ := Run.of_exec_any
    (restrict (fun s l => StartsAlone s l ∧ Stays s l) step) (.loaded 0x800000 2)
    (opened 0 ++ blink ++ .start .openFile :: List.replicate 4 (.move 1 true) ++ blink)
    (fun t => t.g.timer.setups = 1) (by decide +kernel)
  obtain ⟨run, allowed⟩ := run.of_restrict
  exact ⟨t, trace, run, once, one_chain run (allowed.mono fun _ _ => And.right)
    (allowed.mono fun _ _ => And.left)⟩

/-- Two opens both find `openTracker` zero. The timer is set up twice, and the
second time it is armed already. -/
theorem timer_set_up_twice :
    ∃ t trace, Run step (.loaded 0 2) trace t ∧ ¬ OneChain trace t ∧
      t.g.timer.setups = 2 ∧ t.g.timer.stale = 1 := by
  obtain ⟨t, trace, run, -, twice, stale⟩ := Run.of_exec_any step (.loaded 0 2)
    (.start .openFile :: List.replicate 4 (.move 0 true) ++
      .start .openFile :: List.replicate 4 (.move 1 true) ++
      [.move 0 true, .move 0 true, .move 1 true])
    (fun t => t.g.timer.setups = 2 ∧ t.g.timer.stale = 1) (by decide +kernel)
  refine ⟨t, trace, run, fun law => ?_, twice, stale⟩
  have once := law.once t (mem_visited_end trace t)
  rw [twice] at once
  exact absurd once (by decide)

end BlinkDriver.Hw5
