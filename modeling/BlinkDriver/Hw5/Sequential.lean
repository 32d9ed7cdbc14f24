import BlinkDriver.CharDev.Calls
import BlinkDriver.Hw5.Chain

/-!
# HW5 one call at a time

Opens, reads, writes, stores to the parameter and expiries, each from beginning
to end before the next one begins. `callStep` is the step function;
`run_of_callStep` says that every such run is a run of the statement-level
system, in which the calls and the callback are merely not interrupted.
-/

namespace BlinkDriver.Hw5

open CharDev Transition

/-- A whole `my_callback`. -/
def callbackCall (g : Globals) : Globals :=
  let g := { g with led := g.led ^^^ 0x80 }
  let g : Globals := { g with ledctl := if g.hwAddr = .mapped then g.led.setWidth 32 else g.ledctl }
  g.modTimer

/-- What happens: a store to the parameter, a whole call, or an expiry of the
armed timer with its callback. -/
inductive Event where
  | setParam (blinkRate : BitVec 32)
  | openFile
  | read (a : ReadArgs) (offset : Nat)
  | write (a : WriteArgs)
  | expire
  deriving DecidableEq

def callStep (g : Globals) : Event → Option Globals
  | .setParam blinkRate => some { g with rate := { g.rate with blinkRate } }
  | .openFile => some (openCall g)
  | .read a offset => some (readCall mydevFops.fetch a offset g).1
  | .write a => some (writeCall mydevFops.accept a g).1
  | .expire => (g.timer.fire .current).map fun timer => callbackCall { g with timer }

/-- A module that has been loaded with a parameter, and perhaps a device. -/
def Globals.started (ledctl blinkRate : BitVec 32) (hwAddr : HwAddr) : Globals :=
  { (State.loaded ledctl blinkRate).g with hwAddr }

/-! ## What a whole call does -/

/-- A read changes nothing. -/
theorem readCall_fst (a : ReadArgs) (offset : Nat) (g : Globals) :
    (readCall mydevFops.fetch a offset g).1 = g := by
  unfold readCall
  split
  · rfl
  split
  · rfl
  dsimp only [mydevFops]
  split <;> rfl

/-- A write changes what `Rate` holds, as a write of that alone does. -/
theorem writeCall_fst (a : WriteArgs) (g : Globals) :
    (writeCall mydevFops.accept a g).1 = { g with rate := (writeCall Rate.accept a g.rate).1 } := by
  unfold writeCall
  split
  · rfl
  split
  · split
    · rfl
    · rfl
  · rfl

/-! ## A call that nobody interrupts is a run -/

section Calls

variable {s : State}

/-- The rest of a write. -/
theorem run_of_alone {i : Nat} {k : Write RatePc} {u : Rate × Write RatePc}
    {trace : List ((Rate × Write RatePc) × Bool)} (slot : s.calls[i]? = some (.writing k))
    (run : Run (alone rateStaging) (s.g.rate, k) trace u) :
    ∃ trace, Run step s trace
      { s with g := { s.g with rate := u.1 }, calls := s.calls.set i (.writing u.2) } := by
  obtain ⟨inside, same⟩ := List.getElem?_eq_some_iff.mp slot
  induction run with
  | refl =>
      refine ⟨[], ?_⟩
      rw [← same, List.set_getElem_self]
      exact .refl
  | @snoc _ v w ok _ edge ih =>
      obtain ⟨trace, run⟩ := ih
      refine ⟨_, run.snoc (l := .move i ok) ?_⟩
      have written : CharDev.Hw5.example5Write ok v.1 v.2 = some w := edge
      simp only [step, List.getElem?_set_self inside, Option.bind_some, Call.move, written,
        Option.map_some, List.set_set]

/-- A schedule that evaluates is a run. -/
theorem run_of_exec {t : State} (labels : List Label) (done : exec step s labels = some t) :
    ∃ trace, Run step s trace t := by
  obtain ⟨trace, run, -⟩ := Run.of_exec done
  exact ⟨trace, run⟩

theorem run_of_open (live : s.phase = .live) :
    ∃ trace, Run step s trace
      { s with g := openCall s.g, calls := s.calls ++ [.opening .returned] } := by
  by_cases untracked : s.g.openTracker = 0
  · refine run_of_exec (.start .openFile :: List.replicate 7 (.move s.calls.length true)) ?_
    simp [exec, step, live, Request.call, Call.move, example5Open, CharDev.Hw5.example5Open,
      untracked, openCall]
  · refine run_of_exec (.start .openFile :: List.replicate 4 (.move s.calls.length true)) ?_
    rw [openCall, if_neg untracked]
    simpa [exec, step, live, Request.call, Call.move, example5Open, CharDev.Hw5.example5Open]
      using untracked

theorem run_of_read (live : s.phase = .live) (a : ReadArgs) (offset : Nat) :
    ∃ trace k, Run step s trace { s with
        g := (readCall mydevFops.fetch a offset s.g).1, calls := s.calls ++ [.reading k] } ∧
      k.pc = .returned ∧ k.ret = (readCall mydevFops.fetch a offset s.g).2.ret := by
  have made : ∃ labels k, exec step s (.start (.read a.null a.len offset) :: labels) =
        some { s with calls := s.calls ++ [.reading k] } ∧
      k.pc = .returned ∧ k.ret = (readCall mydevFops.fetch a offset s.g).2.ret := by
    unfold readCall
    by_cases atEnd : 4 ≤ offset
    · refine ⟨[.move s.calls.length true],
        { Read.entered a.null a.len offset with pc := .returned, ret := 0 }, ?_, rfl, ?_⟩
      · simp [exec, step, live, Request.call, Call.move, Read.entered, example5Read, atEnd]
      · rw [if_pos atEnd]
    by_cases null : a.null = true
    · refine ⟨List.replicate 2 (.move s.calls.length true),
        { Read.entered a.null a.len offset with pc := .returned, ret := -einval }, ?_, rfl, ?_⟩
      · simp [exec, step, live, Request.call, Call.move, Read.entered, example5Read, atEnd, null]
      · rw [if_neg atEnd, if_pos null]
    by_cases faults : a.reach < 4
    · refine ⟨List.replicate 3 (.move s.calls.length false),
        { Read.entered a.null a.len offset with pc := .returned, ret := -efault }, ?_, rfl, ?_⟩
      · simp [exec, step, live, Request.call, Call.move, Read.entered, example5Read, atEnd, null]
      · simp only [if_neg atEnd, if_neg null, if_pos faults]
    · refine ⟨List.replicate 3 (.move s.calls.length true),
        { Read.entered a.null a.len offset with
          pc := .returned, ret := 4, offset := offset + a.len
          delivered := some s.g.rate.blinkRate }, ?_, rfl, ?_⟩
      · simp [exec, step, live, Request.call, Call.move, Read.entered, example5Read, atEnd, null]
      · simp only [if_neg atEnd, if_neg null, if_neg faults]
  obtain ⟨labels, k, done, returned, ret⟩ := made
  obtain ⟨trace, run⟩ := run_of_exec _ done
  exact ⟨trace, k, by rwa [readCall_fst], returned, ret⟩

theorem run_of_write (live : s.phase = .live) (a : WriteArgs) :
    ∃ trace k, Run step s trace { s with
        g := (writeCall mydevFops.accept a s.g).1, calls := s.calls ++ [.writing k] } ∧
      k.pc = .returned ∧ k.ret = (writeCall Rate.accept a s.g.rate).2.ret := by
  obtain ⟨middle, k, run, returned, ret⟩ := (writeCall_accept_alone a).2 s.g.rate
  have begun : step s (.start (.write a.buf)) =
      some { s with calls := s.calls ++ [.writing (.entered RatePc a.buf)] } := if_pos live
  obtain ⟨back, rest⟩ := run_of_alone
    (s := { s with calls := s.calls ++ [.writing (.entered RatePc a.buf)] })
    (i := s.calls.length) List.getElem?_concat_length run
  have whole := (Run.single begun).trans rest
  refine ⟨(s, .start (.write a.buf)) :: back, k, ?_, returned, ret⟩
  rw [writeCall_fst]
  simpa using whole

theorem run_of_expire {timer : Timer (BitVec 32)} (rest : s.callback = none)
    (fired : s.g.timer.fire .current = some timer) :
    ∃ trace, Run step s trace { s with g := callbackCall { s.g with timer } } := by
  refine run_of_exec (.expire .current :: List.replicate 4 .callbackStep) ?_
  simp [exec, step, rest, fired, myCallback, callbackCall, Globals.modTimer]

/-- **Whole calls are uninterrupted calls.** From a state in which the module is
loaded and the callback is not running, what happens one call after another can
happen statement by statement. -/
theorem run_of_callStep {g : Globals} {trace : List (Globals × Event)} (live : s.phase = .live)
    (rest : s.callback = none) (run : Run callStep s.g trace g) :
    ∃ t trace, Run step s trace t ∧ t.g = g ∧ t.phase = .live ∧ t.callback = none := by
  induction run with
  | refl => exact ⟨s, [], .refl, rfl, live, rest⟩
  | @snoc _ a b e _ edge ih =>
      obtain ⟨u, front, before, rfl, live, rest⟩ := ih
      cases e with
      | setParam blinkRate =>
          cases edge
          have stored : step u (.setParam blinkRate) =
            some { u with g := { u.g with rate := { u.g.rate with blinkRate } } } := if_pos live
          exact ⟨_, _, before.snoc stored, rfl, live, rest⟩
      | openFile =>
          cases edge
          obtain ⟨back, after⟩ := run_of_open live
          exact ⟨_, _, before.trans after, rfl, live, rest⟩
      | read a offset =>
          cases edge
          obtain ⟨back, k, after, -⟩ := run_of_read live a offset
          exact ⟨_, _, before.trans after, rfl, live, rest⟩
      | write a =>
          cases edge
          obtain ⟨back, k, after, -⟩ := run_of_write live a
          exact ⟨_, _, before.trans after, rfl, live, rest⟩
      | expire =>
          obtain ⟨timer, fired, rfl⟩ := Option.map_eq_some_iff.mp edge
          obtain ⟨back, after⟩ := run_of_expire rest fired
          exact ⟨_, _, before.trans after, rfl, live, rest⟩

end Calls

end BlinkDriver.Hw5
