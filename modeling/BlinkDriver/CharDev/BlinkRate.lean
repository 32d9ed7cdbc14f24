import BlinkDriver.CharDev.Write

/-!
# Committing `blink_rate` in HW5 and HW6

`example5_write` stages its `int` in the global `mydev.syscall_val`, tests the
global and then copies the global to `blink_rate`. Calls overlap, and in HW5
every open stores into the same global, so what is tested and what is committed
need not be the caller's value: `foreign_rate_committed` is such a run.

`commits_own` says that a run commits right values only, and only nonnegative
ones, when each commit finds the value that its own call staged and no negative
`int` meets a nonnegative one at its sign test, and that for a run in which all
writes have returned this is also necessary.
-/

namespace BlinkDriver.CharDev

open Transition Interleaving

/-- The two globals. -/
structure Rate where
  syscallVal : BitVec 64
  blinkRate : BitVec 32
  deriving DecidableEq

/-- Program points between the copy and the commit. Each test loads
`syscall_val` again. -/
inductive RatePc where
  | assign
  | testLow
  | testHigh
  | testSign
  deriving DecidableEq

/-- The accesses from the assignment of `syscall_val` to the last test. -/
def checkRate (pc : RatePc) (g : Rate) (k : Write RatePc) : Rate × Write RatePc :=
  match pc with
  | .assign =>
      ({ g with syscallVal := (readInt k.kernBuf).signExtend 64 },
        { k with ret := k.buf.len, pc := .body .testLow })
  | .testLow =>
      if g.syscallVal.toInt < -4294967296 then (g, { k with ret := -1, pc := .returned })
      else (g, { k with pc := .body .testHigh })
  | .testHigh =>
      if g.syscallVal.toInt > 4294967296 then (g, { k with ret := -1, pc := .returned })
      else (g, { k with pc := .body .testSign })
  | .testSign =>
      if g.syscallVal.toInt < 0 then (g, { k with ret := -einval, pc := .memOut })
      else (g, { k with pc := .load })

/-- The value that passed is loaded once more and stored in `blink_rate`. -/
def rateStaging : Staging Rate RatePc where
  first := .assign
  body := checkRate
  staged := Rate.syscallVal
  handOn v g := { g with blinkRate := v }

/-- Program points of `example5_open`. -/
inductive OpenPc where
  | loadRate
  | storeVal (v : BitVec 32)
  | returned
  deriving DecidableEq

namespace Hw5

/-- An open of HW5 first assigns `blink_rate` to `syscall_val`. What it does to
the timer touches neither global. -/
def example5Open (g : Rate) (pc : OpenPc) : Option (Rate × OpenPc) :=
  match pc with
  | .loadRate => some (g, .storeVal g.blinkRate)
  | .storeVal v => some ({ g with syscallVal := v.signExtend 64 }, .returned)
  | .returned => none

def example5Write : Bool → Rate → Write RatePc → Option (Rate × Write RatePc) :=
  exampleWrite rateStaging

end Hw5

namespace Hw6

/-- An open of HW6 accesses neither global. -/
def example5Open (_ : Rate) (_ : OpenPc) : Option (Rate × OpenPc) := none

def example5Write : Bool → Rate → Write RatePc → Option (Rate × Write RatePc) :=
  exampleWrite rateStaging

end Hw6

/-- The two drivers with this write. -/
inductive Driver where
  | hw5
  | hw6

/-- A call of one of them. -/
inductive Call where
  | opening (pc : OpenPc)
  | writing (k : Write RatePc)
  deriving DecidableEq

/-- What a process asks for. -/
inductive Request where
  | openFile
  | write (buf : UserBuffer)

def Driver.example5Open : Driver → Rate → OpenPc → Option (Rate × OpenPc)
  | .hw5 => Hw5.example5Open
  | .hw6 => Hw6.example5Open

def Driver.example5Write : Driver → Bool → Rate → Write RatePc → Option (Rate × Write RatePc)
  | .hw5 => Hw5.example5Write
  | .hw6 => Hw6.example5Write

/-- The calls of a driver on its globals. -/
def Driver.program (d : Driver) : Program Rate Call Request Bool Empty where
  start
    | .openFile => .opening .loadRate
    | .write buf => .writing (.entered RatePc buf)
  move ok g
    | .opening pc => (d.example5Open g pc).map fun next => (next.1, .opening next.2)
    | .writing k => (d.example5Write ok g k).map fun next => (next.1, .writing next.2)
  env := nofun

/-- Every write call that has returned the length has stored its own `int`, and
a negative `int` is never stored. -/
structure CommitsOwn (s : State Rate Call) : Prop where
  own : ∀ i k, s.calls i = some (.writing k) → k.pc = .returned → k.ret = k.buf.len →
    k.delivered = some k.buf.int
  negative : ∀ i k, s.calls i = some (.writing k) → k.buf.int.toInt < 0 → k.delivered = none

/-- The sign test of the call would not find a nonnegative value in place of its
negative one, and its commit would find its own value. -/
def FindsOwn (g : Rate) (k : Write RatePc) : Prop :=
  (k.pc = .body .testSign → k.buf.int.toInt < 0 → g.syscallVal.toInt < 0) ∧
    (k.pc = .load → g.syscallVal.setWidth 32 = k.buf.int)

instance (g : Rate) (k : Write RatePc) : Decidable (FindsOwn g k) :=
  inferInstanceAs (Decidable (_ ∧ _))

/-- A write call that moves finds its own value where it loads `syscall_val`. -/
def LoadsOwn (s : State Rate Call) : Label Request Bool Empty → Prop
  | .move i _ => ∀ k, s.calls i = some (.writing k) → FindsOwn s.globals k
  | _ => True

/-- Every write call has returned. -/
def Quiet (s : State Rate Call) : Prop :=
  ∀ i k, s.calls i = some (.writing k) → k.pc = .returned

/-! ## One access -/

/-- The values that may be committed. -/
abbrev NonNeg (v : BitVec 32) : Prop := 0 ≤ v.toInt

theorem rateStaging_lawful : rateStaging.Lawful := by
  intro p g k whole
  cases p with
  | assign => exact ⟨rfl, rfl, Or.inr ⟨rfl, Or.inr ⟨.testLow, nofun, rfl⟩⟩⟩
  | testLow =>
      have ret := whole.resolve_left nofun
      simp only [rateStaging, checkRate]
      split
      · exact ⟨rfl, rfl, Or.inl ⟨rfl, (by decide : (-1 : Int) < 0)⟩⟩
      · exact ⟨rfl, rfl, Or.inr ⟨ret, Or.inr ⟨.testHigh, nofun, rfl⟩⟩⟩
  | testHigh =>
      have ret := whole.resolve_left nofun
      simp only [rateStaging, checkRate]
      split
      · exact ⟨rfl, rfl, Or.inl ⟨rfl, (by decide : (-1 : Int) < 0)⟩⟩
      · exact ⟨rfl, rfl, Or.inr ⟨ret, Or.inr ⟨.testSign, nofun, rfl⟩⟩⟩
  | testSign =>
      have ret := whole.resolve_left nofun
      simp only [rateStaging, checkRate]
      split
      · exact ⟨rfl, rfl, Or.inl ⟨rfl, neg_einval⟩⟩
      · exact ⟨rfl, rfl, Or.inr ⟨ret, Or.inl rfl⟩⟩

/-- Only the sign test leads to the commit, and only past a nonnegative value. -/
theorem checkRate_load {p : RatePc} {g : Rate} {k : Write RatePc}
    (target : (checkRate p g k).2.pc = .load) : p = .testSign ∧ 0 ≤ g.syscallVal.toInt := by
  cases p with
  | assign => cases target
  | testLow =>
      simp only [checkRate] at target
      split at target <;> cases target
  | testHigh =>
      simp only [checkRate] at target
      split at target <;> cases target
  | testSign =>
      simp only [checkRate] at target
      split at target
      · cases target
      · rename_i sign
        exact ⟨rfl, by omega⟩

/-- The tests do not touch `blink_rate`. -/
theorem checkRate_blinkRate (p : RatePc) (g : Rate) (k : Write RatePc) :
    (checkRate p g k).1.blinkRate = g.blinkRate := by
  cases p with
  | assign => rfl
  | _ =>
      simp only [checkRate]
      split <;> rfl

/-- The write call that a call is, if it is one. -/
def Call.write : Call → Option (Write RatePc)
  | .opening _ => none
  | .writing k => some k

/-- An access of a call of either driver is one of an open, which may store into
`syscall_val` only, or one of a write. -/
theorem Driver.move_cases {d : Driver} {ok : Bool} {g g' : Rate} {c c' : Call}
    (moved : d.program.move ok g c = some (g', c')) :
    (c.write = none ∧ c'.write = none ∧ g'.blinkRate = g.blinkRate) ∨
      ∃ k k', c.write = some k ∧ c'.write = some k' ∧ WriteStep rateStaging g k g' k' := by
  cases c with
  | opening pc =>
      obtain ⟨⟨g₁, pc'⟩, opened, same⟩ := Option.map_eq_some_iff.mp moved
      cases same
      refine Or.inl ⟨rfl, rfl, ?_⟩
      cases d with
      | hw5 =>
          cases pc with
          | loadRate => cases opened; rfl
          | storeVal v => cases opened; rfl
          | returned => cases opened
      | hw6 => cases opened
  | writing k =>
      obtain ⟨⟨g₁, k'⟩, written, same⟩ := Option.map_eq_some_iff.mp moved
      cases same
      refine Or.inr ⟨k, k', rfl, rfl, ?_⟩
      cases d with
      | hw5 => exact .of_exampleWrite written
      | hw6 => exact .of_exampleWrite written

theorem Driver.hosts (d : Driver) : Hosts d.program rateStaging Call.write where
  start request k started := by
    cases request with
    | openFile => cases started
    | write buf => exact ⟨buf, (Option.some.inj started).symm⟩
  move ok g c g' c' moved := (Driver.move_cases moved).imp (fun other => ⟨other.1, other.2.1⟩) id

/-- The access of a sound write call keeps `blink_rate` nonnegative. -/
theorem Sound.blinkRate {g g' : Rate} {k k' : Write RatePc} (sound : Sound NonNeg k)
    (access : WriteStep rateStaging g k g' k') (before : NonNeg g.blinkRate) :
    NonNeg g'.blinkRate := by
  cases access with
  | @body p pc =>
      change NonNeg (checkRate p g k).1.blinkRate
      rw [checkRate_blinkRate]
      exact before
  | @store v pc =>
      obtain ⟨positive, same⟩ := sound.store v pc
      change NonNeg (v.setWidth 32)
      rw [same]
      exact positive
  | _ => exact before

/-- A write call that does not find its own value is astray after the access. -/
theorem Astray.of_not_findsOwn {g g' : Rate} {k k' : Write RatePc} (whole : Whole rateStaging k)
    (foreign : ¬ FindsOwn g k) (access : WriteStep rateStaging g k g' k') :
    Astray NonNeg k' := by
  rw [FindsOwn, not_and_or] at foreign
  rcases foreign with sign | commit
  · simp only [Classical.not_imp] at sign
    obtain ⟨pc, negative, found⟩ := sign
    cases access with
    | body same =>
        cases pc.symm.trans same
        simp only [rateStaging, checkRate, if_neg found]
        exact ⟨(whole.body _ pc).resolve_left nofun, Or.inl ⟨rfl, not_le.mpr negative⟩⟩
    | _ other => rw [pc] at other; cases other
  · simp only [Classical.not_imp] at commit
    exact .of_load whole commit.1 commit.2 access

/-! ## Whole runs -/

section Runs

variable {d : Driver} {g : Rate} {t : State Rate Call}
  {trace : List (State Rate Call × Label Request Bool Empty)}

theorem Call.write_eq_some {c : Call} {k : Write RatePc} (writing : c.write = some k) :
    c = .writing k := by
  cases c with
  | opening pc => cases writing
  | writing k => exact congrArg Call.writing (Option.some.inj writing)

theorem Driver.sound (run : Run d.program.step (.idle g) trace t) (own : Meets LoadsOwn trace)
    {i : Nat} {c : Call} {k : Write RatePc} (slot : t.calls i = some c)
    (writing : c.write = some k) : Sound NonNeg k := by
  refine d.hosts.sound rateStaging_lawful ?_ run own slot writing
  intro s i ok c k found slot writing
  cases Call.write_eq_some writing
  have finds := found k slot
  refine ⟨fun p pc target => ?_, finds.2⟩
  obtain ⟨rfl, sign⟩ := checkRate_load target
  by_contra negative
  have low := finds.1 pc (not_le.mp negative)
  omega

theorem Driver.blinkRate (run : Run d.program.step (.idle g) trace t) (own : Meets LoadsOwn trace)
    (first : NonNeg g.blinkRate) : NonNeg t.globals.blinkRate := by
  induction run with
  | refl => exact first
  | snoc front edge ih =>
      obtain ⟨ownFront, -⟩ := meets_append.mp own
      have before := ih ownFront
      cases Program.Step.of_step edge with
      | start => exact before
      | move slot moved =>
          rcases Driver.move_cases moved with ⟨-, -, same⟩ | ⟨k, k', writing, -, access⟩
          · change NonNeg _
            rw [State.put_globals, same]
            exact before
          · exact (Driver.sound front ownFront slot writing).blinkRate access before
      | @env e => exact e.elim

theorem commitsOwn_of_loadsOwn (run : Run d.program.step (.idle g) trace t)
    (own : Meets LoadsOwn trace) : CommitsOwn t where
  own _ _ slot := (Driver.sound run own slot rfl).own
  negative _ _ slot negative := (Driver.sound run own slot rfl).nothing (not_le.mpr negative)

theorem loadsOwn_of_commitsOwn (run : Run d.program.step (.idle g) trace t) (quiet : Quiet t)
    (commits : CommitsOwn t) : Meets LoadsOwn trace := by
  intro entry member
  rcases entry with ⟨a, l⟩
  cases l with
  | move i ok =>
      intro k slot
      by_contra foreign
      refine d.hosts.not_astray rateStaging_lawful run member slot rfl ?_
        fun _ _ whole access => Astray.of_not_findsOwn whole foreign access
      intro j c k' slot' writing
      cases Call.write_eq_some writing
      have pc := quiet j k' slot'
      exact ⟨pc, commits.own j k' slot' pc, fun bad => commits.negative j k' slot' (not_le.mp bad)⟩
  | _ => trivial

/-- **A successful write commits its own value.** In every run of either driver
whose loads find the calls' own values, every write call that has returned the
length has stored its own `int` in `blink_rate`, a negative `int` is never
stored, and `blink_rate` does not become negative. In a run at whose end all
write calls have returned, the first two also need it. -/
theorem commits_own (run : Run d.program.step (.idle g) trace t) :
    (Meets LoadsOwn trace →
      CommitsOwn t ∧ (0 ≤ g.blinkRate.toInt → 0 ≤ t.globals.blinkRate.toInt)) ∧
    (Quiet t → CommitsOwn t → Meets LoadsOwn trace) :=
  ⟨fun own => ⟨commitsOwn_of_loadsOwn run own, Driver.blinkRate run own⟩,
    loadsOwn_of_commitsOwn run⟩

end Runs

instance (s : State Rate Call) (l : Label Request Bool Empty) : Decidable (LoadsOwn s l) := by
  unfold LoadsOwn
  split
  · rename_i i _
    cases s.calls i with
    | none => exact .isTrue nofun
    | some c =>
        cases c with
        | opening pc => exact .isTrue nofun
        | writing k =>
            exact decidable_of_iff (FindsOwn s.globals k)
              ⟨fun own _ same => by cases same; exact own, fun own => own k rfl⟩
  · exact .isTrue trivial

/-- User buffers that hold the ints 5 and -1. -/
def five : UserBuffer := ⟨[5, 0, 0, 0], false, by decide⟩

def minusOne : UserBuffer := ⟨[0xFF, 0xFF, 0xFF, 0xFF], false, by decide⟩

/-- Call `i` makes `n` accesses, which succeed. -/
def moves (n i : Nat) : List (Label Request Bool Empty) := List.replicate n (.move i true)

/-- An open and then a write of 5 in HW5, with a blink rate of 2 before. -/
theorem commits_own_after_open :
    ∃ t trace, Run Driver.hw5.program.step (.idle ⟨0, 2⟩) trace t ∧
      t.globals.blinkRate = 5 ∧ CommitsOwn t := by
  obtain ⟨t, trace, run, -, stored⟩ := Run.of_exec_any
    (restrict LoadsOwn Driver.hw5.program.step) (.idle ⟨0, 2⟩)
    (.start 0 .openFile :: moves 2 0 ++ .start 1 (.write five) :: moves 10 1)
    (fun t => t.globals.blinkRate = 5) (by decide +kernel)
  obtain ⟨run, own⟩ := run.of_restrict
  exact ⟨t, trace, run, stored, ((commits_own run).1 own).1⟩

private theorem commits_foreign (d : Driver) :
    ∃ t trace, Run d.program.step (.idle ⟨0, 2⟩) trace t ∧ ¬ CommitsOwn t ∧
      t.globals.blinkRate.toInt < 0 := by
  obtain ⟨t, trace, run, -, negative, left⟩ := Run.of_exec_any d.program.step (.idle ⟨0, 2⟩)
    (.start 0 (.write five) :: moves 7 0 ++ .start 1 (.write minusOne) :: moves 4 1 ++ moves 3 0)
    (fun t => t.globals.blinkRate.toInt < 0 ∧ t.calls 0 = some (.writing
      { buf := five, pc := .returned, kernBuf := five.bytes, ret := 4, obtained := true
        freed := 1, delivered := some 0xFFFFFFFF })) (by cases d <;> decide +kernel)
  refine ⟨t, trace, run, fun commits => ?_, negative⟩
  have own := commits.own 0 _ left rfl rfl
  exact absurd own (by decide)

/-- A write of 5 passes its tests, a second call stages -1, and the first one
commits that and returns 4: in HW5 and in HW6. -/
theorem foreign_rate_committed :
    (∃ t trace, Run Driver.hw5.program.step (.idle ⟨0, 2⟩) trace t ∧ ¬ CommitsOwn t ∧
      t.globals.blinkRate.toInt < 0) ∧
    ∃ t trace, Run Driver.hw6.program.step (.idle ⟨0, 2⟩) trace t ∧ ¬ CommitsOwn t ∧
      t.globals.blinkRate.toInt < 0 :=
  ⟨commits_foreign .hw5, commits_foreign .hw6⟩

end BlinkDriver.CharDev
