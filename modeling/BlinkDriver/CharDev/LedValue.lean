import BlinkDriver.CharDev.Write

/-!
# Reading and writing `LEDCTL` in HW3

`example5_write` stages its `int` in the global `mydev.led_current_val` and
writes what it loads from there to `LEDCTL`; `example5_read` stores what it reads
from `LEDCTL` in the same global and copies it to the user from there. A call
that overlaps another one can find the other one's value in the global:
`led_write_lost` is a run in which a read undoes a write.

`delivers_own` says that every call delivers its own value when every such load
finds the value that the call itself staged, and that for a run in which all
calls have returned this is also necessary.
-/

namespace BlinkDriver.Hw3

open Transition Interleaving CharDev

/-- The two globals and the register. -/
structure Led where
  syscallVal : BitVec 64
  ledCurrentVal : BitVec 64
  ledctl : BitVec 32
  deriving DecidableEq

/-- Program points of `example5_write` between the copy and the last load of
`led_current_val`. -/
inductive LedPc where
  | assign
  | loadVal
  | storeVal (v : BitVec 64)
  | testLow
  | testHigh
  deriving DecidableEq

/-- The accesses from the assignment of `led_current_val` to the last test. -/
def checkLed (pc : LedPc) (g : Led) (k : Write LedPc) : Led × Write LedPc :=
  match pc with
  | .assign =>
      ({ g with ledCurrentVal := (readInt k.kernBuf).signExtend 64 },
        { k with ret := k.buf.len, pc := .body .loadVal })
  | .loadVal => (g, { k with pc := .body (.storeVal g.ledCurrentVal) })
  | .storeVal v => ({ g with syscallVal := v }, { k with pc := .body .testLow })
  | .testLow =>
      if g.syscallVal.toInt < -4294967296 then (g, { k with ret := -1, pc := .returned })
      else (g, { k with pc := .body .testHigh })
  | .testHigh =>
      if g.syscallVal.toInt > 4294967296 then (g, { k with ret := -1, pc := .returned })
      else (g, { k with pc := .load })

/-- `led_current_val` is loaded once more and written to `LEDCTL`. -/
def ledStaging : Staging Led LedPc where
  first := .assign
  body := checkLed
  staged := Led.ledCurrentVal
  handOn v g := { g with ledctl := v }

def example5Write : Bool → Led → Write LedPc → Option (Led × Write LedPc) :=
  exampleWrite ledStaging

/-- Program points of `example5_read`. -/
inductive ReadPc where
  | checkOffset
  | checkBuf
  | readl
  | store (v : BitVec 32)
  | copy
  | returned
  deriving DecidableEq

/-- A read call: its arguments, its locals, what its `readl` obtained and what it
copied to the user. -/
structure Read where
  null : Bool
  len : Nat
  offset : Nat
  pc : ReadPc
  ret : Int
  obtained : Option (BitVec 32)
  delivered : Option (BitVec 32)
  deriving DecidableEq

/-- A call that has just entered the function. -/
def Read.entered (null : Bool) (len offset : Nat) : Read where
  null := null
  len := len
  offset := offset
  pc := .checkOffset
  ret := 0
  obtained := none
  delivered := none

/-- The next access of a read call. The copy takes the low half of
`led_current_val`. -/
def example5Read (ok : Bool) (g : Led) (k : Read) : Option (Led × Read) :=
  match k.pc with
  | .checkOffset =>
      if k.offset ≥ 4 then some (g, { k with ret := 0, pc := .returned })
      else some (g, { k with pc := .checkBuf })
  | .checkBuf =>
      if k.null then some (g, { k with ret := -einval, pc := .returned })
      else some (g, { k with pc := .readl })
  | .readl => some (g, { k with obtained := some g.ledctl, pc := .store g.ledctl })
  | .store v => some ({ g with ledCurrentVal := v.setWidth 64 }, { k with pc := .copy })
  | .copy =>
      if ok then
        some (g, { k with
          delivered := some (g.ledCurrentVal.setWidth 32), ret := 4
          offset := k.offset + k.len, pc := .returned })
      else some (g, { k with ret := -efault, pc := .returned })
  | .returned => none

/-- An open assigns 40 to `syscall_val`. -/
def example5Open (g : Led) (returned : Bool) : Option (Led × Bool) :=
  if returned then none else some ({ g with syscallVal := 40 }, true)

/-- A call of HW3. -/
inductive Call where
  | opening (returned : Bool)
  | reading (k : Read)
  | writing (k : Write LedPc)
  deriving DecidableEq

/-- What a process asks for. -/
inductive Request where
  | openFile
  | read (null : Bool) (len offset : Nat)
  | write (buf : UserBuffer)

/-- The calls of HW3. Other agents may change `LEDCTL`. -/
def program : Program Led Call Request Bool (BitVec 32) where
  start
    | .openFile => .opening false
    | .read null len offset => .reading (.entered null len offset)
    | .write buf => .writing (.entered LedPc buf)
  move ok g
    | .opening returned => (example5Open g returned).map fun next => (next.1, .opening next.2)
    | .reading k => (example5Read ok g k).map fun next => (next.1, .reading next.2)
    | .writing k => (example5Write ok g k).map fun next => (next.1, .writing next.2)
  env led g := { g with ledctl := led }

/-- Every write call that has returned the length has written its own `int` to
`LEDCTL`, and every read call that has returned 4 has copied out what its own
`readl` obtained. -/
structure DeliversOwn (s : State Led Call) : Prop where
  write : ∀ i k, s.calls i = some (.writing k) → k.pc = .returned → k.ret = k.buf.len →
    k.delivered = some k.buf.int
  read : ∀ i k, s.calls i = some (.reading k) → k.pc = .returned → k.ret = 4 →
    ∃ v, k.obtained = some v ∧ k.delivered = some v

/-- A write call that loads the value to write finds its own `int`, and a read
call whose copy succeeds finds what its `readl` obtained. -/
def LoadsOwn (s : State Led Call) : Label Request Bool (BitVec 32) → Prop
  | .move i ok =>
      (∀ k, s.calls i = some (.writing k) → k.pc = .load →
        s.globals.ledCurrentVal.setWidth 32 = k.buf.int) ∧
      ∀ k, s.calls i = some (.reading k) → k.pc = .copy → ok = true →
        some (s.globals.ledCurrentVal.setWidth 32) = k.obtained
  | _ => True

/-- Every read and write call has returned. -/
structure Quiet (s : State Led Call) : Prop where
  write : ∀ i k, s.calls i = some (.writing k) → k.pc = .returned
  read : ∀ i k, s.calls i = some (.reading k) → k.pc = .returned

/-! ## Writes -/

theorem ledStaging_lawful : ledStaging.Lawful := by
  intro p g k whole
  cases p with
  | assign => exact ⟨rfl, rfl, Or.inr ⟨rfl, Or.inr ⟨.loadVal, nofun, rfl⟩⟩⟩
  | loadVal =>
      have ret := whole.resolve_left nofun
      exact ⟨rfl, rfl, Or.inr ⟨ret, Or.inr ⟨.storeVal g.ledCurrentVal, nofun, rfl⟩⟩⟩
  | storeVal v =>
      have ret := whole.resolve_left nofun
      exact ⟨rfl, rfl, Or.inr ⟨ret, Or.inr ⟨.testLow, nofun, rfl⟩⟩⟩
  | testLow =>
      have ret := whole.resolve_left nofun
      simp only [ledStaging, checkLed]
      split
      · exact ⟨rfl, rfl, Or.inl ⟨rfl, (by decide : (-1 : Int) < 0)⟩⟩
      · exact ⟨rfl, rfl, Or.inr ⟨ret, Or.inr ⟨.testHigh, nofun, rfl⟩⟩⟩
  | testHigh =>
      have ret := whole.resolve_left nofun
      simp only [ledStaging, checkLed]
      split
      · exact ⟨rfl, rfl, Or.inl ⟨rfl, (by decide : (-1 : Int) < 0)⟩⟩
      · exact ⟨rfl, rfl, Or.inr ⟨ret, Or.inl rfl⟩⟩

/-- The write call that a call is, if it is one. -/
def Call.write : Call → Option (Write LedPc)
  | .writing k => some k
  | _ => none

theorem hosts : Hosts program ledStaging Call.write where
  start request k started := by
    cases request with
    | write buf => exact ⟨buf, (Option.some.inj started).symm⟩
    | _ => cases started
  move ok g c g' c' moved := by
    cases c with
    | opening returned =>
        obtain ⟨next, -, same⟩ := Option.map_eq_some_iff.mp moved
        cases same
        exact Or.inl ⟨rfl, rfl⟩
    | reading k =>
        obtain ⟨next, -, same⟩ := Option.map_eq_some_iff.mp moved
        cases same
        exact Or.inl ⟨rfl, rfl⟩
    | writing k =>
        obtain ⟨⟨g₁, k'⟩, written, same⟩ := Option.map_eq_some_iff.mp moved
        cases same
        exact Or.inr ⟨k, k', rfl, rfl, .of_exampleWrite written⟩

/-! ## Reads -/

/-- What holds of a read call at each program point: from its `readl` on it has
obtained a value, and if it has returned 4 it has delivered that value. -/
structure Read.Sound (k : Read) : Prop where
  store : ∀ v, k.pc = .store v → k.obtained = some v
  copy : k.pc = .copy → ∃ v, k.obtained = some v
  outcome : k.pc = .returned → k.ret = 4 → ∃ v, k.obtained = some v ∧ k.delivered = some v

/-- A call that has returned an error, or 0 at the end of the file. -/
theorem Read.Sound.failed {k : Read} (pc : k.pc = .returned) (ret : k.ret ≠ 4) : k.Sound where
  store _ same := by cases pc.symm.trans same
  copy same := by cases pc.symm.trans same
  outcome _ four := (ret four).elim

/-- One access, if the copy finds what the call obtained. -/
theorem Read.Sound.step {ok : Bool} {g g' : Led} {k k' : Read} (sound : k.Sound)
    (own : k.pc = .copy → ok = true → some (g.ledCurrentVal.setWidth 32) = k.obtained)
    (moved : example5Read ok g k = some (g', k')) : k'.Sound := by
  unfold example5Read at moved
  split at moved
  case h_1 pc =>
      split at moved
      · cases moved
        exact .failed rfl (by decide : (0 : Int) ≠ 4)
      · cases moved
        exact ⟨nofun, nofun, nofun⟩
  case h_2 pc =>
      split at moved
      · cases moved
        exact .failed rfl (by decide : -einval ≠ 4)
      · cases moved
        exact ⟨nofun, nofun, nofun⟩
  case h_3 pc =>
      cases moved
      exact ⟨fun v same => by cases same; rfl, nofun, nofun⟩
  case h_4 v pc =>
      cases moved
      exact ⟨nofun, fun _ => ⟨v, sound.store v pc⟩, nofun⟩
  case h_5 pc =>
      split at moved
      · rename_i succeeds
        cases moved
        exact ⟨nofun, nofun, fun _ _ => ⟨_, (own pc succeeds).symm, rfl⟩⟩
      · cases moved
        exact .failed rfl (by decide : -efault ≠ 4)
  case h_6 => cases moved

/-- If the call is a read, it has the property. -/
def Call.OnRead (P : Read → Prop) (c : Call) : Prop := ∀ k, c = .reading k → P k

/-! ## Whole runs -/

section Runs

variable {g : Led} {t : State Led Call}
  {trace : List (State Led Call × Label Request Bool (BitVec 32))}

theorem writes_own (run : Run program.step (.idle g) trace t) (own : Meets LoadsOwn trace) {i : Nat}
    {k : Write LedPc} (slot : t.calls i = some (.writing k)) :
    CharDev.Sound (fun _ => True) k := by
  refine hosts.sound ledStaging_lawful ?_ run own slot rfl
  intro s i ok c k found slot writing
  refine ⟨fun _ _ _ => trivial, fun pc => ?_⟩
  cases c with
  | writing k' =>
      cases writing
      exact found.1 k slot pc
  | _ => cases writing

theorem reads_own (run : Run program.step (.idle g) trace t) (own : Meets LoadsOwn trace) {i : Nat}
    {k : Read} (slot : t.calls i = some (.reading k)) : k.Sound := by
  have kept : Program.Keeps (fun _ => True) (Call.OnRead Read.Sound) t := by
    refine Program.invariant ?_ ?_ (fun _ _ _ => trivial) run own (.idle trivial)
    · intro request k started
      cases request with
      | read null len offset =>
          cases started
          exact ⟨nofun, nofun, nofun⟩
      | _ => cases started
    · intro s i ok c g' c' found slot _ sound moved
      refine ⟨trivial, ?_⟩
      intro k' same
      subst same
      cases c with
      | reading k =>
          obtain ⟨⟨g₁, k₁⟩, read, same⟩ := Option.map_eq_some_iff.mp moved
          cases same
          exact (sound k rfl).step (found.2 k slot) read
      | opening returned =>
          obtain ⟨_, -, same⟩ := Option.map_eq_some_iff.mp moved
          cases same
      | writing k =>
          obtain ⟨_, -, same⟩ := Option.map_eq_some_iff.mp moved
          cases same
  exact kept.calls i _ slot k rfl

theorem deliversOwn_of_loadsOwn (run : Run program.step (.idle g) trace t)
    (own : Meets LoadsOwn trace) : DeliversOwn t where
  write _ _ slot := (writes_own run own slot).own
  read _ _ slot := (reads_own run own slot).outcome

/-- A read call whose copy finds another value than its `readl` obtained returns
4 with the wrong value. -/
theorem copies_foreign {a b : State Led Call} {i : Nat} {k : Read}
    (moved : program.step a (.move i true) = some b) (slot : a.calls i = some (.reading k))
    (pc : k.pc = .copy) :
    b.calls i = some (.reading { k with
      delivered := some (a.globals.ledCurrentVal.setWidth 32), ret := 4
      offset := k.offset + k.len, pc := .returned }) := by
  cases Program.Step.of_step moved with
  | move running read =>
      cases running.symm.trans slot
      simp only [program, example5Read, pc, if_true, Option.map_some] at read
      cases read
      exact State.put_calls_self ..

/-- A read call that has returned stays as it is. -/
theorem stays_returned {s : State Led Call} (run : Run program.step s trace t) {i : Nat} {k : Read}
    (slot : s.calls i = some (.reading k)) (pc : k.pc = .returned) :
    t.calls i = some (.reading k) := by
  have stays : ∀ ok g₁ c g₂ c', c = Call.reading k → program.move ok g₁ c = some (g₂, c') →
      c' = .reading k := by
    intro ok g₁ _ g₂ c' same moved
    subst same
    obtain ⟨_, read, -⟩ := Option.map_eq_some_iff.mp moved
    rw [example5Read, pc] at read
    cases read
  obtain ⟨c, slot', rfl⟩ := Program.persists stays run ⟨_, slot, rfl⟩
  exact slot'

theorem loadsOwn_of_deliversOwn (run : Run program.step (.idle g) trace t) (quiet : Quiet t)
    (delivers : DeliversOwn t) : Meets LoadsOwn trace := by
  intro entry member
  rcases entry with ⟨a, l⟩
  cases l with
  | move i ok =>
      refine ⟨fun k slot pc => ?_, fun k slot pc succeeds => ?_⟩
      · by_contra foreign
        have astray : ∀ g' k', Whole ledStaging k → WriteStep ledStaging a.globals k g' k' →
            Astray (fun _ => True) k' :=
          fun _ _ whole access => .of_load whole pc foreign access
        refine hosts.not_astray ledStaging_lawful run member slot rfl ?_ astray
        intro j c k' slot' writing
        cases c with
        | writing k₁ =>
            cases writing
            have returned := quiet.write j k' slot'
            exact ⟨returned, delivers.write j k' slot' returned, fun bad => (bad trivial).elim⟩
        | _ => cases writing
      · subst succeeds
        obtain ⟨_, _, b, -, edge, after, -⟩ := run.exists_split _ member
        have left := stays_returned after (copies_foreign edge slot pc) rfl
        obtain ⟨v, obtained, delivered⟩ := delivers.read i _ left rfl rfl
        exact delivered.trans obtained.symm
  | _ => trivial

/-- **LED values are not lost or swapped.** In every run whose loads of
`led_current_val` find what the calls staged there themselves, every write call
that has returned the length has written its own `int` to `LEDCTL`, and every
read call that has returned 4 has delivered what its own `readl` obtained. In a
run at whose end all calls have returned, this also needs it. -/
theorem delivers_own (run : Run program.step (.idle g) trace t) :
    (Meets LoadsOwn trace → DeliversOwn t) ∧ (Quiet t → DeliversOwn t → Meets LoadsOwn trace) :=
  ⟨deliversOwn_of_loadsOwn run, loadsOwn_of_deliversOwn run⟩

end Runs

instance (s : State Led Call) (l : Label Request Bool (BitVec 32)) : Decidable (LoadsOwn s l) := by
  unfold LoadsOwn
  split
  · rename_i i ok
    cases s.calls i with
    | none => exact .isTrue ⟨nofun, nofun⟩
    | some c =>
        cases c with
        | opening returned => exact .isTrue ⟨nofun, nofun⟩
        | reading k =>
            exact decidable_of_iff
              (k.pc = .copy → ok = true →
                some (s.globals.ledCurrentVal.setWidth 32) = k.obtained)
              ⟨fun own => ⟨nofun, fun _ same => by cases same; exact own⟩, fun own => own.2 k rfl⟩
        | writing k =>
            exact decidable_of_iff
              (k.pc = .load → s.globals.ledCurrentVal.setWidth 32 = k.buf.int)
              ⟨fun own => ⟨fun _ same => by cases same; exact own, nofun⟩, fun own => own.1 k rfl⟩
  · exact .isTrue trivial

/-- A user buffer that holds the int 0x80. -/
def ledOn : UserBuffer := ⟨[0x80, 0, 0, 0], false, by decide⟩

/-- Call `i` makes `n` accesses, which succeed. -/
def moves (n i : Nat) : List (Label Request Bool (BitVec 32)) := List.replicate n (.move i true)

/-- A read, and a write after it. -/
theorem delivers_own_in_turn :
    ∃ t trace, Run program.step (.idle ⟨0, 0, 0x800000⟩) trace t ∧
      t.globals.ledctl = 0x80 ∧ DeliversOwn t := by
  obtain ⟨t, trace, run, -, written⟩ := Run.of_exec_any
    (restrict LoadsOwn program.step) (.idle ⟨0, 0, 0x800000⟩)
    (.start 0 (.read false 4 0) :: moves 5 0 ++ .start 1 (.write ledOn) :: moves 11 1)
    (fun t => t.globals.ledctl = 0x80) (by decide +kernel)
  obtain ⟨run, own⟩ := run.of_restrict
  exact ⟨t, trace, run, written, (delivers_own run).1 own⟩

/-- A read stages what it finds in `LEDCTL` after a write has passed its tests:
the write puts that back in place of its own value and returns 4. -/
theorem led_write_lost :
    ∃ t trace, Run program.step (.idle ⟨0, 0, 0x800000⟩) trace t ∧
      t.globals.ledctl = 0x800000 ∧ ¬ DeliversOwn t := by
  obtain ⟨t, trace, run, -, kept, left⟩ := Run.of_exec_any
    program.step (.idle ⟨0, 0, 0x800000⟩)
    (.start 0 (.write ledOn) :: moves 8 0 ++ .start 1 (.read false 4 0) :: moves 4 1 ++ moves 3 0)
    (fun t => t.globals.ledctl = 0x800000 ∧ t.calls 0 = some (.writing
      { buf := ledOn, pc := .returned, kernBuf := ledOn.bytes, ret := 4, obtained := true
        freed := 1, delivered := some 0x800000 })) (by decide +kernel)
  refine ⟨t, trace, run, kept, fun delivers => ?_⟩
  have own := delivers.write 0 _ left rfl rfl
  exact absurd own (by decide)

end BlinkDriver.Hw3
