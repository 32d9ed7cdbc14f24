import BlinkDriver.CharDev.KernBuf
import BlinkDriver.Lib.Linearizable

/-!
# The device file as an atomic register

In HW2 every open, read and write accesses `mydev.syscall_val` once, so concurrent
calls are linearizable: `val_linearizable`, and from it `val_reads_recent` on what a
process reads after a write of its own. In HW5 and HW3 a write stages its `int` in a
global that other calls assign as well, and commits what it finds there by then.
`rate_linearizable` and `led_linearizable` say that this is the only way in which
`blink_rate` and `LEDCTL` fail to be atomic registers: they are in every run in which
the calls find their own values, with the stores that reach the parameter past the
module, or the register past the driver, among the events.
-/

namespace BlinkDriver.CharDev

open Interleaving

variable {τ : Type}

/-- What a write amounts to: nothing if it returns an error, else a store of its
`int`. -/
def Write.access (k : Write τ) : Access (BitVec 32) :=
  if k.ret < 0 then .idle else .store k.buf.int

/-- What a read amounts to. -/
def readAccess : Option (BitVec 32) → Access (BitVec 32)
  | some v => .load v
  | none => .idle

/-- An event that a write of this `int` may amount to. -/
def Write.Asks (k : Write τ) (e : Access (BitVec 32)) : Prop := e = .store k.buf.int ∨ e = .idle

/-- An event that a read may amount to. -/
def ReadAsks (e : Access (BitVec 32)) : Prop := (∃ v, e = .load v) ∨ e = .idle

/-- A write takes effect with the access after which it is on its way out. -/
def Write.taken (k : Write τ) : Option (Access (BitVec 32)) :=
  if k.pc.leaving then some k.access else none

/-- What a write that has returned amounts to. -/
def Write.finished [DecidableEq τ] (k : Write τ) : Option (Access (BitVec 32)) :=
  if k.pc = .returned then some k.access else none

theorem Write.taken_of_under {k : Write τ} (under : k.pc.leaving = false) : k.taken = none := by
  rw [taken, under]
  rfl

theorem Write.taken_of_leaving {k : Write τ} (leaving : k.pc.leaving = true) :
    k.taken = some k.access :=
  if_pos leaving

theorem Write.taken_of_finished [DecidableEq τ] {k : Write τ} {e : Access (BitVec 32)}
    (finished : k.finished = some e) : k.taken = some e := by
  rw [Write.finished] at finished
  split at finished
  · rename_i pc
    rw [taken_of_leaving (by rw [pc]; rfl)]
    exact finished
  · cases finished

theorem Write.asks_of_taken {k : Write τ} {e : Access (BitVec 32)} (taking : k.taken = some e) :
    k.Asks e := by
  rw [taken] at taking
  split at taking
  · cases taking
    rw [Asks, access]
    split
    · exact Or.inr rfl
    · exact Or.inl rfl
  · cases taking

/-- Leaving with an error is a way to take effect as nothing. -/
theorem Write.taken_error {k : Write τ} (leaving : k.pc.leaving = true) (error : k.ret < 0) :
    k.taken = some .idle := by
  rw [taken_of_leaving leaving, access, if_pos error]

/-- Leaving with the length is a way to take effect as a store. -/
theorem Write.taken_length {k : Write τ} (leaving : k.pc.leaving = true)
    (whole : k.ret = k.buf.len) : k.taken = some (.store k.buf.int) := by
  have nonneg : ¬ k.ret < 0 := by omega
  rw [taken_of_leaving leaving, access, if_neg nonneg]

/-- What one access of a write may do to the register: nothing, and the call has taken
effect before and after or neither; or what the event says with which it takes effect. -/
def TakesEffect (before after : Option (Access (BitVec 32))) (v v' : BitVec 32) : Prop :=
  (after = before ∧ v' = v) ∨
    (before = none ∧ ∃ e, after = some e ∧ Access.perform e v = some v')

/-- An access that leaves the call under way. -/
theorem TakesEffect.under {k k' : Write τ} {v : BitVec 32} (before : k.pc.leaving = false)
    (after : k'.pc.leaving = false) : TakesEffect k.taken k'.taken v v :=
  Or.inl ⟨by rw [Write.taken_of_under before, Write.taken_of_under after], rfl⟩

/-- An access with which the call fails. -/
theorem TakesEffect.fail {k k' : Write τ} {v : BitVec 32} (before : k.pc.leaving = false)
    (leaving : k'.pc.leaving = true) (error : k'.ret < 0) : TakesEffect k.taken k'.taken v v :=
  Or.inr ⟨Write.taken_of_under before, .idle, Write.taken_error leaving error, rfl⟩

/-- The access with which the call stores its value. -/
theorem TakesEffect.store {k k' : Write τ} {v : BitVec 32} (before : k.pc.leaving = false)
    (leaving : k'.pc.leaving = true) (whole : k'.ret = k'.buf.len) :
    TakesEffect k.taken k'.taken v k'.buf.int :=
  Or.inr ⟨Write.taken_of_under before, _, Write.taken_length leaving whole, rfl⟩

/-- The way out. -/
theorem TakesEffect.free {k : Write τ} {v : BitVec 32} {freed : Nat} (pc : k.pc = .memOut) :
    TakesEffect k.taken ({ k with freed := freed, pc := .returned } : Write τ).taken v v := by
  refine Or.inl ⟨?_, rfl⟩
  rw [Write.taken_of_leaving (k := k) (by rw [pc]; rfl), Write.taken_of_leaving rfl]
  rfl

/-- One access of a staged write that finds its own value, on a register that the
staging sets with its last access and not before. -/
theorem TakesEffect.staged {γ : Type} {d : Staging γ τ} (lawful : d.Lawful)
    {good : BitVec 32 → Prop} {val : γ → BitVec 32}
    (body : ∀ p g k, val (d.body p g k).1 = val g)
    (handOn : ∀ v g, val (d.handOn v g) = v) {g g' : γ} {k k' : Write τ} (whole : Whole d k)
    (sound : Sound good k) (access : WriteStep d g k g' k') :
    TakesEffect k.taken k'.taken (val g) (val g') := by
  have under : ∀ {pc : WritePc τ}, k.pc = pc → pc.leaving = false →
      k.pc.leaving = false := fun same unleft => same ▸ unleft
  cases access with
  | badBuf pc => exact .fail (under pc rfl) rfl neg_einval
  | noMemory pc => exact .fail (under pc rfl) rfl neg_enomem
  | fault pc => exact .fail (under pc rfl) rfl neg_efault
  | goodBuf pc | alloc pc | copy pc | load pc => exact .under (under pc rfl) rfl
  | @body p pc =>
      rw [body]
      rcases (whole.onward lawful pc).next with
        ⟨leaving, error⟩ | ⟨-, target | ⟨_, -, target⟩⟩
      · exact .fail (under pc rfl) leaving error
      · exact .under (under pc rfl) (by rw [target]; rfl)
      · exact .under (under pc rfl) (by rw [target]; rfl)
  | @store v pc =>
      have own : v.setWidth 32 = k.buf.int := (sound.store v pc).2
      rw [handOn, own]
      exact .store (under pc rfl) rfl (whole.store v pc)
  | free pc => exact .free pc

/-! ## Reads that copy a global -/

/-- The next access of a read that copies one `int` from the globals. -/
def copyRead (ok : Bool) (v : BitVec 32) (k : Hw5.Read) : Option Hw5.Read :=
  match k.pc with
  | .checkOffset =>
      if k.offset ≥ 4 then some { k with ret := 0, pc := .returned }
      else some { k with pc := .checkBuf }
  | .checkBuf =>
      if k.null then some { k with ret := -einval, pc := .returned }
      else some { k with pc := .copy }
  | .copy =>
      if ok then
        some { k with
          delivered := some v, ret := 4, offset := k.offset + k.len, pc := .returned }
      else some { k with ret := -efault, pc := .returned }
  | .returned => none

/-- HW5 copies `blink_rate`. -/
theorem copyRead_blinkRate (ok : Bool) (g : Hw5.Globals) (k : Hw5.Read) :
    Hw5.example5Read ok g k = copyRead ok g.rate.blinkRate k := rfl

/-- What a read that has returned amounts to. -/
def readTaken (k : Hw5.Read) : Option (Access (BitVec 32)) :=
  if k.pc = .returned then some (readAccess k.delivered) else none

theorem readAsks_of_taken {k : Hw5.Read} {e : Access (BitVec 32)} (taking : readTaken k = some e) :
    ReadAsks e := by
  rw [readTaken] at taking
  split at taking
  · cases taking
    cases k.delivered with
    | none => exact Or.inr rfl
    | some v => exact Or.inl ⟨v, rfl⟩
  · cases taking

/-- A read that has not returned has delivered nothing. -/
def Undelivered (k : Hw5.Read) : Prop := k.pc ≠ .returned → k.delivered = none

theorem copyRead_takesEffect {ok : Bool} {v : BitVec 32} {k k' : Hw5.Read}
    (undelivered : Undelivered k) (moved : copyRead ok v k = some k') :
    Undelivered k' ∧ TakesEffect (readTaken k) (readTaken k') v v := by
  have idle : ∀ j : Hw5.Read, j.pc = .returned → j.delivered = none →
      readTaken j = some .idle := by
    intro j pc none
    rw [readTaken, if_pos pc, none]
    rfl
  unfold copyRead at moved
  split at moved
  case h_1 pc =>
      have before : readTaken k = none := if_neg (by rw [pc]; nofun)
      have none := undelivered (by rw [pc]; nofun)
      split at moved
      · cases moved
        exact ⟨fun _ => none, Or.inr ⟨before, .idle, idle _ rfl none, rfl⟩⟩
      · cases moved
        exact ⟨fun _ => none, Or.inl ⟨before.symm, rfl⟩⟩
  case h_2 pc =>
      have before : readTaken k = none := if_neg (by rw [pc]; nofun)
      have none := undelivered (by rw [pc]; nofun)
      split at moved
      · cases moved
        exact ⟨fun _ => none, Or.inr ⟨before, .idle, idle _ rfl none, rfl⟩⟩
      · cases moved
        exact ⟨fun _ => none, Or.inl ⟨before.symm, rfl⟩⟩
  case h_3 pc =>
      have before : readTaken k = none := if_neg (by rw [pc]; nofun)
      have none := undelivered (by rw [pc]; nofun)
      split at moved
      · cases moved
        exact ⟨fun under => (under rfl).elim, Or.inr ⟨before, .load v, rfl, if_pos rfl⟩⟩
      · cases moved
        exact ⟨fun _ => none, Or.inr ⟨before, .idle, idle _ rfl none, rfl⟩⟩
  case h_4 => cases moved

end BlinkDriver.CharDev

/-! ## HW2 -/

namespace BlinkDriver.Hw2

open CharDev Interleaving Transition

/-- `example5_write` has one access between the copy and the way out. -/
inductive AssignPc where
  | assign
  deriving DecidableEq

/-- The `int` is assigned to `syscall_val`, and nothing is tested or handed on. -/
def valStaging : Staging Globals AssignPc where
  first := .assign
  body _ _ k := (⟨readInt k.kernBuf⟩, { k with ret := k.buf.len, pc := .memOut })
  staged g := g.syscallVal.signExtend 64
  handOn _ g := g

def example5Write : Bool → Globals → Write AssignPc → Option (Globals × Write AssignPc) :=
  exampleWrite valStaging

/-- An open assigns 40 to `syscall_val`. -/
def example5Open (returned : Bool) : Option (Globals × Bool) :=
  if returned then none else some (⟨40⟩, true)

def example5Read (ok : Bool) (g : Globals) (k : Hw5.Read) : Option Hw5.Read :=
  copyRead ok g.syscallVal k

/-- A call of HW2. -/
inductive Call where
  | opening (returned : Bool)
  | reading (k : Hw5.Read)
  | writing (k : Write AssignPc)
  deriving DecidableEq

/-- The calls of HW2. Nothing else accesses `syscall_val`. -/
def program : Program Globals Call Hw5.Request Bool Empty where
  start
    | .openFile => .opening false
    | .read null len offset => .reading (.entered null len offset)
    | .write buf => .writing (.entered AssignPc buf)
  move ok g
    | .opening returned => (example5Open returned).map fun next => (next.1, .opening next.2)
    | .reading k => (example5Read ok g k).map fun next => (g, .reading next)
    | .writing k => (example5Write ok g k).map fun next => (next.1, .writing next.2)
  env := nofun

/-- An open amounts to a store of 40. -/
def interface : Interface Call Empty (Access (BitVec 32)) where
  asks
    | .opening _, e => e = .store 40
    | .reading _, e => ReadAsks e
    | .writing k, e => k.Asks e
  done
    | .opening returned => if returned then some (.store 40) else none
    | .reading k => readTaken k
    | .writing k => k.finished
  outside := nofun

def Call.taken : Call → Option (Access (BitVec 32))
  | .opening returned => if returned then some (.store 40) else none
  | .reading k => readTaken k
  | .writing k => k.taken

/-- The call has stored `v`: an open 40, and a write its `int` unless it fails. -/
def Call.Stored (v : BitVec 32) : Call → Prop
  | .opening returned => returned = true ∧ v = 40
  | .reading _ => False
  | .writing k => k.pc.leaving = true ∧ 0 ≤ k.ret ∧ v = k.buf.int

theorem Call.stored_of_taken {c : Call} {v : BitVec 32} (taking : c.taken = some (.store v)) :
    c.Stored v := by
  cases c with
  | opening returned =>
      rcases Option.ite_none_right_eq_some.mp taking with ⟨done, same⟩
      cases same
      exact ⟨done, rfl⟩
  | reading k =>
      rcases readAsks_of_taken taking with ⟨w, same⟩ | same <;> cases same
  | writing k =>
      rcases Option.ite_none_right_eq_some.mp taking with ⟨leaving, same⟩
      have access := Option.some.inj same
      unfold Write.access at access
      split at access
      · cases access
      · rename_i nonneg
        cases access
        exact ⟨leaving, not_lt.mp nonneg, rfl⟩

/-- A write finds its own `int` in its kernel buffer, and goes straight from the
assignment to its way out. -/
structure Copied (k : Write AssignPc) : Prop where
  copy : k.pc = .copy → k.kernBuf = List.replicate 4 0
  body : ∀ p, k.pc = .body p → k.kernBuf = copyFromUser (List.replicate 4 0) k.buf.bytes
  load : k.pc ≠ .load
  store : ∀ v, k.pc ≠ .store v

/-- What is known of a call between its accesses. -/
def Call.Regular : Call → Prop
  | .opening _ => True
  | .reading k => Undelivered k
  | .writing k => Copied k

/-- One access of a write. -/
theorem Copied.step {g g' : Globals} {k k' : Write AssignPc} (copied : Copied k)
    (access : WriteStep valStaging g k g' k') :
    Copied k' ∧ TakesEffect k.taken k'.taken g.syscallVal g'.syscallVal := by
  have under : ∀ {pc : WritePc AssignPc}, k.pc = pc → pc.leaving = false →
      k.pc.leaving = false := fun same unleft => same ▸ unleft
  cases access with
  | badBuf pc =>
      exact ⟨⟨nofun, nofun, nofun, nofun⟩, .fail (under pc rfl) rfl neg_einval⟩
  | goodBuf pc => exact ⟨⟨nofun, nofun, nofun, nofun⟩, .under (under pc rfl) rfl⟩
  | noMemory pc =>
      exact ⟨⟨nofun, nofun, nofun, nofun⟩, .fail (under pc rfl) rfl neg_enomem⟩
  | alloc pc => exact ⟨⟨fun _ => rfl, nofun, nofun, nofun⟩, .under (under pc rfl) rfl⟩
  | fault pc =>
      exact ⟨⟨nofun, nofun, nofun, nofun⟩, .fail (under pc rfl) rfl neg_efault⟩
  | copy pc =>
      refine ⟨⟨nofun, fun _ _ => ?_, nofun, nofun⟩, .under (under pc rfl) rfl⟩
      rw [copied.copy pc]
  | @body p pc =>
      have own : readInt k.kernBuf = k.buf.int := by rw [copied.body p pc]; rfl
      refine ⟨⟨nofun, nofun, nofun, nofun⟩, ?_⟩
      have taking : TakesEffect k.taken (valStaging.body p g k).2.taken g.syscallVal k.buf.int :=
        .store (under pc rfl) rfl rfl
      change TakesEffect _ _ _ (readInt k.kernBuf)
      rw [own]
      exact taking
  | load pc => exact (copied.load pc).elim
  | store pc => exact (copied.store _ pc).elim
  | free pc => exact ⟨⟨nofun, nofun, nofun, nofun⟩, .free pc⟩

/-- One access of a call. -/
theorem Call.Regular.step {ok : Bool} {g g' : Globals} {c c' : Call} (regular : c.Regular)
    (moved : program.move ok g c = some (g', c')) :
    c'.Regular ∧ TakesEffect c.taken c'.taken g.syscallVal g'.syscallVal := by
  cases c with
  | opening returned =>
      rcases Option.map_eq_some_iff.mp moved with ⟨next, opened, same⟩
      cases returned with
      | true => cases opened
      | false =>
          cases opened
          cases same
          exact ⟨trivial, Or.inr ⟨rfl, _, rfl, rfl⟩⟩
  | reading k =>
      rcases Option.map_eq_some_iff.mp moved with ⟨k', read, same⟩
      cases same
      exact copyRead_takesEffect regular read
  | writing k =>
      rcases Option.map_eq_some_iff.mp moved with ⟨⟨g₁, k'⟩, written, same⟩
      cases same
      exact Copied.step regular (.of_exampleWrite written)

theorem Call.Regular.start (request : Hw5.Request) : (program.start request).Regular := by
  cases request with
  | openFile => trivial
  | read null len offset => exact fun _ => rfl
  | write buf => exact ⟨nofun, nofun, nofun, nofun⟩

/-- The calls of HW2 take effect one at a time. -/
theorem points : Points program interface Access.perform Globals.syscallVal
    (fun s => ∀ i c, s.calls i = some c → c.Regular) (fun _ _ => True) Call.taken where
  start request := by cases request <;> rfl
  move s i ok c g' c' regular _ slot moved := ((regular i c slot).step moved).2
  env := nofun
  done s i c e _ _ done := by
    cases c with
    | opening returned => exact done
    | reading k => exact done
    | writing k => exact Write.taken_of_finished done
  asks s i c e _ _ taking := by
    cases c with
    | opening returned =>
        cases returned with
        | true => exact (Option.some.inj taking).symm
        | false => cases taking
    | reading k => exact readAsks_of_taken taking
    | writing k => exact Write.asks_of_taken taking

end BlinkDriver.Hw2

/-! ## HW5 -/

namespace BlinkDriver.Hw5

open CharDev Interleaving Transition

/-- An open leaves `blink_rate` alone, and a store to the parameter from outside the
module is an act of the surroundings. -/
def interface : Interface Call Globals (Access (BitVec 32)) where
  asks
    | .opening _, e => e = .idle
    | .closed, _ => False
    | .reading _, e => ReadAsks e
    | .writing k, e => k.Asks e
  done
    | .opening pc => if pc = .returned then some .idle else none
    | .closed => none
    | .reading k => readTaken k
    | .writing k => k.finished
  outside g := some (.store g.rate.blinkRate)

def Call.taken : Call → Option (Access (BitVec 32))
  | .opening pc => if pc = .returned then some .idle else none
  | .closed => none
  | .reading k => readTaken k
  | .writing k => k.taken

/-- A write call that moves finds its own value where it loads `syscall_val`. -/
def LoadsOwn (s : Interleaving.State Globals Call) :
    Interleaving.Label Request Bool Globals → Prop
  | .move i _ => ∀ k, s.calls i = some (.writing k) → FindsOwn s.globals.rate k
  | _ => True

instance (s : Interleaving.State Globals Call) (l : Interleaving.Label Request Bool Globals) :
    Decidable (LoadsOwn s l) := by
  unfold LoadsOwn
  split
  · rename_i i _
    cases s.calls i with
    | none => exact .isTrue nofun
    | some c =>
        cases c with
        | writing k =>
            exact decidable_of_iff (FindsOwn s.globals.rate k)
              ⟨fun own _ same => by cases same; exact own, fun own => own k rfl⟩
        | opening | closed | reading => exact .isTrue nofun
  · exact .isTrue trivial

/-- What is known of a call between its accesses, where the writes find their own
values. -/
def Call.Regular : Call → Prop
  | .opening _ => True
  | .closed => False
  | .reading k => Undelivered k
  | .writing k => Whole rateStaging k ∧ Sound NonNeg k

theorem example5Open_blinkRate {g g' : Globals} {pc pc' : OpenPc}
    (moved : example5Open g pc = some (g', pc')) : g'.rate.blinkRate = g.rate.blinkRate := by
  cases pc with
  | stage pc =>
      rcases Option.map_eq_some_iff.mp moved with ⟨_, staged, same⟩
      cases same
      cases pc with
      | loadRate | storeVal v => cases staged; rfl
      | returned => cases staged
  | clearLed | setup | arm | setTracker => cases moved; rfl
  | testTracker =>
      simp only [example5Open] at moved
      split at moved <;> cases moved <;> rfl
  | returned => cases moved

/-- One access of a write that finds its own value where it loads `syscall_val`. -/
theorem sound_of_findsOwn {g g' : Rate} {k k' : Write RatePc} (whole : Whole rateStaging k)
    (sound : Sound NonNeg k) (finds : FindsOwn g k) (access : WriteStep rateStaging g k g' k') :
    Whole rateStaging k' ∧ Sound NonNeg k' := by
  have passed : ∀ p, k.pc = .body p → (rateStaging.body p g k).2.pc = .load →
      NonNeg k.buf.int := by
    intro p pc target
    rcases checkRate_load target with ⟨rfl, sign⟩
    by_contra negative
    have low := finds.1 pc (not_le.mp negative)
    omega
  exact ⟨whole.step rateStaging_lawful access,
    sound.step rateStaging_lawful whole passed finds.2 access⟩

/-- One access of a call. -/
theorem Call.Regular.step {ok : Bool} {g g' : Globals} {c c' : Call} (regular : c.Regular)
    (own : ∀ k, c = .writing k → FindsOwn g.rate k)
    (moved : program.move ok g c = some (g', c')) :
    c'.Regular ∧ TakesEffect c.taken c'.taken g.rate.blinkRate g'.rate.blinkRate := by
  cases c with
  | opening pc =>
      rcases Option.map_eq_some_iff.mp moved with ⟨⟨g₁, pc'⟩, opened, same⟩
      cases same
      have going : pc ≠ .returned := by
        rintro rfl
        cases opened
      have before : Call.taken (.opening pc) = none := if_neg going
      have kept : g₁.rate.blinkRate = g.rate.blinkRate := example5Open_blinkRate opened
      refine ⟨trivial, ?_⟩
      rw [before, kept]
      by_cases last : pc' = .returned
      · exact Or.inr ⟨rfl, .idle, if_pos last, rfl⟩
      · exact Or.inl ⟨if_neg last, rfl⟩
  | closed => cases moved
  | reading k =>
      rcases Option.map_eq_some_iff.mp moved with ⟨k', read, same⟩
      cases same
      rw [copyRead_blinkRate] at read
      exact copyRead_takesEffect regular read
  | writing k =>
      rcases Option.map_eq_some_iff.mp moved with ⟨⟨rate, k'⟩, written, same⟩
      cases same
      rcases regular with ⟨whole, sound⟩
      have access : WriteStep rateStaging g.rate k rate k' := .of_exampleWrite written
      exact ⟨sound_of_findsOwn whole sound (own k rfl) access,
        .staged rateStaging_lawful checkRate_blinkRate (fun _ _ => rfl) whole sound access⟩

theorem Call.Regular.start (request : Request) : (program.start request).Regular := by
  cases request with
  | openFile => trivial
  | read null len offset => exact fun _ => rfl
  | write buf => exact ⟨.entered rateStaging buf, .entered buf⟩

/-- The calls of HW5 whose loads find their own values take effect one at a time. -/
theorem points : Points program interface Access.perform (fun g => g.rate.blinkRate)
    (fun s => ∀ i c, s.calls i = some c → c.Regular) LoadsOwn Call.taken where
  start request := by cases request <;> rfl
  move s i ok c g' c' regular own slot moved :=
    ((regular i c slot).step (fun k same => own k (same ▸ slot)) moved).2
  env _ _ := rfl
  done s i c e _ _ done := by
    cases c with
    | opening pc => exact done
    | closed => cases done
    | reading k => exact done
    | writing k => exact Write.taken_of_finished done
  asks s i c e regular slot taking := by
    cases c with
    | opening pc =>
        change (if pc = .returned then some Access.idle else none) = some e at taking
        split at taking
        · exact (Option.some.inj taking).symm
        · cases taking
    | closed => exact (regular i _ slot).elim
    | reading k => exact readAsks_of_taken taking
    | writing k => exact Write.asks_of_taken taking

end BlinkDriver.Hw5

/-! ## HW3 -/

namespace BlinkDriver.Hw3

open CharDev Interleaving Transition

/-- A read takes effect with its `readl`. -/
def Read.taken (k : Read) : Option (Access (BitVec 32)) :=
  match k.pc with
  | .checkOffset | .checkBuf | .readl => none
  | .store _ | .copy | .returned => some (readAccess k.obtained)

/-- What a read that has returned amounts to: one that has returned 4 is a load of what
it copied out, any other at most one of what it obtained. -/
def Read.finished (k : Read) : Option (Access (BitVec 32)) :=
  if k.pc = .returned then some (readAccess (if k.ret = 4 then k.delivered else k.obtained))
  else none

/-- An open leaves `LEDCTL` alone, and a store by another agent is an act of the
surroundings. -/
def interface : Interface Call (BitVec 32) (Access (BitVec 32)) where
  asks
    | .opening _, e => e = .idle
    | .reading _, e => ReadAsks e
    | .writing k, e => k.Asks e
  done
    | .opening returned => if returned then some .idle else none
    | .reading k => k.finished
    | .writing k => k.finished
  outside led := some (.store led)

def Call.taken : Call → Option (Access (BitVec 32))
  | .opening returned => if returned then some .idle else none
  | .reading k => k.taken
  | .writing k => k.taken

/-- Before its `readl` a read has obtained nothing, and what it returns then is no
length. -/
structure Read.Regular (k : Read) : Prop extends k.Sound where
  early : k.taken = none → k.obtained = none

/-- A read that returns before its `readl`. -/
theorem Read.Regular.refuse {k : Read} (regular : k.Regular) (under : k.taken = none) {ret : Int}
    (error : ret ≠ 4) {v : BitVec 32} :
    ({ k with ret := ret, pc := .returned } : Read).Regular ∧
      TakesEffect k.taken ({ k with ret := ret, pc := .returned } : Read).taken v v := by
  refine ⟨⟨.failed rfl error, nofun⟩, Or.inr ⟨under, .idle, ?_, rfl⟩⟩
  simp only [Read.taken, regular.early under, readAccess]

/-- One access of a read. -/
theorem Read.Regular.step {ok : Bool} {g g' : Led} {k k' : Read} (regular : k.Regular)
    (own : k.pc = .copy → ok = true → some (g.ledCurrentVal.setWidth 32) = k.obtained)
    (moved : example5Read ok g k = some (g', k')) :
    k'.Regular ∧ TakesEffect k.taken k'.taken g.ledctl g'.ledctl := by
  have sound := regular.toSound.step own moved
  have at_pc : ∀ {pc : ReadPc}, k.pc = pc → k.taken = ({ k with pc := pc } : Read).taken :=
    fun same => by rw [← same]
  unfold example5Read at moved
  split at moved
  case h_1 pc =>
      have under : k.taken = none := at_pc pc
      split at moved
      · cases moved
        exact regular.refuse under (by decide : (0 : Int) ≠ 4)
      · cases moved
        exact ⟨⟨sound, fun _ => regular.early under⟩, Or.inl ⟨under.symm, rfl⟩⟩
  case h_2 pc =>
      have under : k.taken = none := at_pc pc
      split at moved
      · cases moved
        exact regular.refuse under (by decide : -einval ≠ 4)
      · cases moved
        exact ⟨⟨sound, fun _ => regular.early under⟩, Or.inl ⟨under.symm, rfl⟩⟩
  case h_3 pc =>
      cases moved
      exact ⟨⟨sound, nofun⟩, Or.inr ⟨at_pc pc, .load g.ledctl, rfl, if_pos rfl⟩⟩
  case h_4 v pc =>
      cases moved
      exact ⟨⟨sound, nofun⟩, Or.inl ⟨(at_pc pc).symm, rfl⟩⟩
  case h_5 pc =>
      split at moved
      · cases moved
        exact ⟨⟨sound, nofun⟩, Or.inl ⟨(at_pc pc).symm, rfl⟩⟩
      · cases moved
        exact ⟨⟨sound, nofun⟩, Or.inl ⟨(at_pc pc).symm, rfl⟩⟩
  case h_6 => cases moved

/-- What is known of a call between its accesses, where the calls find their own values. -/
def Call.Regular : Call → Prop
  | .opening _ => True
  | .reading k => k.Regular
  | .writing k => Whole ledStaging k ∧ Sound (fun _ => True) k

/-- The tests of a write leave `LEDCTL` alone. -/
theorem checkLed_ledctl (p : LedPc) (g : Led) (k : Write LedPc) :
    (checkLed p g k).1.ledctl = g.ledctl := by
  cases p with
  | testLow | testHigh => unfold checkLed; dsimp only; split <;> rfl
  | _ => rfl

/-- One access of a call. -/
theorem Call.Regular.step {ok : Bool} {g g' : Led} {c c' : Call} (regular : c.Regular)
    (write : ∀ k, c = .writing k → k.pc = .load → g.ledCurrentVal.setWidth 32 = k.buf.int)
    (read : ∀ k, c = .reading k → k.pc = .copy → ok = true →
      some (g.ledCurrentVal.setWidth 32) = k.obtained)
    (moved : program.move ok g c = some (g', c')) :
    c'.Regular ∧ TakesEffect c.taken c'.taken g.ledctl g'.ledctl := by
  cases c with
  | opening returned =>
      rcases Option.map_eq_some_iff.mp moved with ⟨next, opened, same⟩
      cases returned with
      | true => cases opened
      | false =>
          cases opened
          cases same
          exact ⟨trivial, Or.inr ⟨rfl, .idle, rfl, rfl⟩⟩
  | reading k =>
      rcases Option.map_eq_some_iff.mp moved with ⟨⟨g₁, k'⟩, access, same⟩
      cases same
      exact Read.Regular.step regular (read k rfl) access
  | writing k =>
      rcases Option.map_eq_some_iff.mp moved with ⟨⟨g₁, k'⟩, written, same⟩
      cases same
      rcases regular with ⟨whole, sound⟩
      have access : WriteStep ledStaging g k g₁ k' := .of_exampleWrite written
      exact ⟨⟨whole.step ledStaging_lawful access,
        sound.step ledStaging_lawful whole (fun _ _ _ => trivial) (write k rfl) access⟩,
        .staged ledStaging_lawful checkLed_ledctl (fun _ _ => rfl) whole sound access⟩

theorem Call.Regular.start (request : Request) : (program.start request).Regular := by
  cases request with
  | openFile => trivial
  | read null len offset => exact ⟨⟨nofun, nofun, nofun⟩, fun _ => rfl⟩
  | write buf => exact ⟨.entered ledStaging buf, .entered buf⟩

/-- The calls of HW3 whose loads find their own values take effect one at a time. -/
theorem points : Points program interface Access.perform Led.ledctl
    (fun s => ∀ i c, s.calls i = some c → c.Regular) LoadsOwn Call.taken where
  start request := by cases request <;> rfl
  move s i ok c g' c' regular own slot moved :=
    ((regular i c slot).step (fun k same => own.1 k (same ▸ slot))
      (fun k same => own.2 k (same ▸ slot)) moved).2
  env _ _ := rfl
  done s i c e regular slot done := by
    cases c with
    | opening returned => exact done
    | reading k =>
        have sound : k.Regular := regular i _ slot
        change k.finished = some e at done
        unfold Read.finished at done
        split at done
        · rename_i pc
          have same : (if k.ret = 4 then k.delivered else k.obtained) = k.obtained := by
            split
            · rename_i four
              rcases sound.outcome pc four with ⟨v, obtained, delivered⟩
              rw [obtained, delivered]
            · rfl
          rw [same] at done
          change k.taken = some e
          unfold Read.taken
          rw [pc]
          exact done
        · cases done
    | writing k => exact Write.taken_of_finished done
  asks s i c e _ _ taking := by
    cases c with
    | opening returned =>
        cases returned with
        | true => exact (Option.some.inj taking).symm
        | false => cases taking
    | reading k =>
        change k.taken = some e at taking
        unfold Read.taken at taking
        split at taking
        · cases taking
        · cases taking
        · cases taking
        all_goals
          cases taking
          cases k.obtained with
          | none => exact Or.inr rfl
          | some v => exact Or.inl ⟨v, rfl⟩
    | writing k => exact Write.asks_of_taken taking

end BlinkDriver.Hw3

namespace BlinkDriver.CharDev

open Interleaving Transition

theorem Hw2.regular_of_run {g : Hw2.Globals} {t : State Hw2.Globals Hw2.Call}
    {trace : List (State Hw2.Globals Hw2.Call × Label Hw5.Request Bool Empty)}
    (run : Run Hw2.program.step (.idle g) trace t) :
    ∀ i c, t.calls i = some c → c.Regular :=
  (Program.invariant (G := fun _ => True) Hw2.Call.Regular.start
    (fun _ _ _ _ _ _ _ _ _ regular moved => ⟨trivial, (regular.step moved).1⟩)
    nofun run run.meets_true (.idle trivial)).calls

/-- **HW2 is an atomic register.** However opens, reads and writes overlap, the run
seems to perform them one after another, in an order that respects which returned
before which began: an open stores 40, a write stores its `int` or fails without
effect, and a read delivers what was stored last before it. -/
theorem val_linearizable {g : Hw2.Globals} {t : State Hw2.Globals Hw2.Call}
    {trace : List (State Hw2.Globals Hw2.Call × Label Hw5.Request Bool Empty)}
    (run : Run Hw2.program.step (.idle g) trace t) :
    Atomic Hw2.program Hw2.interface Hw2.Globals.syscallVal g trace t :=
  Hw2.points.atomic (fun _ _ run _ => Hw2.regular_of_run run) run run.meets_true

/-- A write of 5 that overlaps an open and a read. -/
theorem val_linearizable_overlapping :
    ∃ t trace, Run Hw2.program.step (.idle ⟨0⟩) trace t ∧ t.globals.syscallVal = 40 ∧
      Atomic Hw2.program Hw2.interface Hw2.Globals.syscallVal ⟨0⟩ trace t := by
  obtain ⟨t, trace, run, -, stored⟩ := Run.of_exec_any Hw2.program.step (.idle ⟨0⟩)
    (.start 0 (.write five) :: List.replicate 3 (.move 0 true) ++
      .start 1 (.read false 4 0) :: .move 0 true :: List.replicate 3 (.move 1 true) ++
      [.start 2 .openFile, .move 2 true, .move 0 true])
    (fun t => t.globals.syscallVal = 40) (by decide +kernel)
  exact ⟨t, trace, run, stored, val_linearizable run⟩

/-- **A process reads what it wrote.** A read that begins in `u`, after a write has
returned its length there, delivers the `int` of the write, or a value that another
call has stored: an open, or a write that does not fail, which had not returned when the
write began. -/
theorem val_reads_recent {g : Hw2.Globals} {s u t : State Hw2.Globals Hw2.Call}
    {first middle last : List (State Hw2.Globals Hw2.Call × Label Hw5.Request Bool Empty)}
    (begins : Run Hw2.program.step (.idle g) first s) (writes : Run Hw2.program.step s middle u)
    (reads : Run Hw2.program.step u last t) {i j : Nat} {k : Write Hw2.AssignPc} {k' : Hw5.Read}
    {v : BitVec 32} (fresh : s.calls i = none) (write : u.calls i = some (.writing k))
    (written : k.pc = .returned ∧ k.ret = k.buf.len) (vacant : u.calls j = none)
    (read : t.calls j = some (.reading k')) (returned : k'.pc = .returned)
    (delivered : k'.delivered = some v) :
    v = k.buf.int ∨
      ∃ n c, n ≠ i ∧ t.calls n = some c ∧ c.Stored v ∧
        ∀ c₀, s.calls n = some c₀ → Hw2.interface.done c₀ = none := by
  have stores : Hw2.interface.done (.writing k) = some (.store k.buf.int) := by
    have positive : ¬ k.ret < 0 := by omega
    change k.finished = _
    rw [Write.finished, if_pos written.1, Write.access, if_neg positive]
  have loads : Hw2.interface.done (.reading k') = some (.load v) := by
    change readTaken k' = _
    rw [readTaken, if_pos returned, delivered]
    rfl
  have whole := begins.trans (writes.trans reads)
  have atomic := Hw2.points.exactly.atomic (fun _ _ run _ => Hw2.regular_of_run run) whole
    whole.meets_true
  rcases atomic.recent begins writes reads fresh write stores vacant read loads with
    own | ⟨n, c, other, running, taking, before⟩ | act
  · exact Or.inl own
  · exact Or.inr ⟨n, c, other, running, Hw2.Call.stored_of_taken taking, before⟩
  · -- Nothing else than the calls stores.
    rcases List.mem_filterMap.mp act with ⟨⟨_, l⟩, -, outside⟩
    cases l with
    | env e => exact e.elim
    | start | move => cases outside

/-- An open and a read by another process, then a write of 5 and a read after it. -/
theorem val_reads_recent_in_turn :
    ∃ t trace k', Run Hw2.program.step (.idle ⟨0⟩) trace t ∧ t.calls 3 = some (.reading k') ∧
      k'.delivered = some 5 ∧ ((5 : BitVec 32) = five.int ∨
        ∃ n c, n ≠ 2 ∧ t.calls n = some c ∧ c.Stored 5) := by
  let write : Write Hw2.AssignPc := { Write.entered Hw2.AssignPc five with
    pc := .returned, kernBuf := five.bytes, ret := 4, obtained := true, freed := 1 }
  let read : Hw5.Read := { Hw5.Read.entered false 10 0 with
    pc := .returned, ret := 4, offset := 10, delivered := some 5 }
  obtain ⟨s, first, begins, -, fresh, rest⟩ := Run.of_exec_any Hw2.program.step (.idle ⟨0⟩)
    [.start 0 .openFile, .move 0 true, .start 1 (.read false 10 0), .move 1 true]
    (fun s => s.calls 2 = none ∧
      (exec Hw2.program.step s (.start 2 (.write five) :: List.replicate 5 (.move 2 true))).any
        (fun u => u.calls 2 = some (.writing write) ∧ u.calls 3 = none ∧
          (exec Hw2.program.step u
            (.start 3 (.read false 10 0) :: List.replicate 3 (.move 3 true))).any
            (fun t => t.calls 3 = some (.reading read)) = true) = true)
    (by decide +kernel)
  rcases Run.of_exec_any _ s _ _ rest with ⟨u, middle, writes, -, written, vacant, rest⟩
  rcases Run.of_exec_any _ u _ _ rest with ⟨t, last, reads, -, delivered⟩
  refine ⟨t, _, read, begins.trans (writes.trans reads), delivered, rfl, ?_⟩
  refine (val_reads_recent begins writes reads fresh written ⟨rfl, rfl⟩ vacant delivered rfl
    rfl).imp id ?_
  rintro ⟨n, c, other, running, stored, -⟩
  exact ⟨n, c, other, running, stored⟩

/-- **`blink_rate` is an atomic register where the writes find their own values.** Then
the run of HW5 seems to perform its calls and the stores to the parameter from outside
the module one after another, in an order that respects which returned before which
began: a write stores its `int` or fails without effect, and a read delivers what was
stored last before it. -/
theorem rate_linearizable {g : Hw5.Globals} {t : State Hw5.Globals Hw5.Call}
    {trace : List (State Hw5.Globals Hw5.Call × Label Hw5.Request Bool Hw5.Globals)}
    (run : Run Hw5.program.step (.idle g) trace t) (own : Meets Hw5.LoadsOwn trace) :
    Atomic Hw5.program Hw5.interface (fun g => g.rate.blinkRate) g trace t := by
  refine Hw5.points.atomic (fun u front run meets => ?_) run own
  exact (Program.invariant (G := fun _ => True) Hw5.Call.Regular.start
    (fun s i _ c _ _ own slot _ regular moved =>
      ⟨trivial, (regular.step (fun k same => own k (same ▸ slot)) moved).1⟩)
    (fun _ _ _ => trivial) run meets (.idle trivial)).calls

/-- A write of 5, with a read that overlaps it, and a store to the parameter. -/
theorem rate_linearizable_overlapping :
    ∃ t trace, Run Hw5.program.step (.idle (Hw5.State.off 0).g) trace t ∧
      t.globals.rate.blinkRate = 5 ∧
      Atomic Hw5.program Hw5.interface (fun g => g.rate.blinkRate) (Hw5.State.off 0).g trace t := by
  obtain ⟨t, trace, run, -, stored⟩ := Run.of_exec_any
    (restrict Hw5.LoadsOwn Hw5.program.step) (.idle (Hw5.State.off 0).g)
    (.start 0 (.write five) :: List.replicate 4 (.move 0 true) ++
      .start 1 (.read false 4 0) :: .env ((Hw5.State.off 0).g.loaded 2) ::
      List.replicate 2 (.move 1 true) ++ List.replicate 6 (.move 0 true) ++ [.move 1 true])
    (fun t => t.globals.rate.blinkRate = 5) (by decide +kernel)
  rcases run.of_restrict with ⟨run, own⟩
  exact ⟨t, trace, run, stored, rate_linearizable run own⟩

/-- **`LEDCTL` is an atomic register where the calls of HW3 find their own values.** Then
the run seems to perform its calls and the stores of other agents one after another, in
an order that respects which returned before which began: a write stores its `int` or
fails without effect, and a read that returns 4 delivers what was stored last before it. -/
theorem led_linearizable {g : Hw3.Led} {t : State Hw3.Led Hw3.Call}
    {trace : List (State Hw3.Led Hw3.Call × Label Hw3.Request Bool (BitVec 32))}
    (run : Run Hw3.program.step (.idle g) trace t) (own : Meets Hw3.LoadsOwn trace) :
    Atomic Hw3.program Hw3.interface Hw3.Led.ledctl g trace t := by
  refine Hw3.points.atomic (fun u front run meets => ?_) run own
  exact (Program.invariant (G := fun _ => True) Hw3.Call.Regular.start
    (fun s i _ c _ _ own slot _ regular moved =>
      ⟨trivial, (regular.step (fun k same => own.1 k (same ▸ slot))
        (fun k same => own.2 k (same ▸ slot)) moved).1⟩)
    (fun _ _ _ => trivial) run meets (.idle trivial)).calls

/-- A read that overlaps a store by another agent, and a write after it. -/
theorem led_linearizable_overlapping :
    ∃ t trace, Run Hw3.program.step (.idle ⟨0, 0, 0x800000⟩) trace t ∧
      t.globals.ledctl = 0x80 ∧
      Atomic Hw3.program Hw3.interface Hw3.Led.ledctl ⟨0, 0, 0x800000⟩ trace t := by
  obtain ⟨t, trace, run, -, stored⟩ := Run.of_exec_any
    (restrict Hw3.LoadsOwn Hw3.program.step) (.idle ⟨0, 0, 0x800000⟩)
    (.start 0 (.read false 4 0) :: Hw3.moves 3 0 ++ .env 0 :: Hw3.moves 2 0 ++
      .start 1 (.write Hw3.ledOn) :: Hw3.moves 11 1)
    (fun t => t.globals.ledctl = 0x80) (by decide +kernel)
  rcases run.of_restrict with ⟨run, own⟩
  exact ⟨t, trace, run, stored, led_linearizable run own⟩

end BlinkDriver.CharDev
