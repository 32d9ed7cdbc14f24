import BlinkDriver.Lib.Interleaving
import BlinkDriver.Lib.LittleEndian

/-!
# The common shape of `example5_write`

In HW3, HW5 and HW6 a write checks its buffer, allocates four zeroed bytes,
copies the user's bytes over them, assigns the `int` it finds there to a global,
tests it, hands on what the global holds by then and frees the bytes. The
assignment and the tests are the parameter `body` of `exampleWrite`, the global
is `staged`, and what becomes of its value is `handOn`.

A call is one access at a time. `ok` says whether the access succeeds, where it
can fail.

Calls overlap, so the value that is handed on need not be the call's own.
`Sound` is what is known of a call whose loads found its own value, `Astray` of
one whose loads did not; `Sound.step` and `Astray.step` are their invariance.
-/

namespace BlinkDriver.CharDev

open LittleEndian

def einval : Int := 22
def enomem : Int := 12
def efault : Int := 14

theorem neg_einval : -einval < 0 := by decide
theorem neg_enomem : -enomem < 0 := by decide
theorem neg_efault : -efault < 0 := by decide

/-- The buffer a write call is given. The system call layer transfers fewer than
2^31 bytes at once. -/
structure UserBuffer where
  bytes : List Byte
  null : Bool
  bounded : bytes.length < 2 ^ 31
  deriving DecidableEq

def UserBuffer.len (buf : UserBuffer) : Nat := buf.bytes.length

/-- Copy user bytes to the start of a kernel buffer. What a longer copy does to
the memory behind the buffer is not followed. -/
def copyFromUser (kernBuf bytes : List Byte) : List Byte :=
  bytes.take kernBuf.length ++ kernBuf.drop bytes.length

/-- `*(int*) kern_buf`. -/
def readInt (kernBuf : List Byte) : BitVec 32 := BitVec.ofNat 32 (ofBytes (kernBuf.take 4))

/-- The `int` a write call finds in its kernel buffer. -/
def UserBuffer.int (buf : UserBuffer) : BitVec 32 :=
  readInt (copyFromUser (List.replicate 4 0) buf.bytes)

/-- Program points of a write call. -/
inductive WritePc (τ : Type) where
  | checkBuf
  | alloc
  | copy
  | body (pc : τ)
  | load
  | store (v : BitVec 64)
  | memOut
  | returned
  deriving DecidableEq

/-- The call has its return value and is on its way out. -/
def WritePc.leaving {τ : Type} : WritePc τ → Bool
  | .memOut | .returned => true
  | _ => false

/-- A write call: its arguments, its locals, what it did with the kernel buffer,
and the value it has handed on, if it has. -/
structure Write (τ : Type) where
  buf : UserBuffer
  pc : WritePc τ
  kernBuf : List Byte
  ret : Int
  obtained : Bool
  freed : Nat
  delivered : Option (BitVec 32)
  deriving DecidableEq

/-- A call that has just entered the function. -/
def Write.entered (τ : Type) (buf : UserBuffer) : Write τ where
  buf := buf
  pc := .checkBuf
  kernBuf := []
  ret := 0
  obtained := false
  freed := 0
  delivered := none

/-- What the writes of the drivers differ in. -/
structure Staging (γ τ : Type) where
  first : τ
  body : τ → γ → Write τ → γ × Write τ
  staged : γ → BitVec 64
  handOn : BitVec 32 → γ → γ

variable {γ τ : Type}

/-- The next access of a write call. -/
def exampleWrite (d : Staging γ τ) (ok : Bool) (g : γ) (k : Write τ) : Option (γ × Write τ) :=
  match k.pc with
  | .checkBuf =>
      if k.buf.null then some (g, { k with ret := -einval, pc := .returned })
      else some (g, { k with pc := .alloc })
  | .alloc =>
      if ok then
        some (g, { k with obtained := true, kernBuf := List.replicate 4 0, pc := .copy })
      else some (g, { k with ret := -enomem, pc := .returned })
  | .copy =>
      if ok then
        some (g, { k with kernBuf := copyFromUser k.kernBuf k.buf.bytes, pc := .body d.first })
      else some (g, { k with ret := -efault, pc := .memOut })
  | .body pc => some (d.body pc g k)
  | .load => some (g, { k with pc := .store (d.staged g) })
  | .store v =>
      some (d.handOn (v.setWidth 32) g,
        { k with delivered := some (v.setWidth 32), pc := .memOut })
  | .memOut => some (g, { k with freed := k.freed + 1, pc := .returned })
  | .returned => none

/-! ## One access -/

/-- The accesses of a write call. -/
inductive WriteStep (d : Staging γ τ) (g : γ) (k : Write τ) : γ → Write τ → Prop
  | badBuf (pc : k.pc = .checkBuf) :
      WriteStep d g k g { k with ret := -einval, pc := .returned }
  | goodBuf (pc : k.pc = .checkBuf) : WriteStep d g k g { k with pc := .alloc }
  | noMemory (pc : k.pc = .alloc) :
      WriteStep d g k g { k with ret := -enomem, pc := .returned }
  | alloc (pc : k.pc = .alloc) :
      WriteStep d g k g
        { k with obtained := true, kernBuf := List.replicate 4 0, pc := .copy }
  | fault (pc : k.pc = .copy) : WriteStep d g k g { k with ret := -efault, pc := .memOut }
  | copy (pc : k.pc = .copy) :
      WriteStep d g k g
        { k with kernBuf := copyFromUser k.kernBuf k.buf.bytes, pc := .body d.first }
  | body {point : τ} (pc : k.pc = .body point) :
      WriteStep d g k (d.body point g k).1 (d.body point g k).2
  | load (pc : k.pc = .load) : WriteStep d g k g { k with pc := .store (d.staged g) }
  | store {v : BitVec 64} (pc : k.pc = .store v) :
      WriteStep d g k (d.handOn (v.setWidth 32) g)
        { k with delivered := some (v.setWidth 32), pc := .memOut }
  | free (pc : k.pc = .memOut) :
      WriteStep d g k g { k with freed := k.freed + 1, pc := .returned }

theorem WriteStep.of_exampleWrite {d : Staging γ τ} {ok : Bool} {g g' : γ} {k k' : Write τ}
    (moved : exampleWrite d ok g k = some (g', k')) : WriteStep d g k g' k' := by
  unfold exampleWrite at moved
  split at moved
  case h_1 pc =>
      split at moved
      · cases moved
        exact .badBuf pc
      · cases moved
        exact .goodBuf pc
  case h_2 pc =>
      split at moved
      · cases moved
        exact .alloc pc
      · cases moved
        exact .noMemory pc
  case h_3 pc =>
      split at moved
      · cases moved
        exact .copy pc
      · cases moved
        exact .fault pc
  case h_4 point pc =>
      have next := Option.some.inj moved
      have made : WriteStep d g k (d.body point g k).1 (d.body point g k).2 := .body pc
      rwa [next] at made
  case h_5 pc => cases moved; exact .load pc
  case h_6 v pc => cases moved; exact .store pc
  case h_7 pc => cases moved; exact .free pc
  case h_8 => cases moved

/-- What an access of the body does to the call: it leaves with an error, or it
goes on and will return the length unless a later access fails. -/
structure Onward (d : Staging γ τ) (k k' : Write τ) : Prop where
  buf : k'.buf = k.buf
  delivered : k'.delivered = k.delivered
  next : (k'.pc.leaving = true ∧ k'.ret < 0) ∨
    (k'.ret = k.buf.len ∧ (k'.pc = .load ∨ ∃ p, p ≠ d.first ∧ k'.pc = .body p))

/-- Every access of the body does, if from the first one on the call has been
going to return the length. -/
def Staging.Lawful (d : Staging γ τ) : Prop :=
  ∀ p g k, p = d.first ∨ k.ret = k.buf.len → Onward d k (d.body p g k).2

/-! ## Calls that are going to return the length -/

/-- After the assignment the call will return the length unless it fails. -/
structure Whole (d : Staging γ τ) (k : Write τ) : Prop where
  body : ∀ p, k.pc = .body p → p = d.first ∨ k.ret = k.buf.len
  load : k.pc = .load → k.ret = k.buf.len
  store : ∀ v, k.pc = .store v → k.ret = k.buf.len

theorem Whole.entered (d : Staging γ τ) (buf : UserBuffer) : Whole d (.entered τ buf) :=
  ⟨nofun, nofun, nofun⟩

theorem Whole.onward {d : Staging γ τ} (lawful : d.Lawful) {g : γ} {k : Write τ} (whole : Whole d k)
    {p : τ} (pc : k.pc = .body p) : Onward d k (d.body p g k).2 :=
  lawful p g k (whole.body p pc)

theorem Whole.step {d : Staging γ τ} (lawful : d.Lawful) {g g' : γ} {k k' : Write τ}
    (whole : Whole d k) (access : WriteStep d g k g' k') : Whole d k' := by
  cases access with
  | copy => exact ⟨fun p same => by cases same; exact Or.inl rfl, nofun, nofun⟩
  | body pc =>
      have onward := whole.onward lawful (g := g) pc
      rcases onward.next with ⟨leaving, -⟩ | ⟨ret, -⟩
      · refine ⟨fun p same => ?_, fun same => ?_, fun v same => ?_⟩ <;>
          (rw [same] at leaving; cases leaving)
      · rw [← onward.buf] at ret
        exact ⟨fun _ _ => Or.inr ret, fun _ => ret, fun _ _ => ret⟩
  | load pc => exact ⟨nofun, nofun, fun _ _ => whole.load pc⟩
  | _ => exact ⟨nofun, nofun, nofun⟩

/-! ## Calls whose loads found their own value -/

variable {good : BitVec 32 → Prop}

/-- What is known of a write call whose loads found its own value: it has handed
on its `int`, a good one, or nothing yet, and then it returns an error unless it
still does. -/
structure Sound (good : BitVec 32 → Prop) (k : Write τ) : Prop where
  outcome : (k.delivered = none ∧ (k.pc.leaving = true → k.ret < 0)) ∨
    (k.delivered = some k.buf.int ∧ good k.buf.int)
  load : k.pc = .load → good k.buf.int
  store : ∀ v, k.pc = .store v → good k.buf.int ∧ v.setWidth 32 = k.buf.int

theorem Sound.entered (buf : UserBuffer) : Sound good (.entered τ buf) :=
  ⟨Or.inl ⟨rfl, nofun⟩, nofun, nofun⟩

/-- An access after which the call is still under way. -/
theorem Sound.under {k k' : Write τ} (sound : Sound good k) (buf : k'.buf = k.buf)
    (delivered : k'.delivered = k.delivered) (under : k'.pc.leaving = false)
    (load : k'.pc = .load → good k.buf.int)
    (store : ∀ v, k'.pc = .store v → good k.buf.int ∧ v.setWidth 32 = k.buf.int) :
    Sound good k' := by
  rw [← buf] at load store
  refine ⟨?_, load, store⟩
  rw [buf, delivered, under]
  exact sound.outcome.imp (fun nothing => ⟨nothing.1, nofun⟩) id

/-- An access after which the call leaves with an error. -/
theorem Sound.fail {k k' : Write τ} (sound : Sound good k) (buf : k'.buf = k.buf)
    (delivered : k'.delivered = k.delivered) (leaving : k'.pc.leaving = true)
    (error : k'.ret < 0) : Sound good k' := by
  refine ⟨?_, fun pc => ?_, fun v pc => ?_⟩
  · rw [buf, delivered]
    exact sound.outcome.imp (fun nothing => ⟨nothing.1, fun _ => error⟩) id
  · rw [pc] at leaving
    cases leaving
  · rw [pc] at leaving
    cases leaving

/-- One access, if the tests pass good values only and the load finds the call's
own value. -/
theorem Sound.step {d : Staging γ τ} (lawful : d.Lawful) {g g' : γ} {k k' : Write τ}
    (sound : Sound good k) (whole : Whole d k)
    (passed : ∀ p, k.pc = .body p → (d.body p g k).2.pc = .load → good k.buf.int)
    (found : k.pc = .load → (d.staged g).setWidth 32 = k.buf.int)
    (access : WriteStep d g k g' k') : Sound good k' := by
  cases access with
  | badBuf => exact sound.fail rfl rfl rfl neg_einval
  | goodBuf => exact sound.under rfl rfl rfl nofun nofun
  | noMemory => exact sound.fail rfl rfl rfl neg_enomem
  | alloc => exact sound.under rfl rfl rfl nofun nofun
  | fault => exact sound.fail rfl rfl rfl neg_efault
  | copy => exact sound.under rfl rfl rfl nofun nofun
  | body pc =>
      have onward := whole.onward lawful (g := g) pc
      rcases onward.next with ⟨leaving, error⟩ | ⟨-, target | ⟨p, -, target⟩⟩
      · exact sound.fail onward.buf onward.delivered leaving error
      · refine sound.under onward.buf onward.delivered (by rw [target]; rfl)
          (passed _ pc) (fun v other => ?_)
        rw [target] at other
        cases other
      · refine sound.under onward.buf onward.delivered (by rw [target]; rfl)
          (fun other => ?_) (fun v other => ?_)
        · rw [target] at other
          cases other
        · rw [target] at other
          cases other
  | load pc =>
      refine sound.under rfl rfl rfl nofun fun v target => ?_
      cases target
      exact ⟨sound.load pc, found pc⟩
  | store pc =>
      obtain ⟨fine, same⟩ := sound.store _ pc
      rw [same]
      exact ⟨Or.inr ⟨rfl, fine⟩, nofun, nofun⟩
  | free pc =>
      have before : k.pc.leaving = true := by rw [pc]; rfl
      exact ⟨sound.outcome.imp (fun nothing => ⟨nothing.1, fun _ => nothing.2 before⟩) id,
        nofun, nofun⟩

/-- A sound call that returns the length has handed on its own `int`. -/
theorem Sound.own {k : Write τ} (sound : Sound good k) (pc : k.pc = .returned)
    (ret : k.ret = k.buf.len) : k.delivered = some k.buf.int := by
  rcases sound.outcome with ⟨-, failed⟩ | ⟨own, -⟩
  · have error := failed (by rw [pc]; rfl)
    omega
  · exact own

/-- A sound call whose `int` is no good hands on nothing. -/
theorem Sound.nothing {k : Write τ} (sound : Sound good k) (bad : ¬ good k.buf.int) :
    k.delivered = none := by
  rcases sound.outcome with ⟨nothing, -⟩ | ⟨-, fine⟩
  · exact nothing
  · exact (bad fine).elim

/-! ## Calls whose loads did not -/

/-- A value that the call must not hand on. -/
def Wrong (good : BitVec 32 → Prop) (k : Write τ) (v : BitVec 32) : Prop :=
  v = k.buf.int → ¬ good k.buf.int

/-- A write call that is bound to hand on a wrong value and to return the length. -/
structure Astray (good : BitVec 32 → Prop) (k : Write τ) : Prop where
  whole : k.ret = k.buf.len
  bound : (k.pc = .load ∧ ¬ good k.buf.int) ∨
    (∃ v, k.pc = .store v ∧ Wrong good k (v.setWidth 32)) ∨
      (k.pc.leaving = true ∧ ∃ v, k.delivered = some v ∧ Wrong good k v)

theorem Astray.step {d : Staging γ τ} {g g' : γ} {k k' : Write τ} (astray : Astray good k)
    (access : WriteStep d g k g' k') : Astray good k' := by
  rcases astray.bound with ⟨pc, bad⟩ | ⟨v, pc, wrong⟩ | ⟨leaving, handed⟩
  · cases access with
    | load => exact ⟨astray.whole, Or.inr (Or.inl ⟨_, rfl, fun _ => bad⟩)⟩
    | _ other => rw [pc] at other; cases other
  · cases access with
    | store same =>
        cases pc.symm.trans same
        exact ⟨astray.whole, Or.inr (Or.inr ⟨rfl, _, rfl, wrong⟩)⟩
    | _ other => rw [pc] at other; cases other
  · cases access with
    | free => exact ⟨astray.whole, Or.inr (Or.inr ⟨rfl, handed⟩)⟩
    | _ other => rw [other] at leaving; cases leaving

/-- A load that does not find the call's own value sends the call astray. -/
theorem Astray.of_load {d : Staging γ τ} {g g' : γ} {k k' : Write τ} (whole : Whole d k)
    (pc : k.pc = .load) (foreign : (d.staged g).setWidth 32 ≠ k.buf.int)
    (access : WriteStep d g k g' k') : Astray good k' := by
  cases access with
  | load => exact ⟨whole.load pc, Or.inr (Or.inl ⟨_, rfl, fun same => (foreign same).elim⟩)⟩
  | _ other => rw [pc] at other; cases other

/-- An astray call that has returned has handed on a value other than its `int`,
or an `int` that is no good. -/
theorem Astray.returned {k : Write τ} (astray : Astray good k) (pc : k.pc = .returned)
    (own : k.ret = k.buf.len → k.delivered = some k.buf.int)
    (nothing : ¬ good k.buf.int → k.delivered = none) : False := by
  rcases astray.bound with ⟨other, -⟩ | ⟨v, other, -⟩ | ⟨-, v, handed, wrong⟩
  · rw [pc] at other
    cases other
  · rw [pc] at other
    cases other
  · have same := own astray.whole
    cases handed.symm.trans same
    have none := nothing (wrong rfl)
    rw [handed] at none
    cases none

/-! ## Programs with write calls -/

section Programs

open Transition Interleaving

variable {κ α ε : Type} {p : Program γ κ α Bool ε} {d : Staging γ τ}
  {write : κ → Option (Write τ)}

/-- Some calls of the program are write calls with the given staging: they start
as such and move as such, and no other call becomes one. -/
structure Hosts (p : Program γ κ α Bool ε) (d : Staging γ τ) (write : κ → Option (Write τ)) :
    Prop where
  start : ∀ arg k, write (p.start arg) = some k → ∃ buf, k = .entered τ buf
  move : ∀ ok g c g' c', p.move ok g c = some (g', c') → (write c = none ∧ write c' = none) ∨
    ∃ k k', write c = some k ∧ write c' = some k' ∧ WriteStep d g k g' k'

/-- If the call is a write, it has the property. -/
def OnWrite (write : κ → Option (Write τ)) (P : Write τ → Prop) (c : κ) : Prop :=
  ∀ k, write c = some k → P k

/-- A property of write calls that holds on entry and is kept by the accesses of
an allowed run holds of every write call of such a run. -/
theorem Hosts.invariant (hosts : Hosts p d write) {P : Write τ → Prop}
    {ok : State γ κ → Label α Bool ε → Prop} (entered : ∀ buf, P (.entered τ buf))
    (step : ∀ (s : State γ κ) i outcome c k g' k', ok s (.move i outcome) → s.calls i = some c →
      write c = some k → P k → WriteStep d s.globals k g' k' → P k')
    {g : γ} {t : State γ κ} {trace : List (State γ κ × Label α Bool ε)}
    (run : Run p.step (.idle g) trace t) (meets : Meets ok trace) {i : Nat} {c : κ} {k : Write τ}
    (slot : t.calls i = some c) (writing : write c = some k) : P k := by
  have kept : Program.Keeps (fun _ => True) (OnWrite write P) t := by
    refine Program.invariant ?_ ?_ (fun _ _ _ => trivial) run meets (.idle trivial)
    · intro arg k started
      obtain ⟨buf, rfl⟩ := hosts.start arg k started
      exact entered buf
    · intro s i outcome c g' c' allowed slot _ holds moved
      refine ⟨trivial, fun k' after => ?_⟩
      rcases hosts.move _ _ _ _ _ moved with ⟨-, none⟩ | ⟨k, k₁, before, same, access⟩
      · rw [none] at after
        cases after
      · cases same.symm.trans after
        exact step s i outcome c k g' _ allowed slot before (holds k before) access
  exact kept.calls i c slot k writing

/-- In every run every write call is on its way to return the length. -/
theorem Hosts.whole (hosts : Hosts p d write) (lawful : d.Lawful) {g : γ} {t : State γ κ}
    {trace : List (State γ κ × Label α Bool ε)} (run : Run p.step (.idle g) trace t) {i : Nat}
    {c : κ} {k : Write τ} (slot : t.calls i = some c) (writing : write c = some k) : Whole d k :=
  hosts.invariant (.entered d) (fun _ _ _ _ _ _ _ _ _ _ whole access => whole.step lawful access)
    run run.meets_true slot writing

/-- Where the tests pass good values only and the loads find the calls' own
values, every write call is sound. -/
theorem Hosts.sound (hosts : Hosts p d write) (lawful : d.Lawful)
    {ok : State γ κ → Label α Bool ε → Prop}
    (own : ∀ (s : State γ κ) i outcome c k, ok s (.move i outcome) → s.calls i = some c →
      write c = some k →
      (∀ point, k.pc = .body point → (d.body point s.globals k).2.pc = .load → good k.buf.int) ∧
      (k.pc = .load → (d.staged s.globals).setWidth 32 = k.buf.int))
    {g : γ} {t : State γ κ} {trace : List (State γ κ × Label α Bool ε)}
    (run : Run p.step (.idle g) trace t) (meets : Meets ok trace) {i : Nat} {c : κ} {k : Write τ}
    (slot : t.calls i = some c) (writing : write c = some k) : Sound good k := by
  have both : Whole d k ∧ Sound good k := by
    refine hosts.invariant (P := fun k => Whole d k ∧ Sound good k)
      (fun buf => ⟨.entered d buf, .entered buf⟩) ?_ run meets slot writing
    intro s i outcome c k g' k' allowed slot writing holds access
    obtain ⟨passed, found⟩ := own s i outcome c k allowed slot writing
    exact ⟨holds.1.step lawful access, holds.2.step lawful holds.1 passed found access⟩
  exact both.2

/-- A write call that goes astray in a run stays astray, so that it ends the run
with a wrong value handed on or has not returned. -/
theorem Hosts.not_astray (hosts : Hosts p d write) (lawful : d.Lawful) {g : γ} {a t : State γ κ}
    {trace : List (State γ κ × Label α Bool ε)} (run : Run p.step (.idle g) trace t) {i : Nat}
    {outcome : Bool} (member : (a, .move i outcome) ∈ trace) {c : κ} {k : Write τ}
    (slot : a.calls i = some c) (writing : write c = some k)
    (done : ∀ i c k, t.calls i = some c → write c = some k → k.pc = .returned ∧
      (k.ret = k.buf.len → k.delivered = some k.buf.int) ∧
      (¬ good k.buf.int → k.delivered = none))
    (astray : ∀ g' k', Whole d k → WriteStep d a.globals k g' k' → Astray good k') : False := by
  obtain ⟨front, back, b, before, edge, after, -⟩ := run.exists_split _ member
  have lost : ∃ c', b.calls i = some c' ∧ ∃ k', write c' = some k' ∧ Astray good k' := by
    cases Program.Step.of_step edge with
    | move running moved =>
        cases running.symm.trans slot
        rcases hosts.move _ _ _ _ _ moved with ⟨none, -⟩ | ⟨k₁, k', same, next, access⟩
        · rw [none] at writing
          cases writing
        · cases same.symm.trans writing
          exact ⟨_, State.put_calls_self .., k', next,
            astray _ k' (hosts.whole lawful before slot writing) access⟩
  have stays : ∀ ok g₁ c₁ g₂ c₂, (∃ k₁, write c₁ = some k₁ ∧ Astray good k₁) →
      p.move ok g₁ c₁ = some (g₂, c₂) → ∃ k₂, write c₂ = some k₂ ∧ Astray good k₂ := by
    intro ok g₁ c₁ g₂ c₂ gone moved
    rcases gone with ⟨k₁, writing₁, astray₁⟩
    rcases hosts.move _ _ _ _ _ moved with ⟨none, -⟩ | ⟨_, k₂, same, next, access⟩
    · rw [none] at writing₁
      cases writing₁
    · cases same.symm.trans writing₁
      exact ⟨k₂, next, astray₁.step access⟩
  obtain ⟨c', slot', k', writing', astray'⟩ := Program.persists stays after lost
  obtain ⟨pc, own, nothing⟩ := done i c' k' slot' writing'
  exact astray'.returned pc own nothing

end Programs

end BlinkDriver.CharDev
