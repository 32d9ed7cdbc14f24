import BlinkDriver.CharDev.LedValue
import BlinkDriver.Hw5.System
import BlinkDriver.Hw6.Registers

/-!
# Reads and writes that do not overlap

The four drivers handle a `read` and a `write` alike: HW2, HW3, HW5 and HW6 differ
in where a read fetches its `int` and in what a write does with the one it finds
in its kernel buffer. `readCall` and `writeCall` are such calls from beginning to
end, with what the user copies store on the other side; `FileOps` is what a driver
has of its own, and `Variant.fops` names the four.

A write of HW3, HW5 or HW6 here is one of the calls of `exampleWrite` that nobody
interrupts: `writeCall_alone` and its instances.
-/

namespace BlinkDriver.CharDev

open LittleEndian

/-! ## The calls -/

/-- What a read call is given: a buffer of `len` bytes of which, and of the memory
behind it, `reach` bytes can be written before the copy faults. -/
structure ReadArgs where
  null : Bool
  len : Nat
  reach : Nat
  bounded : len < 2 ^ 31
  deriving DecidableEq

/-- What a read call returns, the file offset it leaves, and the bytes that it has
stored from the start of the user's buffer on. -/
structure ReadResult where
  ret : Int
  offset : Nat
  stored : List Byte
  deriving DecidableEq

/-- The bytes a read has delivered: the first of those it has stored. -/
def ReadResult.bytes (r : ReadResult) : List Byte := r.stored.take r.ret.toNat

variable {γ : Type}

/-- `example5_read` up to what it reads. Nothing limits the copy to `len`, and the
offset advances by `len` whatever has been copied. -/
def readCall (fetch : γ → γ × BitVec 32) (a : ReadArgs) (offset : Nat) (g : γ) : γ × ReadResult :=
  if offset ≥ 4 then (g, ⟨0, offset, []⟩)
  else if a.null then (g, ⟨-einval, offset, []⟩)
  else
    let (g, v) := fetch g
    let stored := (toBytes 4 v.toNat).take a.reach
    if a.reach < 4 then (g, ⟨-efault, offset, stored⟩)
    else (g, ⟨4, offset + a.len, stored⟩)

/-- What a write call is given: its buffer, whether `kzalloc` succeeds, and how
many bytes of the buffer can be read before the copy faults. -/
structure WriteArgs where
  buf : UserBuffer
  memory : Bool
  reach : Nat
  deriving DecidableEq

/-- What `copy_from_user` stores: the bytes it can read, and zeros for the rest. -/
def WriteArgs.image (a : WriteArgs) : List Byte :=
  a.buf.bytes.take a.reach ++ List.replicate (a.buf.len - a.reach) 0

/-- What a write call returns, the size of the kernel buffer it obtained, and the
bytes it has stored from the start of that buffer on. -/
structure WriteResult where
  ret : Int
  room : Nat
  stored : List Byte
  deriving DecidableEq

/-- `example5_write` up to what it does with the `int`: `accept` gives the error
that is returned in place of the length, if it is one. -/
def writeCall (accept : BitVec 32 → γ → γ × Option Int) (a : WriteArgs) (g : γ) :
    γ × WriteResult :=
  if a.buf.null then (g, ⟨-einval, 0, []⟩)
  else if a.memory then
    if a.reach < a.buf.len then (g, ⟨-efault, 4, a.image⟩)
    else
      let (g, error) := accept (readInt (copyFromUser (List.replicate 4 0) a.image)) g
      (g, ⟨error.getD a.buf.len, 4, a.image⟩)
  else (g, ⟨-enomem, 0, []⟩)

section Branches

variable {fetch : γ → γ × BitVec 32} {accept : BitVec 32 → γ → γ × Option Int} {g : γ}

theorem readCall_atEnd {a : ReadArgs} {offset : Nat} (atEnd : 4 ≤ offset) :
    readCall fetch a offset g = (g, ⟨0, offset, []⟩) :=
  if_pos atEnd

theorem readCall_null {a : ReadArgs} {offset : Nat} (before : offset < 4) (null : a.null = true) :
    readCall fetch a offset g = (g, ⟨-einval, offset, []⟩) := by
  rw [readCall, if_neg (not_le.mpr before), if_pos null]

theorem readCall_fault {a : ReadArgs} {offset : Nat} (before : offset < 4) (null : a.null = false)
    (faults : a.reach < 4) :
    readCall fetch a offset g =
      ((fetch g).1, ⟨-efault, offset, (toBytes 4 (fetch g).2.toNat).take a.reach⟩) := by
  have valid : ¬ a.null = true := by simp [null]
  simp only [readCall, if_neg (not_le.mpr before), if_neg valid, if_pos faults]

theorem readCall_done {a : ReadArgs} {offset : Nat} (before : offset < 4) (null : a.null = false)
    (whole : 4 ≤ a.reach) :
    readCall fetch a offset g =
      ((fetch g).1, ⟨4, offset + a.len, toBytes 4 (fetch g).2.toNat⟩) := by
  have valid : ¬ a.null = true := by simp [null]
  have every : (toBytes 4 (fetch g).2.toNat).take a.reach = toBytes 4 (fetch g).2.toNat :=
    List.take_of_length_le (by rw [length_toBytes]; exact whole)
  simp only [readCall, if_neg (not_le.mpr before), if_neg valid, if_neg (not_lt.mpr whole), every]

/-- The `int` a write finds in its kernel buffer. -/
def WriteArgs.int (a : WriteArgs) : BitVec 32 :=
  readInt (copyFromUser (List.replicate 4 0) a.image)

theorem writeCall_null {a : WriteArgs} (null : a.buf.null = true) :
    writeCall accept a g = (g, ⟨-einval, 0, []⟩) :=
  if_pos null

theorem writeCall_noMemory {a : WriteArgs} (null : a.buf.null = false) (memory : a.memory = false) :
    writeCall accept a g = (g, ⟨-enomem, 0, []⟩) := by
  have valid : ¬ a.buf.null = true := by simp [null]
  have failed : ¬ a.memory = true := by simp [memory]
  rw [writeCall, if_neg valid, if_neg failed]

theorem writeCall_fault {a : WriteArgs} (null : a.buf.null = false) (memory : a.memory = true)
    (faults : a.reach < a.buf.len) : writeCall accept a g = (g, ⟨-efault, 4, a.image⟩) := by
  have valid : ¬ a.buf.null = true := by simp [null]
  rw [writeCall, if_neg valid, if_pos memory, if_pos faults]

theorem writeCall_done {a : WriteArgs} (null : a.buf.null = false) (memory : a.memory = true)
    (whole : a.buf.len ≤ a.reach) :
    writeCall accept a g =
      ((accept a.int g).1, ⟨(accept a.int g).2.getD a.buf.len, 4, a.image⟩) := by
  have valid : ¬ a.buf.null = true := by simp [null]
  rw [writeCall, if_neg valid, if_pos memory, if_neg (not_lt.mpr whole)]
  rfl

end Branches

/-- What a driver has of its own: `open`, the `int` a read copies out, and what
becomes of the `int` of a write. -/
structure FileOps (γ : Type) where
  opened : γ → γ
  fetch : γ → γ × BitVec 32
  accept : BitVec 32 → γ → γ × Option Int

/-- The value of a driver as bytes in memory. -/
def FileOps.value (d : FileOps γ) (g : γ) : List Byte := toBytes 4 (d.fetch g).2.toNat

theorem FileOps.length_value (d : FileOps γ) (g : γ) : (d.value g).length = 4 := length_toBytes 4 _

/-- The low half of a sign-extended `int` is the `int`. -/
theorem setWidth_signExtend (v : BitVec 32) : (v.signExtend 64).setWidth 32 = v := by
  ext i inside
  rw [BitVec.getElem_setWidth, BitVec.getLsbD_signExtend, if_pos inside,
    decide_eq_true (by omega), Bool.true_and, BitVec.getLsbD_eq_getElem inside]

end BlinkDriver.CharDev

/-! ## The drivers -/

namespace BlinkDriver.Hw2

/-- `mydev.syscall_val`, an `int` in HW2. -/
structure Globals where
  syscallVal : BitVec 32
  deriving DecidableEq

def mydevFops : CharDev.FileOps Globals where
  opened g := { g with syscallVal := 40 }
  fetch g := (g, g.syscallVal)
  accept v g := ({ g with syscallVal := v }, none)

end BlinkDriver.Hw2

namespace BlinkDriver.Hw3

/-- The assignments and the test of `example5_write`, and its `writel`. -/
def accept (v : BitVec 32) (g : Led) : Led × Option Int :=
  let g := { g with ledCurrentVal := v.signExtend 64, syscallVal := v.signExtend 64 }
  if g.syscallVal.toInt < -4294967296 ∨ g.syscallVal.toInt > 4294967296 then (g, some (-1))
  else ({ g with ledctl := g.ledCurrentVal.setWidth 32 }, none)

/-- A sign-extended `int` passes the test, and its low half is the `int`. -/
theorem accept_eq (v : BitVec 32) (g : Led) :
    accept v g = (⟨v.signExtend 64, v.signExtend 64, v⟩, none) := by
  have value : (v.signExtend 64).toInt = v.toInt := BitVec.toInt_signExtend_of_le (by decide)
  have low : (v.signExtend 64).setWidth 32 = v := CharDev.setWidth_signExtend v
  have fits := v.toInt_lt
  have least := v.le_toInt
  have inside : ¬ (v.toInt < -4294967296 ∨ v.toInt > 4294967296) := by omega
  simp only [accept, value, if_neg inside, low]

def mydevFops : CharDev.FileOps Led where
  opened g := { g with syscallVal := 40 }
  fetch g :=
    let g := { g with ledCurrentVal := g.ledctl.setWidth 64 }
    (g, g.ledCurrentVal.setWidth 32)
  accept := accept

end BlinkDriver.Hw3

namespace BlinkDriver.CharDev

/-- The assignment, the tests and the commit of `example5_write` in HW5 and HW6. -/
def Rate.accept (v : BitVec 32) (g : Rate) : Rate × Option Int :=
  let g := { g with syscallVal := v.signExtend 64 }
  if g.syscallVal.toInt < -4294967296 ∨ g.syscallVal.toInt > 4294967296 then (g, some (-1))
  else if g.syscallVal.toInt < 0 then (g, some (-einval))
  else ({ g with blinkRate := g.syscallVal.setWidth 32 }, none)

/-- A sign-extended `int` passes the range test, so only its sign decides. -/
theorem Rate.accept_eq (v : BitVec 32) (g : Rate) :
    g.accept v = if v.toInt < 0 then (⟨v.signExtend 64, g.blinkRate⟩, some (-einval))
      else (⟨v.signExtend 64, v⟩, none) := by
  have value : (v.signExtend 64).toInt = v.toInt := BitVec.toInt_signExtend_of_le (by decide)
  have low : (v.signExtend 64).setWidth 32 = v := setWidth_signExtend v
  have fits := v.toInt_lt
  have least := v.le_toInt
  have inside : ¬ (v.toInt < -4294967296 ∨ v.toInt > 4294967296) := by omega
  simp only [accept, value, if_neg inside, low]

end BlinkDriver.CharDev

namespace BlinkDriver.Hw5

/-- A whole `example5_open`. -/
def openCall (g : Globals) : Globals :=
  let g := { g with
    rate := { g.rate with syscallVal := g.rate.blinkRate.signExtend 64 }, led := 0 }
  if g.openTracker = 0 then
    { ({ g with timer := g.timer.setup } : Globals).modTimer with openTracker := 1 }
  else g

def mydevFops : CharDev.FileOps Globals where
  opened := openCall
  fetch g := (g, g.rate.blinkRate)
  accept v g :=
    let (rate, error) := g.rate.accept v
    ({ g with rate }, error)

end BlinkDriver.Hw5

namespace BlinkDriver.Hw6

/-- The registers and globals the file operations of HW6 use. -/
structure FileGlobals where
  regs : Regs
  rate : CharDev.Rate
  deriving DecidableEq

/-- `example5_read` packs the head and the tail into one `int`. -/
def pack (head tail : U32) : U32 := head <<< 8 ||| tail

def mydevFops : CharDev.FileOps FileGlobals where
  opened g := g
  fetch g :=
    let (head, regs) := readl .rdh0 g.regs
    let (tail, regs) := readl .rdt0 regs
    ({ g with regs }, pack head tail)
  accept v g :=
    let (rate, error) := g.rate.accept v
    ({ g with rate }, error)

end BlinkDriver.Hw6

namespace BlinkDriver.CharDev

/-- The four drivers. -/
inductive Variant where
  | hw2
  | hw3
  | hw5
  | hw6
  deriving DecidableEq

/-- The globals and registers the file operations of a driver use. -/
abbrev Variant.Globals : Variant → Type
  | .hw2 => Hw2.Globals
  | .hw3 => Hw3.Led
  | .hw5 => Hw5.Globals
  | .hw6 => Hw6.FileGlobals

def Variant.fops : (v : Variant) → FileOps v.Globals
  | .hw2 => Hw2.mydevFops
  | .hw3 => Hw3.mydevFops
  | .hw5 => Hw5.mydevFops
  | .hw6 => Hw6.mydevFops

/-! ## Calls that nobody interrupts -/

open Transition

variable {γ τ : Type}

/-- One access of a write call that nobody interrupts. -/
def alone (d : Staging γ τ) (s : γ × Write τ) (ok : Bool) : Option (γ × Write τ) :=
  exampleWrite d ok s.1 s.2

/-- A call that has copied the user's bytes. -/
def Write.copied (buf : UserBuffer) (first : τ) : Write τ :=
  { Write.entered τ buf with
    obtained := true, kernBuf := copyFromUser (List.replicate 4 0) buf.bytes, pc := .body first }

/-- The body, the load and the store of a call do what `accept` does with its
`int`, and leave it on its way out with the value it returns. -/
def Performs (d : Staging γ τ) (accept : BitVec 32 → γ → γ × Option Int) : Prop :=
  ∀ g k, k.pc = .body d.first → ∃ trace k',
    Run (alone d) (g, k) trace ((accept (readInt k.kernBuf) g).1, k') ∧ k'.pc.leaving = true ∧
      k'.ret = (accept (readInt k.kernBuf) g).2.getD k.buf.len

theorem alone_of_exec {d : Staging γ τ} {g g' : γ} {k m : Write τ} {P : Write τ → Prop}
    (labels : List Bool) (done : exec (alone d) (g, k) labels = some (g', m)) (holds : P m) :
    ∃ trace m, Run (alone d) (g, k) trace (g', m) ∧ P m := by
  obtain ⟨trace, run, -⟩ := Run.of_exec done
  exact ⟨trace, m, run, holds⟩

theorem rateStaging_performs : Performs rateStaging Rate.accept := by
  intro g k pc
  unfold Rate.accept
  generalize value : (readInt k.kernBuf).signExtend 64 = v
  by_cases low : v.toInt < -4294967296
  · simp only [low, true_or, if_true]
    refine alone_of_exec (m := { k with ret := -1, pc := .returned })
      ([true, true]) ?_ ⟨rfl, rfl⟩
    simp only [exec, alone, exampleWrite, pc, rateStaging, checkRate, value, Option.bind_some,
      if_pos low]
  by_cases high : v.toInt > 4294967296
  · simp only [high, or_true, if_true]
    refine alone_of_exec (m := { k with ret := -1, pc := .returned })
      ([true, true, true]) ?_ ⟨rfl, rfl⟩
    simp only [exec, alone, exampleWrite, pc, rateStaging, checkRate, value, Option.bind_some,
      if_neg low, if_pos high]
  by_cases negative : v.toInt < 0
  · simp only [low, high, or_self, negative, if_true, if_false]
    refine alone_of_exec (m := { k with ret := -einval, pc := .memOut })
      ([true, true, true, true]) ?_ ⟨rfl, rfl⟩
    simp only [exec, alone, exampleWrite, pc, rateStaging, checkRate, value, Option.bind_some,
      if_neg low, if_neg high, if_pos negative]
  · simp only [low, high, or_self, negative, if_false]
    refine alone_of_exec
      (m := { k with ret := k.buf.len, delivered := some (v.setWidth 32), pc := .memOut })
      ([true, true, true, true, true, true]) ?_ ⟨rfl, rfl⟩
    simp only [exec, alone, exampleWrite, pc, rateStaging, checkRate, value, Option.bind_some,
      if_neg low, if_neg high, if_neg negative]

theorem ledStaging_performs : Performs Hw3.ledStaging Hw3.accept := by
  intro g k pc
  unfold Hw3.accept
  generalize value : (readInt k.kernBuf).signExtend 64 = v
  by_cases low : v.toInt < -4294967296
  · simp only [low, true_or, if_true]
    refine alone_of_exec (m := { k with ret := -1, pc := .returned })
      ([true, true, true, true]) ?_ ⟨rfl, rfl⟩
    simp only [exec, alone, exampleWrite, pc, Hw3.ledStaging, Hw3.checkLed, value, Option.bind_some,
      if_pos low]
  by_cases high : v.toInt > 4294967296
  · simp only [high, or_true, if_true]
    refine alone_of_exec (m := { k with ret := -1, pc := .returned })
      ([true, true, true, true, true]) ?_ ⟨rfl, rfl⟩
    simp only [exec, alone, exampleWrite, pc, Hw3.ledStaging, Hw3.checkLed, value, Option.bind_some,
      if_neg low, if_pos high]
  · simp only [low, high, or_self, if_false]
    refine alone_of_exec
      (m := { k with ret := k.buf.len, delivered := some (v.setWidth 32), pc := .memOut })
      (List.replicate 7 true) ?_ ⟨rfl, rfl⟩
    simp only [List.replicate, exec, alone, exampleWrite, pc, Hw3.ledStaging, Hw3.checkLed, value,
      Option.bind_some, if_neg low, if_neg high]

theorem run_leaving {d : Staging γ τ} {g : γ} {k : Write τ} (leaving : k.pc.leaving = true) :
    ∃ trace k', Run (alone d) (g, k) trace (g, k') ∧ k'.pc = .returned ∧ k'.ret = k.ret := by
  cases pc : k.pc with
  | memOut =>
      have edge : alone d (g, k) true =
          some (g, { k with freed := k.freed + 1, pc := .returned }) := by
        simp only [alone, exampleWrite, pc]
      exact ⟨_, _, .single edge, rfl, rfl⟩
  | returned => exact ⟨[], k, .refl, pc, rfl⟩
  | _ =>
      rw [pc] at leaving
      cases leaving

/-- A copy that does not fault stores the user's bytes. -/
theorem WriteArgs.image_of_le {a : WriteArgs} (whole : a.buf.len ≤ a.reach) :
    a.image = a.buf.bytes := by
  rw [image, List.take_of_length_le whole, Nat.sub_eq_zero_of_le whole, List.replicate_zero,
    List.append_nil]

/-- **A whole call is a call that nobody interrupts.** -/
theorem writeCall_alone {d : Staging γ τ} {accept : BitVec 32 → γ → γ × Option Int}
    (performs : Performs d accept) (a : WriteArgs) (g : γ) :
    ∃ trace k, Run (alone d) (g, .entered τ a.buf) trace ((writeCall accept a g).1, k) ∧
      k.pc = .returned ∧ k.ret = (writeCall accept a g).2.ret := by
  unfold writeCall
  by_cases null : a.buf.null = true
  · rw [if_pos null]
    refine alone_of_exec (m := { Write.entered τ a.buf with ret := -einval, pc := .returned })
      ([true]) ?_ ⟨rfl, rfl⟩
    simp only [exec, alone, exampleWrite, Write.entered, null, if_true, Option.bind_some]
  rw [if_neg null]
  by_cases memory : a.memory = true
  · rw [if_pos memory]
    by_cases faults : a.reach < a.buf.len
    · rw [if_pos faults]
      refine alone_of_exec (m := { Write.entered τ a.buf with
          ret := -efault, obtained := true, kernBuf := List.replicate 4 0, freed := 1
          pc := .returned })
        ([true, true, false, true]) ?_ ⟨rfl, rfl⟩
      simp only [exec, alone, exampleWrite, Write.entered, null, Option.bind_some, if_true,
        if_false, Bool.false_eq_true]
    · rw [if_neg faults, WriteArgs.image_of_le (not_lt.mp faults)]
      have copied : exec (alone d) (g, Write.entered τ a.buf) [true, true, true] =
          some (g, .copied a.buf d.first) := by
        simp only [exec, alone, exampleWrite, Write.entered, Write.copied, null, Option.bind_some,
          if_true, if_false, Bool.false_eq_true]
      obtain ⟨front, entry, -⟩ := Run.of_exec copied
      obtain ⟨middle, k₁, body, leaving, ret⟩ := performs g (.copied a.buf d.first) rfl
      obtain ⟨back, k₂, exit, returned, same⟩ := run_leaving leaving
      exact ⟨_, k₂, (entry.trans body).trans exit, returned, same.trans ret⟩
  · rw [if_neg memory]
    refine alone_of_exec (m := { Write.entered τ a.buf with ret := -enomem, pc := .returned })
      ([true, false]) ?_ ⟨rfl, rfl⟩
    simp only [exec, alone, exampleWrite, Write.entered, null, Option.bind_some, if_false,
      Bool.false_eq_true]

/-- In HW3, HW5 and HW6. -/
theorem writeCall_accept_alone (a : WriteArgs) :
    (∀ g : Hw3.Led, ∃ trace k, Run (alone Hw3.ledStaging) (g, .entered _ a.buf) trace
      ((writeCall Hw3.accept a g).1, k) ∧ k.pc = .returned ∧
        k.ret = (writeCall Hw3.accept a g).2.ret) ∧
    ∀ g : Rate, ∃ trace k, Run (alone rateStaging) (g, .entered _ a.buf) trace
      ((writeCall Rate.accept a g).1, k) ∧ k.pc = .returned ∧
        k.ret = (writeCall Rate.accept a g).2.ret :=
  ⟨writeCall_alone ledStaging_performs a, writeCall_alone rateStaging_performs a⟩

end BlinkDriver.CharDev
