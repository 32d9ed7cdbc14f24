import BlinkDriver.CharDev.Calls
import BlinkDriver.Lib.Service

/-!
# The device file as a cell of four bytes

For a process that writes at most four bytes and reads at least four, the device
files of HW2, HW3 and HW5 are a cell: a write stores its bytes followed by zeros,
a read from the beginning delivers the four bytes, and after it the file is at
its end. `Cell` is that abstract store; `CellRules` is what the drivers differ
in. `Represents` relates the globals and file offsets of a driver to a cell, and
`refines_cell` says that a driver and its cell give the same answers to every
sequence of system calls.
-/

namespace BlinkDriver.CharDev

open LittleEndian Service

/-- A system call on the device, on the file with the given number if it is not
an open. -/
inductive Syscall where
  | openFile
  | write (file : Nat) (a : WriteArgs)
  | read (file : Nat) (a : ReadArgs)
  deriving DecidableEq

/-- Writes of at most four bytes and reads of at least four. -/
def Syscall.InRange : Syscall → Prop
  | .openFile => True
  | .write _ a => a.buf.len ≤ 4
  | .read _ a => 4 ≤ a.len

instance : ∀ c : Syscall, Decidable c.InRange
  | .openFile => inferInstanceAs (Decidable True)
  | .write _ a => inferInstanceAs (Decidable (a.buf.len ≤ 4))
  | .read _ a => inferInstanceAs (Decidable (4 ≤ a.len))

/-- What a call returns, and the bytes a read has delivered. -/
structure Answer where
  ret : Int
  bytes : List Byte
  deriving DecidableEq

def ebadf : Int := 9

/-! ## The abstract cell -/

/-- Four bytes, and for every open file whether it is at its end. -/
structure Cell where
  image : List Byte
  ended : List Bool
  deriving DecidableEq

/-- What an open stores, if it stores anything, and which images a write may
store. -/
structure CellRules where
  opens : Option (List Byte)
  accepts : List Byte → Bool

/-- A write stores its bytes followed by zeros, if nothing fails. -/
def Cell.write (rules : CellRules) (a : WriteArgs) (c : Cell) : Cell × Answer :=
  if a.buf.null then (c, ⟨-einval, []⟩)
  else if a.memory = false then (c, ⟨-enomem, []⟩)
  else if a.reach < a.buf.len then (c, ⟨-efault, []⟩)
  else
    let image := a.buf.bytes ++ List.replicate (4 - a.buf.len) 0
    if rules.accepts image then ({ c with image }, ⟨a.buf.len, []⟩) else (c, ⟨-einval, []⟩)

/-- A read delivers the image once. -/
def Cell.read (file : Nat) (a : ReadArgs) (atEnd : Bool) (c : Cell) : Cell × Answer :=
  if atEnd then (c, ⟨0, []⟩)
  else if a.null then (c, ⟨-einval, []⟩)
  else if a.reach < 4 then (c, ⟨-efault, []⟩)
  else ({ c with ended := c.ended.set file true }, ⟨4, c.image⟩)

def Cell.serve (rules : CellRules) (c : Cell) : Syscall → Cell × Answer
  | .openFile => (⟨rules.opens.getD c.image, c.ended ++ [false]⟩, ⟨0, []⟩)
  | .write file a => if file < c.ended.length then c.write rules a else (c, ⟨-ebadf, []⟩)
  | .read file a =>
      match c.ended[file]? with
      | some atEnd => c.read file a atEnd
      | none => (c, ⟨-ebadf, []⟩)

/-! ## The driver behind the system calls -/

/-- A driver's globals and the offsets of its open files. -/
def FileOps.serve {γ : Type} (d : FileOps γ) (s : γ × List Nat) : Syscall → (γ × List Nat) × Answer
  | .openFile => ((d.opened s.1, s.2 ++ [0]), ⟨0, []⟩)
  | .write file a =>
      if file < s.2.length then
        let (g, r) := writeCall d.accept a s.1
        ((g, s.2), ⟨r.ret, []⟩)
      else (s, ⟨-ebadf, []⟩)
  | .read file a =>
      match s.2[file]? with
      | some offset =>
          let (g, r) := readCall d.fetch a offset s.1
          ((g, s.2.set file r.offset), ⟨r.ret, r.bytes⟩)
      | none => (s, ⟨-ebadf, []⟩)

/-- HW2 stores 40 with every open and accepts every `int`. -/
def hw2Rules : CellRules := ⟨some (toBytes 4 40), fun _ => true⟩

/-- HW3 stores nothing with an open and accepts every `int`. -/
def hw3Rules : CellRules := ⟨none, fun _ => true⟩

/-- HW5 stores nothing with an open and rejects the negative `int`s. -/
def hw5Rules : CellRules := ⟨none, fun image => decide (0 ≤ (readInt image).toInt)⟩

/-- **What it means to refine a cell.** The driver gives the answers of the cell
to every sequence of calls in range; a call that returns an error does not change
what is stored; and after a read that delivers the value every later read of the
same file returns zero. -/
structure RefinesCell {γ : Type} (d : FileOps γ) (rules : CellRules) (g : γ) (image : List Byte) :
    Prop where
  answers : ∀ calls, (∀ c ∈ calls, c.InRange) →
    answers d.serve (g, []) calls = answers (Cell.serve rules) ⟨image, []⟩ calls
  errors : ∀ calls call, (∀ c ∈ calls ++ [call], c.InRange) →
    (d.serve (after d.serve (g, []) calls) call).2.ret < 0 →
      d.value (after d.serve (g, []) (calls ++ [call])).1 = d.value (after d.serve (g, []) calls).1
  once : ∀ calls file a later b, (∀ c ∈ calls ++ .read file a :: later, c.InRange) →
    (d.serve (after d.serve (g, []) calls) (.read file a)).2.ret = 4 →
      (d.serve (after d.serve (g, []) (calls ++ .read file a :: later)) (.read file b)).2.ret = 0

/-! ## The cell -/

section Cell

variable {rules : CellRules} {c : Cell}

theorem Cell.write_error {a : WriteArgs} :
    (c.write rules a).2.ret < 0 → (c.write rules a).1 = c := by
  unfold Cell.write
  split
  · exact fun _ => rfl
  split
  · exact fun _ => rfl
  split
  · exact fun _ => rfl
  dsimp only
  split
  · exact fun error => absurd error (not_lt.mpr (Int.natCast_nonneg _))
  · exact fun _ => rfl

theorem Cell.read_error {file : Nat} {a : ReadArgs} {atEnd : Bool} :
    (c.read file a atEnd).2.ret < 0 → (c.read file a atEnd).1 = c := by
  unfold Cell.read
  split
  · exact fun _ => rfl
  split
  · exact fun _ => rfl
  split
  · exact fun _ => rfl
  · exact fun error => absurd error (by decide : ¬ (4 : Int) < 0)

/-- A call that returns an error changes nothing. -/
theorem Cell.serve_error {call : Syscall} :
    (c.serve rules call).2.ret < 0 → (c.serve rules call).1 = c := by
  cases call with
  | openFile => exact fun error => absurd error (by decide : ¬ (0 : Int) < 0)
  | write file a =>
      unfold Cell.serve
      dsimp only
      split
      · exact Cell.write_error
      · exact fun _ => rfl
  | read file a =>
      unfold Cell.serve
      dsimp only
      split
      · exact Cell.read_error
      · exact fun _ => rfl

/-- A write leaves the files where they are. -/
theorem Cell.write_ended (a : WriteArgs) : (c.write rules a).1.ended = c.ended := by
  unfold Cell.write
  split
  · rfl
  split
  · rfl
  split
  · rfl
  dsimp only
  split <;> rfl

/-- A read moves its file to the end or leaves it where it is. -/
theorem Cell.read_ended (file : Nat) (a : ReadArgs) (atEnd : Bool) :
    (c.read file a atEnd).1.ended = c.ended ∨
      (c.read file a atEnd).1.ended = c.ended.set file true := by
  unfold Cell.read
  split
  · exact Or.inl rfl
  split
  · exact Or.inl rfl
  split
  · exact Or.inl rfl
  · exact Or.inr rfl

/-- A file at its end stays there. -/
theorem Cell.serve_ended {file : Nat} (atEnd : c.ended[file]? = some true) (call : Syscall) :
    (c.serve rules call).1.ended[file]? = some true := by
  obtain ⟨inside, -⟩ := List.getElem?_eq_some_iff.mp atEnd
  cases call with
  | openFile => exact (List.getElem?_append_left inside).trans atEnd
  | write file' a =>
      unfold Cell.serve
      dsimp only
      split
      · rw [Cell.write_ended]
        exact atEnd
      · exact atEnd
  | read file' a =>
      unfold Cell.serve
      dsimp only
      split
      · rename_i before slot
        rcases Cell.read_ended (c := c) file' a before with same | moved
        · rw [same]
          exact atEnd
        · rw [moved]
          by_cases same : file' = file
          · subst same
            exact List.getElem?_set_self inside
          · exact (List.getElem?_set_ne same).trans atEnd
      · exact atEnd

theorem Cell.read_four {file : Nat} {a : ReadArgs} {atEnd : Bool} (inside : file < c.ended.length) :
    (c.read file a atEnd).2.ret = 4 → (c.read file a atEnd).1.ended[file]? = some true := by
  unfold Cell.read
  split
  · exact fun zero => absurd zero (by decide : (0 : Int) ≠ 4)
  split
  · exact fun error => absurd error (by decide : -einval ≠ 4)
  split
  · exact fun error => absurd error (by decide : -efault ≠ 4)
  · exact fun _ => List.getElem?_set_self inside

/-- A read that delivers the image moves its file to the end. -/
theorem Cell.serve_read {file : Nat} {a : ReadArgs}
    (delivers : (c.serve rules (.read file a)).2.ret = 4) :
    (c.serve rules (.read file a)).1.ended[file]? = some true := by
  cases slot : c.ended[file]? with
  | none =>
      simp only [Cell.serve, slot] at delivers
      exact absurd delivers (by decide : -ebadf ≠ 4)
  | some atEnd =>
      obtain ⟨inside, -⟩ := List.getElem?_eq_some_iff.mp slot
      simp only [Cell.serve, slot] at delivers ⊢
      exact Cell.read_four inside delivers

end Cell

/-! ## A driver and its cell -/

/-- What makes a driver's value a cell with the given rules. -/
structure CellLike {γ : Type} (d : FileOps γ) (rules : CellRules) : Prop where
  opened : ∀ g, d.value (d.opened g) = rules.opens.getD (d.value g)
  fetch : ∀ g, d.value (d.fetch g).1 = d.value g
  accept : ∀ v g, rules.accepts (toBytes 4 v.toNat) = true →
    (d.accept v g).2 = none ∧ d.value (d.accept v g).1 = toBytes 4 v.toNat
  reject : ∀ v g, rules.accepts (toBytes 4 v.toNat) = false →
    (d.accept v g).2 = some (-einval) ∧ d.value (d.accept v g).1 = d.value g

/-- The cell holds the driver's value, and a file is at its end when its offset
has passed the four bytes. -/
structure Represents {γ : Type} (d : FileOps γ) (s : γ × List Nat) (c : Cell) : Prop where
  image : d.value s.1 = c.image
  ended : c.ended = s.2.map fun offset => decide (4 ≤ offset)

section Refinement

variable {γ : Type} {d : FileOps γ} {rules : CellRules} {s : γ × List Nat} {c : Cell}

/-- The bytes of the `int` a write of at most four bytes finds. -/
theorem WriteArgs.toBytes_int {a : WriteArgs} (short : a.buf.len ≤ 4)
    (whole : a.buf.len ≤ a.reach) :
    toBytes 4 a.int.toNat = a.buf.bytes ++ List.replicate (4 - a.buf.len) 0 := by
  have bytes : a.buf.bytes.length ≤ 4 := short
  have kernBuf : copyFromUser (List.replicate 4 0) a.image =
      a.buf.bytes ++ List.replicate (4 - a.buf.len) 0 := by
    rw [copyFromUser, WriteArgs.image_of_le whole, List.length_replicate,
      List.take_of_length_le bytes, List.drop_replicate, UserBuffer.len]
  have long : (a.buf.bytes ++ List.replicate (4 - a.buf.len) 0).length = 4 := by
    rw [List.length_append, List.length_replicate, UserBuffer.len]
    omega
  have small := ofBytes_lt (a.buf.bytes ++ List.replicate (4 - a.buf.len) 0)
  have bound : 256 ^ 4 = 2 ^ 32 := by decide
  rw [long, bound] at small
  have value : a.int.toNat = ofBytes (a.buf.bytes ++ List.replicate (4 - a.buf.len) 0) := by
    rw [WriteArgs.int, kernBuf, readInt, List.take_of_length_le (Nat.le_of_eq long),
      BitVec.toNat_ofNat, Nat.mod_eq_of_lt small]
  have image := toBytes_ofBytes (a.buf.bytes ++ List.replicate (4 - a.buf.len) 0)
  rwa [long, ← value] at image

theorem Represents.write (like : CellLike d rules) (rep : Represents d s c) {a : WriteArgs}
    (short : a.buf.len ≤ 4) :
    (writeCall d.accept a s.1).2.ret = (c.write rules a).2.ret ∧ (c.write rules a).2.bytes = [] ∧
      Represents d ((writeCall d.accept a s.1).1, s.2) (c.write rules a).1 := by
  unfold Cell.write
  cases null : a.buf.null with
  | true =>
      rw [writeCall_null null]
      exact ⟨rfl, rfl, rep⟩
  | false =>
      cases memory : a.memory with
      | false =>
          rw [writeCall_noMemory null memory]
          exact ⟨rfl, rfl, rep⟩
      | true =>
          rcases Nat.lt_or_ge a.reach a.buf.len with faults | whole
          · rw [writeCall_fault null memory faults, if_pos faults]
            exact ⟨rfl, rfl, rep⟩
          · rw [writeCall_done null memory whole, if_neg (not_lt.mpr whole)]
            have image := a.toBytes_int short whole
            simp only [Bool.false_eq_true, Bool.true_eq_false, if_false, ← image]
            cases accepts : rules.accepts (toBytes 4 a.int.toNat) with
            | true =>
                obtain ⟨fine, stored⟩ := like.accept a.int s.1 accepts
                rw [fine]
                exact ⟨rfl, rfl, stored, rep.ended⟩
            | false =>
                obtain ⟨error, kept⟩ := like.reject a.int s.1 accepts
                rw [error]
                exact ⟨rfl, rfl, kept.trans rep.image, rep.ended⟩

/-- A read that leaves its offset where it is. -/
theorem Represents.stay (like : CellLike d rules) (rep : Represents d s c) {file offset : Nat}
    (slot : s.2[file]? = some offset) :
    Represents d (s.1, s.2.set file offset) c ∧
      Represents d ((d.fetch s.1).1, s.2.set file offset) c := by
  obtain ⟨inside, same⟩ := List.getElem?_eq_some_iff.mp slot
  have stays : s.2.set file offset = s.2 := by rw [← same, List.set_getElem_self]
  rw [stays]
  exact ⟨rep, (like.fetch s.1).trans rep.image, rep.ended⟩

theorem Represents.read (like : CellLike d rules) (rep : Represents d s c) {file offset : Nat}
    {a : ReadArgs} (slot : s.2[file]? = some offset) (long : 4 ≤ a.len) :
    (readCall d.fetch a offset s.1).2.ret = (c.read file a (decide (4 ≤ offset))).2.ret ∧
      (readCall d.fetch a offset s.1).2.bytes = (c.read file a (decide (4 ≤ offset))).2.bytes ∧
      Represents d ((readCall d.fetch a offset s.1).1,
        s.2.set file (readCall d.fetch a offset s.1).2.offset)
        (c.read file a (decide (4 ≤ offset))).1 := by
  obtain ⟨stay, fetched⟩ := rep.stay like slot
  unfold Cell.read
  rcases Nat.lt_or_ge offset 4 with before | atEnd
  · have unended : ¬ decide (4 ≤ offset) = true := by simpa using before
    rw [if_neg unended]
    cases null : a.null with
    | true =>
        rw [readCall_null before null]
        exact ⟨rfl, rfl, stay⟩
    | false =>
        rcases Nat.lt_or_ge a.reach 4 with faults | reaches
        · rw [readCall_fault before null faults, if_pos faults]
          exact ⟨rfl, rfl, fetched⟩
        · rw [readCall_done before null reaches, if_neg (not_lt.mpr reaches)]
          refine ⟨rfl, ?_, (like.fetch s.1).trans rep.image, ?_⟩
          · exact (List.take_of_length_le (Nat.le_of_eq (length_toBytes 4 _))).trans rep.image
          · have past : decide (4 ≤ offset + a.len) = true := decide_eq_true (by omega)
            rw [List.map_set, past, ← rep.ended]
            rfl
  · rw [readCall_atEnd atEnd, if_pos (decide_eq_true atEnd)]
    exact ⟨rfl, rfl, stay⟩

/-- One system call. -/
theorem Represents.serve (like : CellLike d rules) (rep : Represents d s c) {call : Syscall}
    (inRange : call.InRange) : (d.serve s call).2 = (c.serve rules call).2 ∧
      Represents d (d.serve s call).1 (c.serve rules call).1 := by
  cases call with
  | openFile =>
      refine ⟨rfl, ?_, ?_⟩
      · exact (like.opened s.1).trans (by rw [rep.image]; rfl)
      · change c.ended ++ [false] = (s.2 ++ [0]).map _
        rw [List.map_append, rep.ended]
        rfl
  | write file a =>
      have count : c.ended.length = s.2.length := by rw [rep.ended, List.length_map]
      obtain ⟨ret, bytes, next⟩ := rep.write like (a := a) inRange
      simp only [FileOps.serve, Cell.serve, count]
      by_cases opened : file < s.2.length
      · rw [if_pos opened, if_pos opened]
        refine ⟨?_, next⟩
        rw [ret, ← bytes]
      · rw [if_neg opened, if_neg opened]
        exact ⟨rfl, rep⟩
  | read file a =>
      have ended : c.ended[file]? = (s.2[file]?).map fun offset => decide (4 ≤ offset) := by
        rw [rep.ended, List.getElem?_map]
      simp only [FileOps.serve, Cell.serve, ended]
      cases slot : s.2[file]? with
      | none => exact ⟨rfl, rep⟩
      | some offset =>
          obtain ⟨ret, bytes, next⟩ := rep.read like slot inRange
          simp only [Option.map_some]
          refine ⟨?_, next⟩
          rw [ret, bytes]

theorem serve_read_past {file offset : Nat} {a : ReadArgs} (slot : s.2[file]? = some offset)
    (past : 4 ≤ offset) : (d.serve s (.read file a)).2.ret = 0 := by
  simp only [FileOps.serve, slot, readCall_atEnd past]

theorem CellLike.refinesCell (like : CellLike d rules) (g : γ) :
    RefinesCell d rules g (d.value g) := by
  have start : Represents d (g, []) ⟨d.value g, []⟩ := ⟨rfl, rfl⟩
  have kept : ∀ s c call, Represents d s c → call.InRange →
      (d.serve s call).2 = (Cell.serve rules c call).2 ∧
        Represents d (d.serve s call).1 (Cell.serve rules c call).1 :=
    fun _ _ _ rep inRange => rep.serve like inRange
  refine ⟨fun calls inRange => answers_eq kept start inRange, ?_, ?_⟩
  · intro calls call inRange error
    obtain ⟨before, last⟩ := List.forall_mem_append.mp inRange
    have rep := related_after kept start before
    obtain ⟨same, next⟩ := rep.serve like (last call (List.mem_singleton_self call))
    rw [same] at error
    rw [Cell.serve_error error] at next
    rw [after_append]
    exact next.image.trans rep.image.symm
  · intro calls file a later b inRange delivers
    obtain ⟨before, rest⟩ := List.forall_mem_append.mp inRange
    obtain ⟨first, -⟩ := List.forall_mem_cons.mp rest
    have rep := related_after kept start before
    rw [(rep.serve like first).1] at delivers
    have stays : ∀ (c : Cell) call, c.ended[file]? = some true →
        (c.serve rules call).1.ended[file]? = some true := fun _ call atEnd =>
      Cell.serve_ended atEnd call
    have ended := kept_after stays (Cell.serve_read delivers) later
    have final := related_after kept start inRange
    simp only [after_append, after_cons] at final ⊢
    rw [final.ended, List.getElem?_map] at ended
    obtain ⟨offset, slot, past⟩ := Option.map_eq_some_iff.mp ended
    exact serve_read_past slot (of_decide_eq_true past)

end Refinement

/-! ## The three drivers -/

/-- An `int` is read back from its bytes. -/
theorem readInt_toBytes (v : BitVec 32) : readInt (toBytes 4 v.toNat) = v := by
  have long : (toBytes 4 v.toNat).length ≤ 4 := Nat.le_of_eq (length_toBytes 4 _)
  have fits : v.toNat < 256 ^ 4 := v.isLt
  rw [readInt, List.take_of_length_le long, ofBytes_toBytes_of_lt fits, BitVec.ofNat_toNat,
    BitVec.setWidth_eq]

theorem hw2_cellLike : CellLike Hw2.mydevFops hw2Rules where
  opened _ := rfl
  fetch _ := rfl
  accept _ _ _ := ⟨rfl, rfl⟩
  reject _ _ rejected := absurd rejected nofun

theorem Hw3.value_eq (g : Hw3.Led) : Hw3.mydevFops.value g = toBytes 4 g.ledctl.toNat := by
  have low : (g.ledctl.setWidth 64).setWidth 32 = g.ledctl := by simp
  change toBytes 4 ((g.ledctl.setWidth 64).setWidth 32).toNat = _
  rw [low]

theorem hw3_cellLike : CellLike Hw3.mydevFops hw3Rules where
  opened _ := rfl
  fetch _ := rfl
  accept v g _ := by
    have next : Hw3.mydevFops.accept v g = (⟨v.signExtend 64, v.signExtend 64, v⟩, none) :=
      Hw3.accept_eq v g
    rw [next, Hw3.value_eq]
    exact ⟨rfl, rfl⟩
  reject _ _ rejected := absurd rejected nofun

theorem hw5_cellLike : CellLike Hw5.mydevFops hw5Rules where
  opened g := by
    change toBytes 4 (Hw5.openCall g).rate.blinkRate.toNat = toBytes 4 g.rate.blinkRate.toNat
    unfold Hw5.openCall
    dsimp only
    split <;> rfl
  fetch _ := rfl
  accept v g accepted := by
    simp only [hw5Rules, readInt_toBytes, decide_eq_true_eq] at accepted
    have next : Hw5.mydevFops.accept v g = ({ g with rate := ⟨v.signExtend 64, v⟩ }, none) := by
      simp only [Hw5.mydevFops, Rate.accept_eq, if_neg (not_lt.mpr accepted)]
    rw [next]
    exact ⟨rfl, rfl⟩
  reject v g rejected := by
    simp only [hw5Rules, readInt_toBytes, decide_eq_false_iff_not, not_le] at rejected
    have next : Hw5.mydevFops.accept v g =
        ({ g with rate := ⟨v.signExtend 64, g.rate.blinkRate⟩ }, some (-einval)) := by
      simp only [Hw5.mydevFops, Rate.accept_eq, if_pos rejected]
    rw [next]
    exact ⟨rfl, rfl⟩

/-- **The device files are cells.** For every sequence of opens, writes of at most
four bytes and reads of at least four, over any number of open files and with any
failures: HW2 refines a cell that opens set to 40 and that accepts everything;
HW3 one that holds `LEDCTL` at first and accepts everything; and HW5 one that
holds `blink_rate` at first and rejects exactly the negative `int`s. -/
theorem refines_cell :
    (∀ g : Hw2.Globals,
      RefinesCell Hw2.mydevFops hw2Rules g (toBytes 4 g.syscallVal.toNat)) ∧
    (∀ g : Hw3.Led, RefinesCell Hw3.mydevFops hw3Rules g (toBytes 4 g.ledctl.toNat)) ∧
    ∀ g : Hw5.Globals, RefinesCell Hw5.mydevFops hw5Rules g (toBytes 4 g.rate.blinkRate.toNat) := by
  refine ⟨fun g => hw2_cellLike.refinesCell g, fun g => ?_, fun g => hw5_cellLike.refinesCell g⟩
  have refines := hw3_cellLike.refinesCell g
  rwa [Hw3.value_eq] at refines

end BlinkDriver.CharDev
