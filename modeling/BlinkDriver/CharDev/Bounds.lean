import BlinkDriver.CharDev.Calls

/-!
# User copies and the buffers they go to

The kernel buffer of a write and the `int` of a read have four bytes, and so has
the copy out; the copy in, the value a write returns and the step of the file
offset follow the caller's length, which nobody checks. A write of more than four
bytes goes past the end of the kernel buffer, a read of fewer than four past the
end of the user's.

`copies_in_bounds_iff` says for each of the four drivers that these are the only
calls that go wrong, in every sequence of calls.
-/

namespace BlinkDriver.CharDev

open LittleEndian

variable {γ : Type}

/-- A call of a driver, with the file offset a read starts at. -/
inductive FileCall where
  | read (a : ReadArgs) (offset : Nat)
  | write (a : WriteArgs)
  deriving DecidableEq

/-- The globals after a call. -/
def FileOps.after (d : FileOps γ) (g : γ) : FileCall → γ
  | .read a offset => (readCall d.fetch a offset g).1
  | .write a => (writeCall d.accept a g).1

/-- A copy of `stored` bytes stays within a buffer of `room` bytes, and a value
that is not an error is at most what has been copied and at most the length the
caller asked for. -/
structure Contained (ret : Int) (stored room len : Nat) : Prop where
  copy : stored ≤ room
  ret : 0 ≤ ret → ret ≤ stored ∧ ret ≤ len

/-- What the call copies, to the user's buffer or to the kernel's, is contained. -/
def FileOps.InBounds (d : FileOps γ) (g : γ) : FileCall → Prop
  | .read a offset =>
      let r := (readCall d.fetch a offset g).2
      Contained r.ret r.stored.length a.len a.len
  | .write a =>
      let r := (writeCall d.accept a g).2
      Contained r.ret r.stored.length r.room a.buf.len

/-- In a sequence of calls, every call's copy is contained. -/
def FileOps.AllInBounds (d : FileOps γ) : γ → List FileCall → Prop
  | _, [] => True
  | g, c :: calls => d.InBounds g c ∧ d.AllInBounds (d.after g c) calls

/-- A read that copies has room for four bytes, or the memory ends before its
buffer overflows; a write that copies brings at most four. -/
def Fits : FileCall → Prop
  | .read a offset => 4 ≤ offset ∨ a.null = true ∨ 4 ≤ a.len ∨ a.reach ≤ a.len
  | .write a => a.buf.null = true ∨ a.memory = false ∨ a.buf.len ≤ 4

/-- The errors of a driver are negative. -/
def FileOps.Lawful (d : FileOps γ) : Prop := ∀ v g error, (d.accept v g).2 = some error → error < 0

/-! ## One call -/

/-- A call that returns an error without a copy. -/
theorem Contained.error {ret : Int} {room len : Nat} (error : ret < 0) : Contained ret 0 room len :=
  ⟨Nat.zero_le _, fun nonneg => absurd nonneg (not_le.mpr error)⟩

theorem readCall_inBounds_iff (d : FileOps γ) (g : γ) (a : ReadArgs) (offset : Nat) :
    d.InBounds g (.read a offset) ↔ Fits (.read a offset) := by
  simp only [FileOps.InBounds, Fits]
  rcases Nat.lt_or_ge offset 4 with before | atEnd
  · cases null : a.null with
    | true =>
        rw [readCall_null before null]
        exact ⟨fun _ => Or.inr (Or.inl rfl), fun _ => .error neg_einval⟩
    | false =>
        have open' : ¬ 4 ≤ offset := not_le.mpr before
        rcases Nat.lt_or_ge a.reach 4 with faults | whole
        · rw [readCall_fault before null faults]
          simp only [List.length_take, length_toBytes, open', Bool.false_eq_true, false_or]
          constructor
          · intro contained
            have copy := contained.copy
            omega
          · intro fits
            exact ⟨by omega, fun nonneg => absurd nonneg (not_le.mpr neg_efault)⟩
        · rw [readCall_done before null whole]
          simp only [length_toBytes, open', Bool.false_eq_true, false_or]
          constructor
          · intro contained
            exact Or.inl contained.copy
          · intro fits
            exact ⟨by omega, fun _ => ⟨by omega, by omega⟩⟩
  · rw [readCall_atEnd atEnd]
    exact ⟨fun _ => Or.inl atEnd, fun _ => ⟨Nat.zero_le _, fun _ => ⟨Int.le_refl 0, by simp⟩⟩⟩

/-- `copy_from_user` stores as many bytes as it is asked for. -/
theorem WriteArgs.length_image (a : WriteArgs) : a.image.length = a.buf.len := by
  rw [image, List.length_append, List.length_take, List.length_replicate, UserBuffer.len]
  omega

theorem writeCall_inBounds_iff {d : FileOps γ} (lawful : d.Lawful) (g : γ) (a : WriteArgs) :
    d.InBounds g (.write a) ↔ Fits (.write a) := by
  simp only [FileOps.InBounds, Fits]
  cases null : a.buf.null with
  | true =>
      rw [writeCall_null null]
      exact ⟨fun _ => Or.inl rfl, fun _ => .error neg_einval⟩
  | false =>
      cases memory : a.memory with
      | false =>
          rw [writeCall_noMemory null memory]
          exact ⟨fun _ => Or.inr (Or.inl rfl), fun _ => .error neg_enomem⟩
      | true =>
          simp only [Bool.false_eq_true, Bool.true_eq_false, false_or]
          rcases Nat.lt_or_ge a.reach a.buf.len with faults | whole
          · rw [writeCall_fault null memory faults]
            rw [a.length_image]
            exact ⟨fun contained => contained.copy,
              fun fits => ⟨fits, fun nonneg => absurd nonneg (not_le.mpr neg_efault)⟩⟩
          · rw [writeCall_done null memory whole]
            rw [a.length_image]
            refine ⟨fun contained => contained.copy, fun fits => ⟨fits, fun nonneg => ?_⟩⟩
            cases error : (d.accept a.int g).2 with
            | none => exact ⟨Int.le_refl _, Int.le_refl _⟩
            | some e =>
                rw [error] at nonneg
                exact absurd nonneg (not_le.mpr (lawful _ _ _ error))

/-! ## Sequences of calls -/

theorem Variant.lawful (v : Variant) : v.fops.Lawful := by
  intro x g error failed
  cases v with
  | hw2 => cases failed
  | hw3 =>
      simp only [Variant.fops, Hw3.mydevFops, Hw3.accept_eq] at failed
      cases failed
  | hw5 =>
      simp only [Variant.fops, Hw5.mydevFops, Rate.accept_eq] at failed
      split at failed
      · cases failed
        exact neg_einval
      · cases failed
  | hw6 =>
      simp only [Variant.fops, Hw6.mydevFops, Rate.accept_eq] at failed
      split at failed
      · cases failed
        exact neg_einval
      · cases failed

theorem FileOps.inBounds_iff {d : FileOps γ} (lawful : d.Lawful) (g : γ) (c : FileCall) :
    d.InBounds g c ↔ Fits c := by
  cases c with
  | read a offset => exact readCall_inBounds_iff d g a offset
  | write a => exact writeCall_inBounds_iff lawful g a

/-- **User copies stay in bounds for calls that fit, and for no others.** In every
sequence of reads and writes of any of the four drivers, with any lengths,
offsets and buffers, every copy stays within its buffer and every value that is
not an error is at most what has been copied and at most the caller's length, if
and only if every read that copies has room for four bytes or faults within its
buffer, and every write that copies brings at most four. -/
theorem copies_in_bounds_iff (v : Variant) (g : v.Globals) (calls : List FileCall) :
    v.fops.AllInBounds g calls ↔ ∀ c ∈ calls, Fits c := by
  induction calls generalizing g with
  | nil => exact ⟨fun _ => nofun, fun _ => trivial⟩
  | cons c calls ih =>
      rw [FileOps.AllInBounds, FileOps.inBounds_iff v.lawful, ih, List.forall_mem_cons]

/-- A write of eight bytes, and a read of one. -/
def eightBytes : FileCall := .write ⟨⟨List.replicate 8 1, false, by decide⟩, true, 8⟩

def oneByte : FileCall := .read ⟨false, 1, 4096, by decide⟩ 0

theorem not_allInBounds {d : FileOps γ} (lawful : d.Lawful) (g : γ) {c : FileCall}
    (overflows : ¬ Fits c) : ¬ d.AllInBounds g [c] :=
  fun all => overflows ((FileOps.inBounds_iff lawful g c).mp all.1)

/-- In each of the drivers a write of eight bytes goes past the end of the kernel
buffer, and a read of one byte past the end of the user's. -/
theorem copies_out_of_bounds :
    (¬ Hw2.mydevFops.AllInBounds ⟨0⟩ [eightBytes] ∧ ¬ Hw2.mydevFops.AllInBounds ⟨0⟩ [oneByte]) ∧
    (¬ Hw3.mydevFops.AllInBounds ⟨0, 0, 0⟩ [eightBytes] ∧
      ¬ Hw3.mydevFops.AllInBounds ⟨0, 0, 0⟩ [oneByte]) ∧
    (¬ Hw5.mydevFops.AllInBounds (Hw5.State.off 0).g [eightBytes] ∧
      ¬ Hw5.mydevFops.AllInBounds (Hw5.State.off 0).g [oneByte]) ∧
    (¬ Hw6.mydevFops.AllInBounds ⟨⟨0, 0, 0, 0, 0, 0, 0, 0, 0, 0⟩, ⟨0, 0⟩⟩ [eightBytes] ∧
      ¬ Hw6.mydevFops.AllInBounds ⟨⟨0, 0, 0, 0, 0, 0, 0, 0, 0, 0⟩, ⟨0, 0⟩⟩ [oneByte]) := by
  have eight : ¬ Fits eightBytes := by simp [Fits, eightBytes, UserBuffer.len]
  have one : ¬ Fits oneByte := by simp [Fits, oneByte]
  exact ⟨⟨not_allInBounds (Variant.lawful .hw2) _ eight,
      not_allInBounds (Variant.lawful .hw2) _ one⟩,
    ⟨not_allInBounds (Variant.lawful .hw3) _ eight, not_allInBounds (Variant.lawful .hw3) _ one⟩,
    ⟨not_allInBounds (Variant.lawful .hw5) _ eight, not_allInBounds (Variant.lawful .hw5) _ one⟩,
    not_allInBounds (Variant.lawful .hw6) _ eight, not_allInBounds (Variant.lawful .hw6) _ one⟩

end BlinkDriver.CharDev
