import BlinkDriver.CharDev.Calls
import BlinkDriver.Lib.Chunks

/-!
# Reading a value in pieces

A read of HW2 or HW5 returns four, copies the value from its first byte on, and
advances the file offset by the length it was asked for. `EachLawful` is what
reading a four-byte file means: the reads return what is left up to the length
asked for, deliver it, and advance by as much.

`reads_through_iff` says that a sequence of reads is lawful exactly if each read
that succeeds starts at the end or asks for four bytes at the beginning; what
sequential reading promises follows from the general facts about chunks.
-/

namespace BlinkDriver.CharDev

open LittleEndian Chunks

variable {γ : Type}

/-- The results of the reads of one open file, from an offset on. -/
def FileOps.readAll (d : FileOps γ) : γ → Nat → List ReadArgs → List ReadResult
  | _, _, [] => []
  | g, o, a :: args =>
      let next := readCall d.fetch a o g
      next.2 :: d.readAll next.1 next.2.offset args

/-- A successful read at offset `o` returns what is left up to the length asked
for, delivers it, and advances the offset by as much. -/
structure LawfulRead (value : List Byte) (len o : Nat) (r : ReadResult) : Prop where
  ret : r.ret = (min len (4 - min o 4) : Nat)
  bytes : r.bytes = chunk value o len
  offset : (r.offset : Int) = o + r.ret

/-- Every read that succeeds is lawful. -/
def FileOps.EachLawful (d : FileOps γ) (value : List Byte) : γ → Nat → List ReadArgs → Prop
  | _, _, [] => True
  | g, o, a :: args =>
      let next := readCall d.fetch a o g
      (0 ≤ next.2.ret → LawfulRead value a.len o next.2) ∧
        d.EachLawful value next.1 next.2.offset args

/-- Sequential reading from offset `o`: every read that succeeds is lawful, what
they deliver together is a prefix of the value from `o` on, and it is all of that
once a read of a positive length returns zero, which comes at the latest when
there have been more successful reads of positive lengths than there were bytes. -/
structure FileOps.ReadsThrough (d : FileOps γ) (g : γ) (o : Nat) (args : List ReadArgs) : Prop where
  each : d.EachLawful (d.value g) g o args
  part : (d.readAll g o args).flatMap ReadResult.bytes <+: (d.value g).drop o
  whole : ∀ p ∈ args.zip (d.readAll g o args), 0 < p.1.len → p.2.ret = 0 →
    (d.readAll g o args).flatMap ReadResult.bytes = (d.value g).drop o
  ends : (∀ a ∈ args, 0 < a.len) → (∀ r ∈ d.readAll g o args, 0 ≤ r.ret) → 4 - o < args.length →
    ∃ r ∈ d.readAll g o args, r.ret = 0

/-- Every read fails, starts at the end, or asks for four bytes at the beginning. -/
def FileOps.Aligned (d : FileOps γ) : γ → Nat → List ReadArgs → Prop
  | _, _, [] => True
  | g, o, a :: args =>
      let next := readCall d.fetch a o g
      (a.null = true ∨ a.reach < 4 ∨ 4 ≤ o ∨ (o = 0 ∧ a.len = 4)) ∧
        d.Aligned next.1 next.2.offset args

/-- A read changes nothing. -/
def FileOps.Steady (d : FileOps γ) : Prop := ∀ g, (d.fetch g).1 = g

/-! ## One read -/

section Read

variable {d : FileOps γ} {g : γ} {a : ReadArgs} {o : Nat}

theorem FileOps.Steady.readCall_fst (steady : d.Steady) : (readCall d.fetch a o g).1 = g := by
  unfold readCall
  split
  · rfl
  split
  · rfl
  dsimp only
  split
  · exact steady g
  · exact steady g

theorem lawfulRead_iff :
    (0 ≤ (readCall d.fetch a o g).2.ret →
        LawfulRead (d.value g) a.len o (readCall d.fetch a o g).2) ↔
      a.null = true ∨ a.reach < 4 ∨ 4 ≤ o ∨ (o = 0 ∧ a.len = 4) := by
  rcases Nat.lt_or_ge o 4 with before | atEnd
  · cases null : a.null with
    | true =>
        rw [readCall_null before null]
        exact ⟨fun _ => Or.inl rfl, fun _ nonneg => absurd nonneg (not_le.mpr neg_einval)⟩
    | false =>
        rcases Nat.lt_or_ge a.reach 4 with faults | reaches
        · rw [readCall_fault before null faults]
          exact ⟨fun _ => Or.inr (Or.inl faults),
            fun _ nonneg => absurd nonneg (not_le.mpr neg_efault)⟩
        · rw [readCall_done before null reaches]
          have under : ¬ a.reach < 4 := not_lt.mpr reaches
          have open' : ¬ 4 ≤ o := not_le.mpr before
          simp only [under, open', Bool.false_eq_true, false_or]
          constructor
          · intro lawful
            obtain ⟨ret, -, offset⟩ := lawful (by decide)
            simp only at ret offset
            omega
          · rintro ⟨rfl, four⟩ -
            refine ⟨by simp only [four]; rfl, ?_, by simp only [four]; rfl⟩
            have all : (4 : Int).toNat = 4 := rfl
            simp only [ReadResult.bytes, chunk, all, four, List.drop_zero, FileOps.value]
  · rw [readCall_atEnd atEnd]
    refine ⟨fun _ => Or.inr (Or.inr (Or.inl atEnd)), fun _ _ => ⟨?_, ?_, by simp⟩⟩
    · simp only [Nat.min_eq_right atEnd, Nat.sub_self, Nat.min_zero, Int.ofNat_zero]
    · have past : (d.value g).drop o = [] :=
        List.drop_of_length_le (by rw [FileOps.length_value]; exact atEnd)
      rw [chunk, past, List.take_nil]
      rfl

/-- A read that fails leaves the offset where it is. -/
theorem readCall_offset {fetch : γ → γ × BitVec 32} (fails : (readCall fetch a o g).2.ret < 0) :
    (readCall fetch a o g).2.offset = o := by
  rcases Nat.lt_or_ge o 4 with before | atEnd
  · cases null : a.null with
    | true => rw [readCall_null before null]
    | false =>
        rcases Nat.lt_or_ge a.reach 4 with faults | reaches
        · rw [readCall_fault before null faults]
        · rw [readCall_done before null reaches] at fails
          exact absurd fails (by decide : ¬ (4 : Int) < 0)
  · rw [readCall_atEnd atEnd]

/-- A read that succeeds has stored as many bytes as it returns. -/
theorem readCall_length_bytes {fetch : γ → γ × BitVec 32}
    (succeeds : 0 ≤ (readCall fetch a o g).2.ret) :
    ((readCall fetch a o g).2.bytes.length : Int) = (readCall fetch a o g).2.ret := by
  rcases Nat.lt_or_ge o 4 with before | atEnd
  · cases null : a.null with
    | true =>
        rw [readCall_null before null] at succeeds
        exact absurd succeeds (not_le.mpr neg_einval)
    | false =>
        rcases Nat.lt_or_ge a.reach 4 with faults | reaches
        · rw [readCall_fault before null faults] at succeeds
          exact absurd succeeds (not_le.mpr neg_efault)
        · rw [readCall_done before null reaches]
          rfl
  · rw [readCall_atEnd atEnd]
    rfl

end Read

/-! ## Sequences of reads -/

section Sequences

variable {d : FileOps γ} {g : γ} {o : Nat} {args : List ReadArgs}

theorem FileOps.Steady.eachLawful_iff (steady : d.Steady) (o : Nat) (args : List ReadArgs) :
    d.EachLawful (d.value g) g o args ↔ d.Aligned g o args := by
  induction args generalizing o with
  | nil => rfl
  | cons a args ih =>
      simp only [FileOps.EachLawful, FileOps.Aligned, lawfulRead_iff, steady.readCall_fst, ih]

/-- What the reads asked for and what they delivered. -/
def transcript (args : List ReadArgs) (results : List ReadResult) :
    List (Nat × Option (List Byte)) :=
  (args.zip results).map fun p => (p.1.len, if 0 ≤ p.2.ret then some p.2.bytes else none)

theorem FileOps.Steady.reading (steady : d.Steady) (each : d.EachLawful (d.value g) g o args) :
    Reading (d.value g) o (transcript args (d.readAll g o args)) := by
  induction args generalizing o with
  | nil => exact .done
  | cons a args ih =>
      obtain ⟨first, rest⟩ := each
      rw [steady.readCall_fst] at rest
      have later := ih rest
      simp only [transcript, FileOps.readAll, List.zip_cons_cons, List.map_cons,
        steady.readCall_fst]
      by_cases succeeds : 0 ≤ (readCall d.fetch a o g).2.ret
      · have lawful := first succeeds
        rw [if_pos succeeds, lawful.bytes]
        have long := length_chunk (d.value g) o a.len
        have ret := lawful.ret
        have offset := lawful.offset
        rw [FileOps.length_value] at long
        have moved : (readCall d.fetch a o g).2.offset =
            o + (chunk (d.value g) o a.len).length := by omega
        rw [moved] at later ⊢
        exact .chunk later
      · rw [readCall_offset (not_le.mp succeeds)] at later
        rw [if_neg succeeds, readCall_offset (not_le.mp succeeds)]
        exact .failed later

theorem length_readAll (d : FileOps γ) (g : γ) (o : Nat) (args : List ReadArgs) :
    (d.readAll g o args).length = args.length := by
  induction args generalizing g o with
  | nil => rfl
  | cons a args ih => simp only [FileOps.readAll, List.length_cons, ih]

theorem length_bytes_of_mem {r : ReadResult} (member : r ∈ d.readAll g o args)
    (succeeds : 0 ≤ r.ret) : (r.bytes.length : Int) = r.ret := by
  induction args generalizing g o with
  | nil => exact absurd member List.not_mem_nil
  | cons a args ih =>
      rcases List.mem_cons.mp member with rfl | later
      · exact readCall_length_bytes succeeds
      · exact ih later

theorem delivered_transcript {results : List ReadResult} (same : results.length = args.length) :
    delivered (transcript args results) = results.flatMap ReadResult.bytes := by
  induction args generalizing results with
  | nil =>
      rw [List.eq_nil_of_length_eq_zero same]
      rfl
  | cons a args ih =>
      cases results with
      | nil => cases same
      | cons r results =>
          have rest := ih (Nat.succ.inj same)
          simp only [transcript, List.zip_cons_cons, List.map_cons] at rest ⊢
          rw [delivered_cons, rest, List.flatMap_cons]
          split
          · rfl
          · rename_i fails
            have nothing : r.bytes = [] := by
              rw [ReadResult.bytes, Int.toNat_of_nonpos (by omega), List.take_zero]
            rw [nothing]
            rfl

theorem FileOps.Steady.readsThrough (steady : d.Steady)
    (each : d.EachLawful (d.value g) g o args) : d.ReadsThrough g o args := by
  have reading := steady.reading each
  have all := delivered_transcript (length_readAll d g o args)
  have part := reading.isPrefix
  rw [all] at part
  refine ⟨each, part, fun p member positive ended => ?_, fun positive succeed enough => ?_⟩
  · have atEnd : (p.1.len, some []) ∈ transcript args (d.readAll g o args) := by
      refine List.mem_map.mpr ⟨p, member, ?_⟩
      rw [if_pos (Int.le_of_eq ended.symm), ReadResult.bytes, ended]
      rfl
    have whole := reading.complete atEnd positive
    rwa [all] at whole
  · have long : (transcript args (d.readAll g o args)).length = args.length := by
      rw [transcript, List.length_map, List.length_zip, length_readAll, Nat.min_self]
    have succeedAll : ∀ read ∈ transcript args (d.readAll g o args),
        read.2.isSome ∧ 0 < read.1 := by
      intro read member
      obtain ⟨p, zipped, rfl⟩ := List.mem_map.mp member
      obtain ⟨asked, result⟩ := List.of_mem_zip (a := p.1) (b := p.2) zipped
      rw [if_pos (succeed p.2 result)]
      exact ⟨rfl, positive p.1 asked⟩
    obtain ⟨len, ended, -⟩ := reading.ends succeedAll (by rwa [long, FileOps.length_value])
    obtain ⟨p, member, same⟩ := List.mem_map.mp ended
    have result := (List.of_mem_zip (a := p.1) (b := p.2) member).2
    have nonneg := succeed p.2 result
    rw [if_pos nonneg] at same
    have count := length_bytes_of_mem result nonneg
    rw [Option.some.inj (congrArg Prod.snd same)] at count
    exact ⟨p.2, result, count.symm⟩

theorem FileOps.Steady.readsThrough_iff (steady : d.Steady) :
    d.ReadsThrough g o args ↔ d.Aligned g o args :=
  ⟨fun reads => (steady.eachLawful_iff o args).mp reads.each,
    fun aligned => steady.readsThrough ((steady.eachLawful_iff o args).mpr aligned)⟩

end Sequences

/-- **Sequential reading works for whole reads of the beginning.** In HW2 and in
HW5, for every value, starting offset and sequence of reads, the reads return,
deliver and skip what sequential reading of four bytes means, with all that
follows, if and only if every read that succeeds starts at the end or asks for
four bytes at the beginning. -/
theorem reads_through_iff (hw2 : Hw2.Globals) (hw5 : Hw5.Globals) (o : Nat) (args : List ReadArgs) :
    (Hw2.mydevFops.ReadsThrough hw2 o args ↔ Hw2.mydevFops.Aligned hw2 o args) ∧
      (Hw5.mydevFops.ReadsThrough hw5 o args ↔ Hw5.mydevFops.Aligned hw5 o args) := by
  have hw2Steady : Hw2.mydevFops.Steady := fun _ => rfl
  have hw5Steady : Hw5.mydevFops.Steady := fun _ => rfl
  exact ⟨hw2Steady.readsThrough_iff, hw5Steady.readsThrough_iff⟩

/-- Reads of one byte each: every one of them returns four and delivers the whole
value from its first byte on. -/
theorem reads_repeat :
    (¬ Hw2.mydevFops.ReadsThrough ⟨40⟩ 0 (List.replicate 4 ⟨false, 1, 4096, by decide⟩)) ∧
      ¬ Hw5.mydevFops.ReadsThrough (Hw5.State.off 0).g 0
        (List.replicate 4 ⟨false, 1, 4096, by decide⟩) := by
  constructor
  · intro reads
    exact absurd (reads.each.1 (by decide)).ret (by decide)
  · intro reads
    exact absurd (reads.each.1 (by decide)).ret (by decide)

end BlinkDriver.CharDev
