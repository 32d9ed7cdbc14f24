import Mathlib.Data.List.Basic

/-!
# Reading data in chunks

A read of `len` items at position `o` delivers `chunk data o len` and moves the
position past it, or fails and moves nothing. `Reading` is a sequence of such
reads. What it delivers is a prefix of the data from its first position on; a
read of a positive length that delivers nothing means that everything has been
delivered; and reads of positive lengths that do not fail come to such a read.
-/

namespace Chunks

variable {β : Type*}

def chunk (data : List β) (o len : Nat) : List β := (data.drop o).take len

/-- Reads from position `o` on: the length each asked for, and what it delivered
if it did not fail. -/
inductive Reading (data : List β) : Nat → List (Nat × Option (List β)) → Prop
  | done {o : Nat} : Reading data o []
  | failed {o len : Nat} {reads : List (Nat × Option (List β))} :
      Reading data o reads → Reading data o ((len, none) :: reads)
  | chunk {o len : Nat} {reads : List (Nat × Option (List β))} :
      Reading data (o + (chunk data o len).length) reads →
        Reading data o ((len, some (chunk data o len)) :: reads)

/-- Everything the reads delivered. -/
def delivered (reads : List (Nat × Option (List β))) : List β :=
  reads.flatMap fun read => read.2.getD []

variable {data : List β} {o : Nat} {reads : List (Nat × Option (List β))}

theorem length_chunk (data : List β) (o len : Nat) :
    (chunk data o len).length = min len (data.length - o) := by
  rw [chunk, List.length_take, List.length_drop]

/-- What a read leaves is what follows its chunk. -/
theorem chunk_append (data : List β) (o len : Nat) :
    chunk data o len ++ data.drop (o + (chunk data o len).length) = data.drop o := by
  rw [← List.drop_drop, length_chunk, chunk]
  rcases Nat.le_total len (data.length - o) with inside | beyond
  · rw [Nat.min_eq_left inside, List.take_append_drop]
  · have short : (data.drop o).length ≤ len := by rwa [List.length_drop]
    rw [Nat.min_eq_right beyond, List.take_of_length_le short, ← List.length_drop, List.drop_length,
      List.append_nil]

theorem delivered_cons (read : Nat × Option (List β)) (reads : List (Nat × Option (List β))) :
    delivered (read :: reads) = read.2.getD [] ++ delivered reads := rfl

/-- The reads deliver the data in order, and nothing twice. -/
theorem Reading.isPrefix (reading : Reading data o reads) :
    delivered reads <+: data.drop o := by
  induction reading with
  | done => exact List.nil_prefix
  | failed _ ih => exact ih
  | @chunk o len reads _ ih =>
      rw [delivered_cons, ← chunk_append data o len]
      exact (List.prefix_append_right_inj _).mpr ih

/-- A read of a positive length delivers nothing at the end only. -/
theorem drop_of_chunk_nil {len : Nat} (positive : 0 < len) (nothing : chunk data o len = []) :
    data.drop o = [] := by
  have none := length_chunk data o len
  rw [nothing, List.length_nil] at none
  exact List.drop_of_length_le (by omega)

/-- After a read that came to the end everything has been delivered. -/
theorem Reading.complete (reading : Reading data o reads) {len : Nat}
    (ended : (len, some []) ∈ reads) (positive : 0 < len) : delivered reads = data.drop o := by
  induction reading with
  | done => exact absurd ended List.not_mem_nil
  | failed _ ih =>
      rcases List.mem_cons.mp ended with same | later
      · cases same
      · exact ih later
  | @chunk o len' reads rest ih =>
      rcases List.mem_cons.mp ended with same | later
      · obtain ⟨rfl, nothing⟩ := Prod.mk.injEq .. ▸ same
        have last := drop_of_chunk_nil positive (Option.some.inj nothing).symm
        have whole : delivered ((len, some (Chunks.chunk data o len)) :: reads) <+: data.drop o :=
          (Reading.chunk rest).isPrefix
        rw [last] at whole ⊢
        exact List.prefix_nil.mp whole
      · rw [delivered_cons, ih later]
        exact chunk_append data o len'

/-- Reads of positive lengths that do not fail come to the end. -/
theorem Reading.ends (reading : Reading data o reads)
    (succeed : ∀ read ∈ reads, read.2.isSome ∧ 0 < read.1)
    (enough : data.length - o < reads.length) : ∃ len, (len, some []) ∈ reads ∧ 0 < len := by
  induction reading with
  | done => exact absurd enough (Nat.not_lt_zero _)
  | failed => exact absurd (succeed _ (List.mem_cons_self ..)).1 nofun
  | @chunk o len reads _ ih =>
      have positive : 0 < len := (succeed _ (List.mem_cons_self ..)).2
      by_cases nothing : Chunks.chunk data o len = []
      · exact ⟨len, List.mem_cons.mpr (Or.inl (by rw [nothing])), positive⟩
      · have some := List.length_pos_iff.mpr nothing
        have short := length_chunk data o len
        rw [List.length_cons] at enough
        obtain ⟨len', member, positive'⟩ :=
          ih (fun read member => succeed read (List.mem_cons_of_mem _ member)) (by omega)
        exact ⟨len', List.mem_cons_of_mem _ member, positive'⟩

end Chunks
