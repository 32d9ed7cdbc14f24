import Mathlib.Data.Int.ModEq
import Mathlib.Logic.Function.Basic

/-!
# A ring that hands slots from a producer to a consumer and back

`n` slots, a producer that fills them in order and a consumer that returns them
in order. Counting what was produced and what was consumed since the start
gives a `Window`: the consumer never overtakes the producer, and the producer
stays less than `n` slots ahead, because one slot always stays with the
consumer. The two registers such a ring exposes are the counts modulo `n`:
`head` is the slot the producer fills next, `tail` the slot the consumer
returned last.

The lemmas recover from `head` and `tail` alone what a party decides with them:
`head = tail` exactly when no slot is left to fill, `tail + 1 = head` exactly
when nothing is left to consume, and the two distances around the ring are the
backlog and the free slots. `Window.Holds` ties the slot contents to the log of
everything produced.
-/

namespace HandoverRing

variable {n : Nat}

/-- How much was produced and consumed, within what `n` slots allow. -/
structure Window (n : Nat) where
  produced : Nat
  consumed : Nat
  consumed_le : consumed ≤ produced
  produced_lt : produced < consumed + n

namespace Window

/-- Nothing produced yet. -/
def start (n : Nat) (pos : 0 < n) : Window n :=
  ⟨0, 0, Nat.le_refl 0, by omega⟩

/-- The slot the producer fills next. -/
def head (w : Window n) : Nat := w.produced % n

/-- The slot the consumer returned last. -/
def tail (w : Window n) : Nat := (w.consumed + (n - 1)) % n

theorem size_pos (w : Window n) : 0 < n := by
  have := w.consumed_le
  have := w.produced_lt
  omega

theorem head_lt (w : Window n) : w.head < n := Nat.mod_lt _ w.size_pos

theorem tail_lt (w : Window n) : w.tail < n := Nat.mod_lt _ w.size_pos

/-- The slot after the tail is the next one to consume. -/
theorem succ_tail (w : Window n) : (w.tail + 1) % n = w.consumed % n := by
  have pos := w.size_pos
  rw [tail, Nat.mod_add_mod, show w.consumed + (n - 1) + 1 = w.consumed + n by omega,
    Nat.add_mod_right]

/-- The window that two registers show, with the smallest counts that they allow. -/
def ofRegisters (head tail : Nat) (headLt : head < n) : Window n where
  produced := tail + 1 + (head + (n - 1 - tail)) % n
  consumed := tail + 1
  consumed_le := Nat.le_add_right ..
  produced_lt := Nat.add_lt_add_left (Nat.mod_lt _ (Nat.zero_lt_of_lt headLt)) _

theorem ofRegisters_head {head tail : Nat} (headLt : head < n) (tailLt : tail < n) :
    (ofRegisters head tail headLt).head = head := by
  have whole : tail + 1 + (head + (n - 1 - tail)) = head + n := by omega
  rw [Window.head, ofRegisters, Nat.add_mod_mod, whole, Nat.add_mod_right]
  exact Nat.mod_eq_of_lt headLt

theorem ofRegisters_tail {head tail : Nat} (headLt : head < n) (tailLt : tail < n) :
    (ofRegisters head tail headLt).tail = tail := by
  have whole : tail + 1 + (n - 1) = tail + n := by omega
  rw [Window.tail, ofRegisters, whole, Nat.add_mod_right]
  exact Nat.mod_eq_of_lt tailLt

/-! ## The distances around the ring -/

theorem backlog (w : Window n) :
    ((w.head : Int) - w.tail - 1) % n = w.produced - w.consumed := by
  have pos := w.size_pos
  have lower := w.consumed_le
  have upper := w.produced_lt
  have headMod : (w.head : Int) ≡ w.produced [ZMOD n] := by
    simp [head, Int.ModEq]
  have tailMod : (w.tail : Int) ≡ w.consumed - 1 [ZMOD n] := by
    have shift : ((w.consumed + (n - 1) : Nat) : Int) = w.consumed - 1 + n := by omega
    simp only [tail, Int.natCast_mod, shift, Int.ModEq, Int.emod_emod_of_dvd _ (dvd_refl _),
      Int.add_emod_right]
  have distance := (headMod.sub tailMod).sub_right 1
  rw [Int.ModEq, show (w.produced : Int) - (w.consumed - 1) - 1 = w.produced - w.consumed by
    omega] at distance
  rw [distance]
  exact Int.emod_eq_of_lt (by omega) (by omega)

theorem free (w : Window n) :
    ((w.tail : Int) - w.head) % n = n - 1 - (w.produced - w.consumed) := by
  have lower := w.consumed_le
  have upper := w.produced_lt
  have opposite : ((w.tail : Int) - w.head) ≡ n - 1 - (w.produced - w.consumed) [ZMOD n] := by
    have mirrored : ((w.head : Int) - w.tail - 1) ≡ w.produced - w.consumed [ZMOD n] := by
      rw [Int.ModEq, w.backlog, Int.emod_eq_of_lt (by omega) (by omega)]
    have turned := (Int.ModEq.refl (n := (n : Int)) (-1)).sub mirrored
    rw [Int.ModEq] at turned ⊢
    rw [show (-1 : Int) - ((w.head : Int) - w.tail - 1) =
      (w.tail : Int) - w.head by omega] at turned
    rw [turned, show (n : Int) - 1 - (w.produced - w.consumed) =
      -1 - ((w.produced : Int) - w.consumed) + n by omega, Int.add_emod_right]
  rw [opposite]
  exact Int.emod_eq_of_lt (by omega) (by omega)

/-- The producer has no slot left exactly when the two registers meet. -/
theorem head_eq_tail_iff (w : Window n) : w.head = w.tail ↔ w.produced + 1 = w.consumed + n := by
  have distance := w.free
  have headLt := w.head_lt
  have tailLt := w.tail_lt
  have upper := w.produced_lt
  constructor
  · intro meet
    rw [meet, sub_self, Int.zero_emod] at distance
    omega
  · intro full
    have zero : ((w.tail : Int) - w.head) % n = 0 := by omega
    have same := Int.emod_eq_emod_iff_emod_sub_eq_zero.mpr zero
    rw [Int.emod_eq_of_lt (by omega) (by omega), Int.emod_eq_of_lt (by omega) (by omega)] at same
    omega

/-- Two counts less than `n` apart name the same slot only when they are equal. -/
theorem mod_eq_iff {a b : Nat} (le : a ≤ b) (near : b < a + n) : b % n = a % n ↔ b = a := by
  constructor
  · intro same
    have dvd : n ∣ b - a := (Nat.modEq_iff_dvd' le).mp same.symm
    rcases Nat.eq_zero_or_pos (b - a) with zero | positive
    · omega
    · have := Nat.le_of_dvd positive dvd
      omega
  · intro same
    subst same
    rfl

/-- Nothing is left to consume exactly when the head follows the tail. -/
theorem succ_tail_eq_head_iff (w : Window n) :
    (w.tail + 1) % n = w.head ↔ w.produced = w.consumed := by
  rw [w.succ_tail, head, eq_comm]
  exact mod_eq_iff w.consumed_le w.produced_lt

/-! ## Moves -/

/-- The producer fills the slot at the head; the registers must not have met. -/
def produce (w : Window n) (room : w.head ≠ w.tail) : Window n where
  produced := w.produced + 1
  consumed := w.consumed
  consumed_le := Nat.le_succ_of_le w.consumed_le
  produced_lt := by
    have upper := w.produced_lt
    have notFull := mt w.head_eq_tail_iff.mpr room
    omega

/-- The consumer returns the slot after the tail; something must be left. -/
def consume (w : Window n) (pending : w.produced ≠ w.consumed) : Window n where
  produced := w.produced
  consumed := w.consumed + 1
  consumed_le := by have := w.consumed_le; omega
  produced_lt := by have := w.produced_lt; omega

theorem produce_head (w : Window n) (room : w.head ≠ w.tail) :
    (w.produce room).head = (w.head + 1) % n := by
  simp [head, produce]

theorem produce_tail (w : Window n) (room : w.head ≠ w.tail) :
    (w.produce room).tail = w.tail := rfl

theorem consume_tail (w : Window n) (pending : w.produced ≠ w.consumed) :
    (w.consume pending).tail = (w.tail + 1) % n := by
  simp only [tail, consume, Nat.mod_add_mod]
  congr 1
  omega

/-- What one step of the two parties together does to the counts. -/
inductive Move (w : Window n) : Window n → Prop
  | stay : Move w w
  | produce (room : w.head ≠ w.tail) : Move w (w.produce room)
  | consume (pending : w.produced ≠ w.consumed) : Move w (w.consume pending)

/-- The consumer never takes a slot back. -/
theorem Move.consumed_le {w v : Window n} (move : w.Move v) : w.consumed ≤ v.consumed := by
  cases move with
  | stay => exact Nat.le_refl _
  | produce room => exact Nat.le_refl _
  | consume pending => exact Nat.le_succ _

/-- A slot that was filled and not yet returned is not the one to be filled next. -/
theorem slot_ne_head (w : Window n) {k : Nat} (live : w.consumed ≤ k) (filled : k < w.produced) :
    k % n ≠ w.head := by
  intro same
  have upper := w.produced_lt
  have meet := mod_eq_iff (n := n) (a := k) (b := w.produced) (by omega) (by omega)
  exact absurd (meet.mp same.symm) (by omega)

/-! ## Slot contents -/

variable {α : Type*}

/-- Every slot that was filled and not yet returned holds its entry of the log
of everything produced. -/
structure Holds (w : Window n) (slots : Nat → α) (log : List α) : Prop where
  length : log.length = w.produced
  entry : ∀ k, w.consumed ≤ k → ∀ h : k < log.length, slots (k % n) = log[k]

theorem Holds.produce {w : Window n} {slots : Nat → α} {log : List α}
    (holds : w.Holds slots log) (room : w.head ≠ w.tail) (value : α) :
    (w.produce room).Holds (Function.update slots w.head value) (log ++ [value]) where
  length := by simp [holds.length, Window.produce]
  entry := by
    intro k live bound
    simp only [List.length_append, List.length_singleton] at bound
    have upper := w.produced_lt
    have length := holds.length
    have live' : w.consumed ≤ k := live
    rcases Nat.lt_or_ge k log.length with old | new
    · -- A live slot is less than `n` behind the head, so it is another slot.
      have other : k % n ≠ w.head := by
        intro same
        have := (mod_eq_iff (n := n) (a := k) (b := w.produced) (by omega) (by omega)).mp same.symm
        omega
      rw [Function.update_of_ne other, List.getElem_append_left old]
      exact holds.entry k live' old
    · have last : k = log.length := by omega
      have slot : k % n = w.head := by rw [last, length, head]
      rw [slot, Function.update_self]
      simp [last]

theorem Holds.consume {w : Window n} {slots : Nat → α} {log : List α}
    (holds : w.Holds slots log) (pending : w.produced ≠ w.consumed) :
    (w.consume pending).Holds slots log where
  length := holds.length
  entry := fun k live => holds.entry k (Nat.le_of_succ_le live)

/-- The consumer finds the oldest entry it has not returned in the slot after
the tail. -/
theorem Holds.next {w : Window n} {slots : Nat → α} {log : List α}
    (holds : w.Holds slots log) (pending : w.produced ≠ w.consumed) :
    log[w.consumed]? = some (slots ((w.tail + 1) % n)) := by
  have lower := w.consumed_le
  have length := holds.length
  have bound : w.consumed < log.length := by omega
  rw [w.succ_tail, holds.entry _ (Nat.le_refl _) bound, List.getElem?_eq_getElem bound]

end Window

/-! ## Slots the producer may still fill -/

/-- Slot `i` lies in the stretch from `head` up to, not including, `tail`. -/
def Between (n head tail i : Nat) : Prop :=
  ((i : Int) - head) % n < ((tail : Int) - head) % n

instance (n head tail i : Nat) : Decidable (Between n head tail i) :=
  inferInstanceAs (Decidable (_ < _))

/-- The slot the consumer reads is never one the producer may fill. -/
theorem Window.not_between_succ_tail (w : Window n) (pending : w.produced ≠ w.consumed) :
    ¬ Between n w.head w.tail ((w.tail + 1) % n) := by
  have lower := w.consumed_le
  have upper := w.produced_lt
  have slot : (((w.tail + 1) % n : Nat) : Int) - w.head ≡
      (w.consumed : Int) - w.produced + n [ZMOD n] := by
    rw [w.succ_tail, head]
    simp [Int.ModEq, Int.sub_emod]
  rw [Between, w.free, slot, Int.emod_eq_of_lt (by omega) (by omega)]
  omega

end HandoverRing
