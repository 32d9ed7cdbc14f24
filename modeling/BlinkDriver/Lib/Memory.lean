import BlinkDriver.Lib.LittleEndian

/-!
# Byte-addressed memory

A memory maps addresses to bytes. Addresses are natural numbers: no range that
is stored or loaded wraps around. A load reads back what was stored at the same
place and is not touched by a store to a range apart from it.
-/

namespace ByteMemory

open LittleEndian

abbrev Memory := Nat → Byte

/-- Store a string of bytes from an address on. -/
def store (addr : Nat) (bytes : List Byte) (m : Memory) : Memory := fun a =>
  if addr ≤ a then (bytes[a - addr]?).getD (m a) else m a

/-- The `n` bytes from an address on. -/
def load (addr n : Nat) (m : Memory) : List Byte := (List.range n).map fun i => m (addr + i)

/-- A range of addresses. -/
structure Region where
  start : Nat
  len : Nat
  deriving DecidableEq

/-- One range ends before the other begins. -/
def Region.Apart (r q : Region) : Prop := r.start + r.len ≤ q.start ∨ q.start + q.len ≤ r.start

instance (r q : Region) : Decidable (r.Apart q) := inferInstanceAs (Decidable (_ ∨ _))

/-- Ranges of the same positive length are apart only if they start apart. -/
theorem Region.Apart.start_ne {a b len : Nat} (apart : Region.Apart ⟨a, len⟩ ⟨b, len⟩)
    (positive : 0 < len) : a ≠ b := by
  rintro rfl
  simp only [Region.Apart, or_self] at apart
  omega

theorem length_load (addr n : Nat) (m : Memory) : (load addr n m).length = n := by
  simp [load]

/-- A byte outside the range of a store. -/
theorem store_of_apart {addr a : Nat} {bytes : List Byte} (m : Memory)
    (outside : a < addr ∨ addr + bytes.length ≤ a) : store addr bytes m a = m a := by
  unfold store
  split
  · rename_i within
    have past : bytes[a - addr]? = none := List.getElem?_eq_none (by omega)
    rw [past]
    rfl
  · rfl

/-- A range read in two parts. -/
theorem load_add (a m n : Nat) (mem : Memory) :
    load a (m + n) mem = load a m mem ++ load (a + m) n mem := by
  simp only [load, List.range_add, List.map_append, List.map_map, Function.comp_def, Nat.add_assoc]

theorem load_store_self (addr : Nat) (bytes : List Byte) (m : Memory) :
    load addr bytes.length (store addr bytes m) = bytes := by
  apply List.ext_getElem (length_load ..)
  intro i _ within
  simp [load, store, List.getElem?_eq_getElem within]

theorem load_store_of_apart {addr a n : Nat} {bytes : List Byte} (m : Memory)
    (apart : Region.Apart ⟨addr, bytes.length⟩ ⟨a, n⟩) :
    load a n (store addr bytes m) = load a n m := by
  refine List.map_congr_left fun i member => store_of_apart m ?_
  have within := List.mem_range.mp member
  simp only [Region.Apart] at apart
  omega

end ByteMemory
