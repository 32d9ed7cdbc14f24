import Mathlib.Data.BitVec

/-!
# Little-endian byte strings

`toBytes n x` is the `n`-byte little-endian image of `x`, `ofBytes` reads an
image back. Both are on natural numbers, so that the width of a field is only a
length and the round trip is one statement for every width.
-/

namespace LittleEndian

abbrev Byte := BitVec 8

/-- The `n` low bytes of `x`, least significant first. -/
def toBytes : Nat → Nat → List Byte
  | 0, _ => []
  | n + 1, x => BitVec.ofNat 8 x :: toBytes n (x / 256)

/-- The number a byte string stands for. -/
def ofBytes : List Byte → Nat
  | [] => 0
  | b :: bytes => b.toNat + 256 * ofBytes bytes

@[simp] theorem ofBytes_nil : ofBytes [] = 0 := rfl

@[simp] theorem ofBytes_cons (b : Byte) (bytes : List Byte) :
    ofBytes (b :: bytes) = b.toNat + 256 * ofBytes bytes := rfl

@[simp] theorem length_toBytes (n x : Nat) : (toBytes n x).length = n := by
  induction n generalizing x with
  | zero => rfl
  | succ n ih => simp [toBytes, ih]

theorem ofBytes_toBytes (n x : Nat) : ofBytes (toBytes n x) = x % 256 ^ n := by
  induction n generalizing x with
  | zero => simp [toBytes, Nat.mod_one]
  | succ n ih =>
      have byte : (BitVec.ofNat 8 x).toNat = x % 256 := BitVec.toNat_ofNat x 8
      rw [toBytes, ofBytes_cons, ih, byte, Nat.pow_succ', Nat.mod_mul]

/-- Reading back an image that is wide enough gives the number. -/
theorem ofBytes_toBytes_of_lt {n x : Nat} (fits : x < 256 ^ n) : ofBytes (toBytes n x) = x := by
  rw [ofBytes_toBytes, Nat.mod_eq_of_lt fits]

theorem ofBytes_lt (bytes : List Byte) : ofBytes bytes < 256 ^ bytes.length := by
  induction bytes with
  | nil => exact Nat.one_pos
  | cons b bytes ih =>
      have byte := b.isLt
      rw [ofBytes_cons, List.length_cons, Nat.pow_succ']
      omega

/-- An image of the right width is the image of the number it stands for. -/
theorem toBytes_ofBytes (bytes : List Byte) : toBytes bytes.length (ofBytes bytes) = bytes := by
  induction bytes with
  | nil => rfl
  | cons b bytes ih =>
      have byte := b.isLt
      have low : BitVec.ofNat 8 (b.toNat + 256 * ofBytes bytes) = b := by
        apply BitVec.eq_of_toNat_eq
        rw [BitVec.toNat_ofNat]
        omega
      have high : (b.toNat + 256 * ofBytes bytes) / 256 = ofBytes bytes := by omega
      rw [List.length_cons, ofBytes_cons, toBytes, low, high, ih]

end LittleEndian
