import Mathlib.Data.Nat.Digits.Lemmas

/-!
# Numbers in a line of text

`fgets` reads a line into a buffer and `strtol` the number at its beginning, as C's
library has them. `numeral` is a number as `printf` prints it, with leading zeros up
to a width.

A buffer for `k` characters may be too short for the digits.
`strtol_line_numeral` says what is read then: the number without its last digits.
-/

namespace Numeral

/-! ## Reading -/

/-- What a character counts as a digit. -/
def digitValue (c : Char) : Option Nat :=
  if '0' ≤ c ∧ c ≤ '9' then some (c.toNat - '0'.toNat)
  else if 'a' ≤ c ∧ c ≤ 'z' then some (c.toNat - 'a'.toNat + 10)
  else if 'A' ≤ c ∧ c ≤ 'Z' then some (c.toNat - 'A'.toNat + 10)
  else none

def isSpace (c : Char) : Bool :=
  c = ' ' || c = '\t' || c = '\n' || c.toNat = 11 || c.toNat = 12 || c = '\r'

/-- The number that the digits at the beginning continue. -/
def scan (b : Nat) : Nat → List Char → Nat
  | acc, [] => acc
  | acc, c :: text =>
    match digitValue c with
    | some d => if d < b then scan b (b * acc + d) text else acc
    | none => acc

def sign : List Char → Bool × List Char
  | '-' :: text => (true, text)
  | '+' :: text => (false, text)
  | text => (false, text)

/-- Base 16 allows a prefix. -/
def skipPrefix : List Char → List Char
  | '0' :: 'x' :: text => text
  | '0' :: 'X' :: text => text
  | text => text

/-- `strtol`, with a `long` of 64 bits. -/
def strtol (b : Nat) (text : List Char) : Int :=
  let (negative, text) := sign (text.dropWhile isSpace)
  let n : Int := scan b 0 (if b = 16 then skipPrefix text else text)
  if negative then max (-n) (-2 ^ 63) else min n (2 ^ 63 - 1)

/-- At most `k` characters, up to the end of the line. -/
def line : Nat → List Char → List Char
  | 0, _ => []
  | _ + 1, [] => []
  | k + 1, c :: text => if c = '\n' then [c] else c :: line k text

/-- `fgets` with a buffer of `size` bytes, which fails at the end of the file. -/
def fgets (size : Nat) (stream : List Char) : Option (List Char) :=
  match stream with
  | [] => none
  | _ => some (line (size - 1) stream)

/-! ## Printing -/

/-- The digits of `n` in base `b`, at least `w` of them, the lowest first. -/
def padded (b w n : Nat) : List Nat :=
  b.digits n ++ List.replicate (w - (b.digits n).length) 0

def numeral (b w n : Nat) : List Char := (padded b w n).reverse.map Nat.digitChar

theorem digitValue_digitChar : ∀ d < 16, digitValue (Nat.digitChar d) = some d := by decide

/-- A printed digit begins neither a number's sign nor its prefix, and ends no line. -/
theorem digitChar_plain : ∀ d < 16, isSpace (Nat.digitChar d) = false ∧
    Nat.digitChar d ≠ '-' ∧ Nat.digitChar d ≠ '+' ∧ Nat.digitChar d ≠ 'x' ∧
    Nat.digitChar d ≠ 'X' ∧ Nat.digitChar d ≠ '\n' := by
  decide

variable {b w n : Nat}

theorem padded_lt (base : 2 ≤ b) {d : Nat} (member : d ∈ padded b w n) : d < b := by
  rcases List.mem_append.mp member with digit | zero
  · exact Nat.digits_lt_base base digit
  · rw [List.eq_of_mem_replicate zero]
    omega

theorem length_padded : (padded b w n).length = max w (b.digits n).length := by
  rw [padded, List.length_append, List.length_replicate]
  omega

theorem length_numeral : (numeral b w n).length = max w (b.digits n).length := by
  rw [numeral, List.length_map, List.length_reverse, length_padded]

/-- Leaving out the lowest digits divides. -/
theorem ofDigits_drop_padded (base : 2 ≤ b) (i : Nat) :
    Nat.ofDigits b ((padded b w n).drop i) = n / b ^ i := by
  rw [padded, List.drop_append, List.drop_replicate, Nat.ofDigits_append_replicate_zero]
  exact (Nat.self_div_pow_eq_ofDigits_drop i n base).symm

/-- The number does not fit into `k` digits. -/
theorem lt_length_digits_iff (base : 2 ≤ b) (k : Nat) :
    k < (b.digits n).length ↔ b ^ k ≤ n := by
  rw [← not_le, Nat.digits_length_le_iff (by omega), not_lt]

/-! ## Reading what was printed -/

/-- Digits are read up to the end of the line. -/
theorem scan_digits (hex : b ≤ 16) {stop : List Char} (ended : stop = [] ∨ stop = ['\n'])
    (acc : Nat) (ds : List Nat) (digits : ∀ d ∈ ds, d < b) :
    scan b acc (ds.map Nat.digitChar ++ stop) =
      b ^ ds.length * acc + Nat.ofDigits b ds.reverse := by
  induction ds generalizing acc with
  | nil =>
      have none : scan b acc stop = acc := by
        rcases ended with rfl | rfl <;> rfl
      simpa using none
  | cons d ds ih =>
      have small : d < b := digits d List.mem_cons_self
      have rest : ∀ e ∈ ds, e < b := fun e member => digits e (List.mem_cons_of_mem d member)
      rw [List.map_cons, List.cons_append, scan, digitValue_digitChar d (by omega)]
      simp only [small, if_true]
      rw [ih _ rest, List.reverse_cons, Nat.ofDigits_append, Nat.ofDigits_singleton,
        List.length_cons, List.length_reverse]
      ring

theorem sign_of_digit {c : Char} (minus : c ≠ '-') (plus : c ≠ '+') (text : List Char) :
    sign (c :: text) = (false, c :: text) := by
  unfold sign
  split
  · rename_i same
    exact (minus (List.cons.inj same).1).elim
  · rename_i same
    exact (plus (List.cons.inj same).1).elim
  · rfl

theorem skipPrefix_of_second {c e : Char} (lower : e ≠ 'x') (upper : e ≠ 'X') (text : List Char) :
    skipPrefix (c :: e :: text) = c :: e :: text := by
  unfold skipPrefix
  split
  · rename_i same
    exact (lower (List.cons.inj (List.cons.inj same).2).1).elim
  · rename_i same
    exact (upper (List.cons.inj (List.cons.inj same).2).1).elim
  · rfl

theorem skipPrefix_singleton (c : Char) : skipPrefix [c] = [c] := by
  unfold skipPrefix
  split
  · rename_i same
    cases (List.cons.inj same).2
  · rename_i same
    cases (List.cons.inj same).2
  · rfl

/-- Among digits there is no prefix. -/
theorem skipPrefix_digits (hex : b ≤ 16) {stop : List Char} (ended : stop = [] ∨ stop = ['\n'])
    (d : Nat) (ds : List Nat) (digits : ∀ e ∈ ds, e < b) :
    skipPrefix ((d :: ds).map Nat.digitChar ++ stop) = (d :: ds).map Nat.digitChar ++ stop := by
  cases ds with
  | nil =>
      rcases ended with rfl | rfl
      · exact skipPrefix_singleton _
      · exact skipPrefix_of_second (by decide) (by decide) []
  | cons e ds =>
      have plain := digitChar_plain e ((digits e List.mem_cons_self).trans_le hex)
      exact skipPrefix_of_second plain.2.2.2.1 plain.2.2.2.2.1 _

theorem strtol_blank (b : Nat) {text : List Char} (blank : text.dropWhile isSpace = []) :
    strtol b text = 0 := by
  rw [strtol, blank]
  simp [sign, skipPrefix, scan]

/-- `strtol` reads digits to their end. -/
theorem strtol_digits (hex : b ≤ 16) {stop : List Char} (ended : stop = [] ∨ stop = ['\n'])
    (ds : List Nat) (digits : ∀ d ∈ ds, d < b) (fits : Nat.ofDigits b ds.reverse < 2 ^ 63) :
    strtol b (ds.map Nat.digitChar ++ stop) = Nat.ofDigits b ds.reverse := by
  cases ds with
  | nil =>
      have blank : ([].map Nat.digitChar ++ stop).dropWhile isSpace = [] := by
        rcases ended with rfl | rfl <;> rfl
      exact strtol_blank b blank
  | cons d ds =>
      have plain := digitChar_plain d ((digits d List.mem_cons_self).trans_le hex)
      have rest : ∀ e ∈ ds, e < b := fun e member => digits e (List.mem_cons_of_mem d member)
      have start : ((d :: ds).map Nat.digitChar ++ stop).dropWhile isSpace =
          (d :: ds).map Nat.digitChar ++ stop := by
        rw [List.map_cons, List.cons_append, List.dropWhile_cons_of_neg (by simp [plain.1])]
      have unsigned : sign ((d :: ds).map Nat.digitChar ++ stop) =
          (false, (d :: ds).map Nat.digitChar ++ stop) :=
        sign_of_digit plain.2.1 plain.2.2.1 _
      have read := scan_digits hex ended 0 (d :: ds) digits
      unfold strtol
      rw [start, unsigned]
      simp only [skipPrefix_digits hex ended d ds rest, ite_self, read, Nat.mul_zero,
        Nat.zero_add, Bool.false_eq_true, if_false]
      omega

theorem line_digits (hex : b ≤ 16) (k : Nat) (ds : List Nat) (digits : ∀ d ∈ ds, d < b) :
    ∃ stop, (stop = [] ∨ stop = ['\n']) ∧
      line k (ds.map Nat.digitChar ++ ['\n']) = (ds.take k).map Nat.digitChar ++ stop := by
  induction ds generalizing k with
  | nil =>
      cases k with
      | zero => exact ⟨[], Or.inl rfl, rfl⟩
      | succ k => exact ⟨['\n'], Or.inr rfl, rfl⟩
  | cons d ds ih =>
      cases k with
      | zero => exact ⟨[], Or.inl rfl, rfl⟩
      | succ k =>
          rcases ih k fun e member => digits e (List.mem_cons_of_mem d member) with
            ⟨stop, ended, same⟩
          have plain := digitChar_plain d ((digits d List.mem_cons_self).trans_le hex)
          refine ⟨stop, ended, ?_⟩
          rw [List.map_cons, List.cons_append, line, if_neg plain.2.2.2.2.2, same]
          rfl

/-- What is left of a number when all but `k` of its digits are left out. -/
theorem div_length_lt (base : 2 ≤ b) (k : Nat) : n / b ^ ((numeral b w n).length - k) < b ^ k := by
  have whole : n < b ^ (b.digits n).length := Nat.lt_base_pow_length_digits base
  have longer : (b.digits n).length ≤ (numeral b w n).length - k + k := by
    rw [length_numeral]
    omega
  apply Nat.div_lt_of_lt_mul
  rw [← pow_add]
  exact whole.trans_le (Nat.pow_le_pow_right (by omega) longer)

/-- **Reading a printed number** through a buffer for `k` characters gives the number
without the digits that did not fit. -/
theorem strtol_line_numeral (base : 2 ≤ b) (hex : b ≤ 16) {k : Nat} (fits : b ^ k ≤ 2 ^ 63) :
    strtol b (line k (numeral b w n ++ ['\n'])) =
      (n / b ^ ((numeral b w n).length - k) : Nat) := by
  have digits : ∀ d ∈ (padded b w n).reverse, d < b := fun d member =>
    padded_lt base (List.mem_reverse.mp member)
  rcases line_digits hex k _ digits with ⟨stop, ended, same⟩
  have cut : ((padded b w n).reverse.take k).reverse =
      (padded b w n).drop ((numeral b w n).length - k) := by
    rw [length_numeral, ← length_padded, List.reverse_take, List.reverse_reverse]
    simp
  have value := ofDigits_drop_padded (w := w) (n := n) base ((numeral b w n).length - k)
  rw [numeral, same,
    strtol_digits hex ended _ fun d member => digits d (List.mem_of_mem_take member),
    cut, ← numeral, value]
  rw [cut, value]
  exact (div_length_lt base k).trans_le fits

end Numeral
