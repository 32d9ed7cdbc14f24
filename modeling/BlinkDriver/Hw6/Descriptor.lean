import Mathlib.Tactic.IntervalCases
import BlinkDriver.Lib.CLayout

/-!
# Receive descriptors

The device writes a completed descriptor back as 16 bytes (`WriteBack.encode`),
and `thread_function` prints the status and the length it finds there through
the fields of `struct e1000_rx_descriptor`. The repository holds two copies of
the driver, `HW6/hw6.c` and the top-level `hw6.c`, whose structures name and
order those fields differently; both are laid out by the rules of
`BlinkDriver.Lib.CLayout`.

The top-level copy decodes every write-back (`TopHw6.report_encode`). The copy
under `HW6` takes the status from the high byte of the packet checksum and the
length from the special field (`Hw6.report_encode`).
-/

namespace BlinkDriver

open LittleEndian CLayout

/-- The names of the fields of both copies of `struct e1000_rx_descriptor`. -/
inductive FieldName where
  | bufferAddr | lower | upper | data | flags | fields
  | vlanTag | errors | status | packetCheckSum | length | cso | cmd | css | special
  deriving DecidableEq

/-- The 16 bytes of one descriptor, as they lie in memory. -/
structure Descriptor where
  bytes : List Byte
  size : bytes.length = 16

/-- Byte `i` of a descriptor. -/
def Descriptor.byte (d : Descriptor) (i : Fin 16) : Byte := d.bytes.get (i.cast d.size.symm)

/-- A descriptor nothing was written to. -/
def Descriptor.blank : Descriptor := ⟨List.replicate 16 0, rfl⟩

/-- What `thread_function` prints about a descriptor. -/
structure Report where
  status : BitVec 8
  length : BitVec 16
  deriving DecidableEq

/-- Print the two fields at the given paths; `%02hhX` and `%04hX` print the
whole `u8` and `__le16`. -/
def reportThrough (layout : CType FieldName) (status length : List FieldName) (d : Descriptor) :
    Report where
  status := BitVec.ofNat 8 ((layout.read status d.bytes).getD 0)
  length := BitVec.ofNat 16 ((layout.read length d.bytes).getD 0)

namespace Hw6

/-- `struct e1000_rx_descriptor` of `HW6/hw6.c`. -/
def e1000RxDescriptor : CType FieldName :=
  .struct
    (.cons .bufferAddr (.scalar 8)
    (.cons .lower (.union
      (.cons .data (.scalar 4)
      (.cons .flags (.struct
        (.cons .vlanTag (.scalar 2) (.cons .errors (.scalar 1) (.cons .status (.scalar 1) .nil))))
      .nil)))
    (.cons .upper (.union
      (.cons .data (.scalar 4)
      (.cons .fields (.struct
        (.cons .packetCheckSum (.scalar 2) (.cons .length (.scalar 2) .nil)))
      .nil)))
    .nil)))

/-- `desc->lower.flags.status` and `desc->upper.fields.length`. -/
def report : Descriptor → Report :=
  reportThrough e1000RxDescriptor [.lower, .flags, .status] [.upper, .fields, .length]

end Hw6

namespace TopHw6

/-- `struct e1000_rx_descriptor` of the top-level `hw6.c`. -/
def e1000RxDescriptor : CType FieldName :=
  .struct
    (.cons .bufferAddr (.scalar 8)
    (.cons .lower (.union
      (.cons .data (.scalar 4)
      (.cons .flags (.struct
        (.cons .length (.scalar 2) (.cons .cso (.scalar 1) (.cons .cmd (.scalar 1) .nil))))
      .nil)))
    (.cons .upper (.union
      (.cons .data (.scalar 4)
      (.cons .fields (.struct
        (.cons .status (.scalar 1) (.cons .css (.scalar 1) (.cons .special (.scalar 2) .nil))))
      .nil)))
    .nil)))

/-- `desc->upper.fields.status` and `desc->lower.flags.length`. -/
def report : Descriptor → Report :=
  reportThrough e1000RxDescriptor [.upper, .fields, .status] [.lower, .flags, .length]

end TopHw6

/-- What the device writes back into a legacy receive descriptor. -/
structure WriteBack where
  bufferAddr : BitVec 64
  length : BitVec 16
  checksum : BitVec 16
  status : BitVec 8
  errors : BitVec 8
  special : BitVec 16
  deriving DecidableEq

/-- The device's byte order: address 0-7, length 8-9, checksum 10-11, status
12, errors 13, special 14-15. -/
def WriteBack.encode (w : WriteBack) : Descriptor where
  bytes := toBytes 8 w.bufferAddr.toNat ++ toBytes 2 w.length.toNat ++
    toBytes 2 w.checksum.toNat ++ [w.status, w.errors] ++ toBytes 2 w.special.toNat
  size := by simp

/-- The status and the length the device wrote. -/
def WriteBack.report (w : WriteBack) : Report := ⟨w.status, w.length⟩

/-! ## Where the fields lie -/

/-- The structures of both copies cover a descriptor exactly, so a ring of 16
of them has the 16-byte stride the device expects. -/
theorem e1000RxDescriptor_size :
    Hw6.e1000RxDescriptor.size = 16 ∧ TopHw6.e1000RxDescriptor.size = 16 := ⟨rfl, rfl⟩

/-- A descriptor written out byte by byte. -/
theorem Descriptor.bytes_eq (d : Descriptor) :
    d.bytes = [d.byte 0, d.byte 1, d.byte 2, d.byte 3, d.byte 4, d.byte 5, d.byte 6, d.byte 7,
      d.byte 8, d.byte 9, d.byte 10, d.byte 11, d.byte 12, d.byte 13, d.byte 14, d.byte 15] := by
  refine List.ext_getElem (by simp [d.size]) fun i bound _ => ?_
  rw [d.size] at bound
  interval_cases i <;> rfl

theorem Hw6.report_eq (d : Descriptor) :
    Hw6.report d = ⟨d.byte 11, BitVec.ofNat 16 ((d.byte 14).toNat + 256 * (d.byte 15).toNat)⟩ := by
  have status : e1000RxDescriptor.find [.lower, .flags, .status] = some (11, .scalar 1) := rfl
  have length : e1000RxDescriptor.find [.upper, .fields, .length] = some (14, .scalar 2) := rfl
  simp [report, reportThrough, CType.read, status, length, CType.size, d.bytes_eq]

theorem TopHw6.report_eq (d : Descriptor) :
    TopHw6.report d = ⟨d.byte 12, BitVec.ofNat 16 ((d.byte 8).toNat + 256 * (d.byte 9).toNat)⟩ := by
  have status : e1000RxDescriptor.find [.upper, .fields, .status] = some (12, .scalar 1) := rfl
  have length : e1000RxDescriptor.find [.lower, .flags, .length] = some (8, .scalar 2) := rfl
  simp [report, reportThrough, CType.read, status, length, CType.size, d.bytes_eq]

/-! ## Decoding a write-back -/

private theorem ofNat_two_bytes (x : BitVec 16) :
    BitVec.ofNat 16 ((BitVec.ofNat 8 x.toNat).toNat +
      256 * (BitVec.ofNat 8 (x.toNat / 256)).toNat) = x := by
  have image := ofBytes_toBytes_of_lt (n := 2) x.isLt
  simp only [toBytes, ofBytes_cons, ofBytes_nil, Nat.mul_zero, Nat.add_zero] at image
  rw [image, BitVec.ofNat_toNat, BitVec.setWidth_eq]

theorem Hw6.report_encode (w : WriteBack) :
    Hw6.report w.encode = ⟨BitVec.ofNat 8 (w.checksum.toNat / 256), w.special⟩ := by
  rw [Hw6.report_eq]
  exact congrArg (Report.mk _) (ofNat_two_bytes w.special)

theorem TopHw6.report_encode (w : WriteBack) : TopHw6.report w.encode = w.report := by
  rw [TopHw6.report_eq]
  exact congrArg (Report.mk _) (ofNat_two_bytes w.length)

/-- The two copies agree on a descriptor exactly when the bytes they look at do. -/
theorem Hw6.report_eq_topHw6_iff (d : Descriptor) :
    Hw6.report d = TopHw6.report d ↔
      d.byte 11 = d.byte 12 ∧ d.byte 14 = d.byte 8 ∧ d.byte 15 = d.byte 9 := by
  rw [Hw6.report_eq, TopHw6.report_eq, Report.mk.injEq]
  refine and_congr Iff.rfl ?_
  have low := (d.byte 14).isLt
  have high := (d.byte 15).isLt
  have low' := (d.byte 8).isLt
  have high' := (d.byte 9).isLt
  constructor
  · intro same
    have sum := congrArg BitVec.toNat same
    simp only [BitVec.toNat_ofNat] at sum
    exact ⟨BitVec.eq_of_toNat_eq (by omega), BitVec.eq_of_toNat_eq (by omega)⟩
  · intro bytes
    rcases bytes with ⟨lowSame, highSame⟩
    rw [lowSame, highSame]

/-- **Decoding a write-back.** Both copies report the status and the length the
device wrote exactly when the checksum's high byte happens to be the status and
the special field happens to be the length; on an arbitrary descriptor the two
copies agree exactly when its bytes 11 and 12, 14 and 8, and 15 and 9 agree. -/
theorem report_encode_iff (w : WriteBack) (d : Descriptor) :
    ((Hw6.report w.encode = w.report ∧ TopHw6.report w.encode = w.report) ↔
      w.checksum.toNat / 256 = w.status.toNat ∧ w.special = w.length) ∧
    (Hw6.report d = TopHw6.report d ↔
      d.byte 11 = d.byte 12 ∧ d.byte 14 = d.byte 8 ∧ d.byte 15 = d.byte 9) := by
  refine ⟨?_, Hw6.report_eq_topHw6_iff d⟩
  have high : w.checksum.toNat / 256 < 256 := by
    have := w.checksum.isLt
    omega
  have byteEq : BitVec.ofNat 8 (w.checksum.toNat / 256) = w.status ↔
      w.checksum.toNat / 256 = w.status.toNat := by
    rw [← BitVec.toNat_inj, BitVec.toNat_ofNat, Nat.mod_eq_of_lt high]
  rw [Hw6.report_encode, TopHw6.report_encode, WriteBack.report, Report.mk.injEq, byteEq]
  exact and_iff_left rfl

/-- A 64-byte packet with status `DD | EOP` and checksum offload off: the `HW6`
copy prints status 0 and length 0, the other copy what the device wrote. -/
theorem report_encode_short_packet :
    Hw6.report (WriteBack.encode ⟨0x1000, 64, 0, 3, 0, 0⟩) = ⟨0, 0⟩ ∧
      WriteBack.report ⟨0x1000, 64, 0, 3, 0, 0⟩ = ⟨3, 64⟩ ∧
      TopHw6.report (WriteBack.encode ⟨0x1000, 64, 0, 3, 0, 0⟩) = ⟨3, 64⟩ := by
  decide

end BlinkDriver
