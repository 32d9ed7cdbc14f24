import BlinkDriver.Lib.LittleEndian

/-!
# Layout of C structures and unions

Types are built from scalars, structures and unions with named fields. A field
of a structure starts at the end of the previous one rounded up to its own
alignment; the fields of a union all start at the beginning; a type is padded to
its alignment. A scalar is aligned to its size, as on the 64-bit ABI for every
scalar of at most eight bytes.

`CType.find` resolves a path of field names to a byte offset and a type, and
`CType.read` reads that field from little-endian memory.
-/

namespace CLayout

open LittleEndian

mutual

/-- A C type; `ν` names the fields. -/
inductive CType (ν : Type) where
  | scalar (size : Nat)
  | struct (fields : Fields ν)
  | union (fields : Fields ν)

/-- The fields of a structure or a union, in declaration order. -/
inductive Fields (ν : Type) where
  | nil
  | cons (name : ν) (type : CType ν) (rest : Fields ν)

end

variable {ν : Type}

/-- The least multiple of `align` that is at least `pos`. -/
def roundUp (pos align : Nat) : Nat := (pos + align - 1) / align * align

mutual

def CType.align : CType ν → Nat
  | .scalar size => size
  | .struct fields => fields.align
  | .union fields => fields.align

def Fields.align : Fields ν → Nat
  | .nil => 1
  | .cons _ type rest => max type.align rest.align

end

mutual

def CType.size : CType ν → Nat
  | .scalar size => size
  | .struct fields => roundUp (fields.extent 0) fields.align
  | .union fields => roundUp fields.widest fields.align

/-- The end of the last field when the first one is placed from `pos` on. -/
def Fields.extent : Fields ν → Nat → Nat
  | .nil, pos => pos
  | .cons _ type rest, pos => rest.extent (roundUp pos type.align + type.size)

/-- The size of the largest field. -/
def Fields.widest : Fields ν → Nat
  | .nil => 0
  | .cons _ type rest => max type.size rest.widest

end

variable [DecidableEq ν]

mutual

/-- The byte offset and the type of the field a path leads to. -/
def CType.find : CType ν → List ν → Option (Nat × CType ν)
  | type, [] => some (0, type)
  | .scalar _, _ :: _ => none
  | .struct fields, name :: path => fields.findStruct 0 name path
  | .union fields, name :: path => fields.findUnion name path

def Fields.findStruct : Fields ν → Nat → ν → List ν → Option (Nat × CType ν)
  | .nil, _, _, _ => none
  | .cons field type rest, pos, name, path =>
      if field = name then
        (type.find path).map fun found => (roundUp pos type.align + found.1, found.2)
      else
        rest.findStruct (roundUp pos type.align + type.size) name path

def Fields.findUnion : Fields ν → ν → List ν → Option (Nat × CType ν)
  | .nil, _, _ => none
  | .cons field type rest, name, path =>
      if field = name then type.find path else rest.findUnion name path

end

/-- The number stored in the field a path leads to, in little-endian memory
that holds the object. -/
def CType.read (type : CType ν) (path : List ν) (memory : List Byte) : Option Nat :=
  (type.find path).map fun found => ofBytes ((memory.drop found.1).take found.2.size)

end CLayout
