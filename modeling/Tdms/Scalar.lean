/-!
The scalar types a channel or a property can carry, with the codes that stand
for them in a file, their widths and their names.

Two codes stand for each plain float: the second is the float with a unit.
Every other type has one code, and `ScalarType.ofCode?_code` says that the
canonical code of a type names that type.
-/

namespace Tdms

/-- Type of one sample or of one property value. -/
inductive ScalarType where
  | int8
  | int16
  | int32
  | int64
  | uint8
  | uint16
  | uint32
  | uint64
  | float32
  | float64
  /-- Text of any length, in UTF-8. -/
  | string
  /-- One byte, true unless it is zero. -/
  | boolean
  /-- Seconds since 1904 and a binary fraction of a second, 128 bits in all. -/
  | timestamp
  /-- Two single floats, real part first. -/
  | complex64
  /-- Two double floats, real part first. -/
  | complex128
  deriving DecidableEq, Repr, Inhabited

namespace ScalarType

/-- The type that `code` stands for, if it is one of this library's. -/
def ofCode? (code : UInt32) : Option ScalarType :=
  if code = 0x01 then some int8
  else if code = 0x02 then some int16
  else if code = 0x03 then some int32
  else if code = 0x04 then some int64
  else if code = 0x05 then some uint8
  else if code = 0x06 then some uint16
  else if code = 0x07 then some uint32
  else if code = 0x08 then some uint64
  else if code = 0x09 ∨ code = 0x19 then some float32
  else if code = 0x0A ∨ code = 0x1A then some float64
  else if code = 0x20 then some string
  else if code = 0x21 then some boolean
  else if code = 0x44 then some timestamp
  else if code = 0x08000C then some complex64
  else if code = 0x10000D then some complex128
  else none

/-- The code a writer uses for the type. -/
def code : ScalarType → UInt32
  | int8 => 0x01
  | int16 => 0x02
  | int32 => 0x03
  | int64 => 0x04
  | uint8 => 0x05
  | uint16 => 0x06
  | uint32 => 0x07
  | uint64 => 0x08
  | float32 => 0x09
  | float64 => 0x0A
  | string => 0x20
  | boolean => 0x21
  | timestamp => 0x44
  | complex64 => 0x08000C
  | complex128 => 0x10000D

/-- A type is read back from its own code. -/
theorem ofCode?_code (type : ScalarType) : ofCode? type.code = some type := by
  cases type <;> decide

/-- Bytes of one value, or `none` for strings, whose width varies. -/
def width? : ScalarType → Option Nat
  | int8 | uint8 | boolean => some 1
  | int16 | uint16 => some 2
  | int32 | uint32 | float32 => some 4
  | int64 | uint64 | float64 | complex64 => some 8
  | timestamp | complex128 => some 16
  | string => none

/-- Bytes of one value, and zero for strings. -/
def width (type : ScalarType) : Nat :=
  type.width?.getD 0

/-- Only strings have no width of their own. -/
theorem width?_eq_none_iff {type : ScalarType} : type.width? = none ↔ type = string := by
  cases type <;> simp [width?]

/-- A type with a width has a positive one. -/
theorem width_pos {type : ScalarType} (fixed : type ≠ string) : 0 < type.width := by
  cases type <;> simp_all [width, width?]

/-- The name that listings and messages use. -/
def name : ScalarType → String
  | int8 => "i8"
  | int16 => "i16"
  | int32 => "i32"
  | int64 => "i64"
  | uint8 => "u8"
  | uint16 => "u16"
  | uint32 => "u32"
  | uint64 => "u64"
  | float32 => "f32"
  | float64 => "f64"
  | string => "string"
  | boolean => "bool"
  | timestamp => "timestamp"
  | complex64 => "complex64"
  | complex128 => "complex128"

end ScalarType

end Tdms
