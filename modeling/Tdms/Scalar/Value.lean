import Tdms.Scalar
import Tdms.Timestamp

/-!
The values of each scalar type.

`ScalarType.Value` gives every type its own values, so that a property is a
type with one value of it and a column of samples a type with a list of them.
Floats are kept as their IEEE 754 bits: nothing here rounds, and two floats
are equal exactly when their bits are.
-/

namespace Tdms

/-- An IEEE 754 single float, as its bits. -/
structure Binary32 where
  bits : UInt32
  deriving DecidableEq, Repr, Inhabited

/-- An IEEE 754 double float, as its bits. -/
structure Binary64 where
  bits : UInt64
  deriving DecidableEq, Repr, Inhabited

/-- A complex number over one kind of float. -/
structure Complex (α : Type) where
  re : α
  im : α
  deriving DecidableEq, Repr, Inhabited

/-- The values of a scalar type. -/
abbrev ScalarType.Value : ScalarType → Type
  | .int8 => Int8
  | .int16 => Int16
  | .int32 => Int32
  | .int64 => Int64
  | .uint8 => UInt8
  | .uint16 => UInt16
  | .uint32 => UInt32
  | .uint64 => UInt64
  | .float32 => Binary32
  | .float64 => Binary64
  | .string => String
  | .boolean => Bool
  | .timestamp => Timestamp
  | .complex64 => Complex Binary32
  | .complex128 => Complex Binary64

instance ScalarType.decidableEqValue (type : ScalarType) : DecidableEq type.Value := by
  cases type <;> infer_instance

/-- The value whose bytes are all zero, and the empty text. -/
def ScalarType.zero : (type : ScalarType) → type.Value
  | .int8 => 0
  | .int16 => 0
  | .int32 => 0
  | .int64 => 0
  | .uint8 => 0
  | .uint16 => 0
  | .uint32 => 0
  | .uint64 => 0
  | .float32 => ⟨0⟩
  | .float64 => ⟨0⟩
  | .string => ""
  | .boolean => false
  | .timestamp => ⟨0, 0⟩
  | .complex64 => ⟨⟨0⟩, ⟨0⟩⟩
  | .complex128 => ⟨⟨0⟩, ⟨0⟩⟩

/-- The value as a number, if its type is one of the integer types. -/
def ScalarType.integer? : (type : ScalarType) → type.Value → Option Int
  | .int8, value => some value.toInt
  | .int16, value => some value.toInt
  | .int32, value => some value.toInt
  | .int64, value => some value.toInt
  | .uint8, value => some value.toNat
  | .uint16, value => some value.toNat
  | .uint32, value => some value.toNat
  | .uint64, value => some value.toNat
  | .float32, _ | .float64, _ | .string, _ | .boolean, _ | .timestamp, _
  | .complex64, _ | .complex128, _ => none

end Tdms
