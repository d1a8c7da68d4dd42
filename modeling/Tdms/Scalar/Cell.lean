import Tdms.Scalar.Value

/-!
Cells: the bytes of one sample of a type of fixed width.

A cell of the big order is first turned into the cell of the little order that
holds the same sample. Turning reverses the bytes of each number in the cell:
both halves of a complex number on their own, and all sixteen bytes of a
timestamp at once, which also puts its fraction before its seconds.
-/

namespace Tdms.ScalarType

/-- Bytes of each number that a cell of the type reverses as a whole. -/
def turnedWidth : ScalarType → Nat
  | complex64 => 4
  | complex128 => 8
  | type => type.width

/-- The cell of the little order that holds the sample of `cell`. -/
def toLittleCell (type : ScalarType) (order : ByteOrder) (cell : List UInt8) : List UInt8 :=
  match order with
  | .little => cell
  | .big => (cell.take type.turnedWidth).reverse ++ (cell.drop type.turnedWidth).reverse

/-- The sample that a cell of the little order holds. -/
def ofLittleCell : (type : ScalarType) → List UInt8 → type.Value
  | int8, cell => (UInt8.ofNat (littleValue cell)).toInt8
  | int16, cell => (UInt16.ofNat (littleValue cell)).toInt16
  | int32, cell => (UInt32.ofNat (littleValue cell)).toInt32
  | int64, cell => (UInt64.ofNat (littleValue cell)).toInt64
  | uint8, cell => UInt8.ofNat (littleValue cell)
  | uint16, cell => UInt16.ofNat (littleValue cell)
  | uint32, cell => UInt32.ofNat (littleValue cell)
  | uint64, cell => UInt64.ofNat (littleValue cell)
  | float32, cell => ⟨UInt32.ofNat (littleValue cell)⟩
  | float64, cell => ⟨UInt64.ofNat (littleValue cell)⟩
  | string, _ => ""
  | boolean, cell => littleValue cell != 0
  | timestamp, cell => .ofLittleBytes cell
  | complex64, cell =>
    ⟨⟨UInt32.ofNat (littleValue (cell.take 4))⟩, ⟨UInt32.ofNat (littleValue (cell.drop 4))⟩⟩
  | complex128, cell =>
    ⟨⟨UInt64.ofNat (littleValue (cell.take 8))⟩, ⟨UInt64.ofNat (littleValue (cell.drop 8))⟩⟩

/-- The sample that a cell holds. -/
def ofCell (type : ScalarType) (order : ByteOrder) (cell : List UInt8) : type.Value :=
  type.ofLittleCell (type.toLittleCell order cell)

end Tdms.ScalarType
