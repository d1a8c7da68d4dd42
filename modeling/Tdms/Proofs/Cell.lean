import Mathlib
import Tdms.Bytes.Spelling
import Tdms.Scalar.Cell

/-!
Cells of samples, written and read back.

`toCell` spells the sample that `ofCell` reads, in either order, and
`toCell_ofCell` spells a cell again as it was. The two orders differ in how the
bytes of each number lie, and for a timestamp also in which of its numbers comes
first.
-/

namespace Tdms

/-- The cell that holds a sample of a type of fixed width. -/
def ScalarType.toCell : (type : ScalarType) → ByteOrder → type.Value → List UInt8
  | .int8, order, value => order.bytes 1 value.toUInt8.toNat
  | .int16, order, value => order.bytes 2 value.toUInt16.toNat
  | .int32, order, value => order.bytes 4 value.toUInt32.toNat
  | .int64, order, value => order.bytes 8 value.toUInt64.toNat
  | .uint8, order, value => order.bytes 1 value.toNat
  | .uint16, order, value => order.bytes 2 value.toNat
  | .uint32, order, value => order.bytes 4 value.toNat
  | .uint64, order, value => order.bytes 8 value.toNat
  | .float32, order, value => order.bytes 4 value.bits.toNat
  | .float64, order, value => order.bytes 8 value.bits.toNat
  | .string, _, _ => []
  | .boolean, order, value => order.bytes 1 value.toNat
  | .timestamp, .little, value => value.toLittleBytes
  | .timestamp, .big, value =>
    ByteOrder.big.bytes 8 value.seconds.toUInt64.toNat ++
      ByteOrder.big.bytes 8 value.fractions.toNat
  | .complex64, order, value =>
    order.bytes 4 value.re.bits.toNat ++ order.bytes 4 value.im.bits.toNat
  | .complex128, order, value =>
    order.bytes 8 value.re.bits.toNat ++ order.bytes 8 value.im.bits.toNat

namespace ByteOrder

theorem uint32_bytes (order : ByteOrder) (number : UInt32) :
    order.uint32 (order.bytes 4 number.toNat) = number := by
  rw [uint32, order.value_bytes number.toNat_lt, UInt32.ofNat_toNat]

theorem uint64_bytes (order : ByteOrder) (number : UInt64) :
    order.uint64 (order.bytes 8 number.toNat) = number := by
  rw [uint64, order.value_bytes number.toNat_lt, UInt64.ofNat_toNat]

/-! Bytes are read and spelled again as they were. -/

variable {bytes : List UInt8} {width : Nat}

/-- Bytes that spell a number are what the number is spelled as. -/
theorem bytes_of_value (order : ByteOrder) (whole : bytes.length = width) :
    order.value bytes < 256 ^ width ∧ order.bytes width (order.value bytes) = bytes := by
  subst whole
  exact ⟨order.value_lt bytes, order.bytes_value bytes⟩

theorem bytes_uint8 (order : ByteOrder) (whole : bytes.length = 1) :
    order.bytes 1 (UInt8.ofNat (order.value bytes)).toNat = bytes := by
  obtain ⟨small, same⟩ := order.bytes_of_value whole
  rw [UInt8.toNat_ofNat_of_lt' small, same]

theorem bytes_uint16 (order : ByteOrder) (whole : bytes.length = 2) :
    order.bytes 2 (order.uint16 bytes).toNat = bytes := by
  obtain ⟨small, same⟩ := order.bytes_of_value whole
  rw [uint16, UInt16.toNat_ofNat_of_lt' small, same]

theorem bytes_uint32 (order : ByteOrder) (whole : bytes.length = 4) :
    order.bytes 4 (order.uint32 bytes).toNat = bytes := by
  obtain ⟨small, same⟩ := order.bytes_of_value whole
  rw [uint32, UInt32.toNat_ofNat_of_lt' small, same]

theorem bytes_uint64 (order : ByteOrder) (whole : bytes.length = 8) :
    order.bytes 8 (order.uint64 bytes).toNat = bytes := by
  obtain ⟨small, same⟩ := order.bytes_of_value whole
  rw [uint64, UInt64.toNat_ofNat_of_lt' small, same]

end ByteOrder

namespace ScalarType

variable {type : ScalarType} {order : ByteOrder} {width : Nat}

theorem length_toCell (fixed : type.width? = some width) (order : ByteOrder) (value : type.Value) :
    (type.toCell order value).length = width := by
  cases type with
  | string => cases fixed
  | timestamp =>
    cases fixed
    cases order with
    | little => simp [toCell, Timestamp.toLittleBytes, ByteOrder.length_bytes]
    | big => simp [toCell, ByteOrder.length_bytes]
  | _ =>
    cases fixed
    simp [toCell, ByteOrder.length_bytes]

/-! ## One number in a cell -/

theorem toLittleCell_of_length (type : ScalarType) (cell : List UInt8)
    (whole : cell.length = type.turnedWidth) :
    type.toLittleCell .big cell = cell.reverse := by
  rw [toLittleCell, List.take_of_length_le whole.le, List.drop_of_length_le whole.le,
    List.reverse_nil, List.append_nil]

/-- A number that fills its cell is the same before and after the cell is turned. -/
theorem littleValue_toLittleCell (type : ScalarType) (order : ByteOrder) {cell : List UInt8}
    (whole : cell.length = type.turnedWidth) :
    littleValue (type.toLittleCell order cell) = order.value cell := by
  cases order with
  | little => rfl
  | big => rw [toLittleCell_of_length _ cell whole, ByteOrder.value]

theorem ofCell_bytes (type : ScalarType) (order : ByteOrder) (width number : Nat)
    (whole : type.turnedWidth = width) :
    type.ofCell order (order.bytes width number) =
      type.ofLittleCell (littleBytes width number) := by
  unfold ofCell
  cases order with
  | little => rfl
  | big =>
    rw [toLittleCell_of_length _ _ (by rw [ByteOrder.length_bytes, whole]), ByteOrder.bytes,
      List.reverse_reverse]

/-! ## Two numbers in a cell -/

theorem toLittleCell_append (cell other : List UInt8) (half : cell.length = type.turnedWidth) :
    type.toLittleCell .big (cell ++ other) = cell.reverse ++ other.reverse := by
  rw [toLittleCell, List.take_left' half, List.drop_left' half]

/-- So are two numbers that share a cell. -/
theorem littleValue_toLittleCell_halves (type : ScalarType) (order : ByteOrder) {cell : List UInt8}
    (half : cell.length = 2 * type.turnedWidth) :
    littleValue ((type.toLittleCell order cell).take type.turnedWidth) =
        order.value (cell.take type.turnedWidth) ∧
      littleValue ((type.toLittleCell order cell).drop type.turnedWidth) =
        order.value (cell.drop type.turnedWidth) := by
  cases order with
  | little => exact ⟨rfl, rfl⟩
  | big =>
    have first : (cell.take type.turnedWidth).reverse.length = type.turnedWidth := by
      rw [List.length_reverse, List.length_take]
      omega
    rw [toLittleCell, List.take_left' first, List.drop_left' first]
    exact ⟨rfl, rfl⟩

theorem ofCell_bytes_append (type : ScalarType) (order : ByteOrder) (width first second : Nat)
    (half : type.turnedWidth = width) :
    type.ofCell order (order.bytes width first ++ order.bytes width second) =
      type.ofLittleCell (littleBytes width first ++ littleBytes width second) := by
  unfold ofCell
  cases order with
  | little => rfl
  | big =>
    rw [toLittleCell_append _ _ (by rw [ByteOrder.length_bytes, half]), ByteOrder.bytes,
      ByteOrder.bytes, List.reverse_reverse, List.reverse_reverse]

theorem ofLittleBytes_append (moment : Timestamp) :
    Timestamp.ofLittleBytes (littleBytes 8 moment.fractions.toNat ++
      littleBytes 8 moment.seconds.toUInt64.toNat) = moment := by
  have fractions := ByteOrder.little.uint64_bytes moment.fractions
  have seconds := ByteOrder.little.uint64_bytes moment.seconds.toUInt64
  unfold ByteOrder.bytes at fractions seconds
  rw [Timestamp.ofLittleBytes, List.take_left' (length_littleBytes 8 _),
    List.drop_left' (length_littleBytes 8 _), fractions, seconds, Int64.toInt64_toUInt64]

/-- The big form of a moment is its little form with the bytes reversed. -/
theorem ofLittleBytes_reverse {cell : List UInt8} (whole : cell.length = 16) :
    Timestamp.ofLittleBytes cell.reverse = Timestamp.ofBigBytes cell := by
  have early : cell.reverse.take 8 = (cell.drop 8).reverse := by
    rw [List.take_reverse, whole]
  have late : cell.reverse.drop 8 = (cell.take 8).reverse := by
    rw [List.drop_reverse, whole]
  rw [Timestamp.ofLittleBytes, early, late]
  rfl

/-! ## Samples -/

/-- A sample is read back from its cell, whatever the order. -/
theorem ofCell_toCell (fixed : type.width? = some width) (order : ByteOrder) (value : type.Value) :
    type.ofCell order (type.toCell order value) = value := by
  have one : ∀ {size number : Nat}, number < 256 ^ size →
      littleValue (littleBytes size number) = number := littleValue_littleBytes
  cases type with
  | string => cases fixed
  | timestamp =>
    cases order with
    | little => exact ofLittleBytes_append value
    | big =>
      have length := length_toCell fixed .big value
      have whole : width = ScalarType.timestamp.turnedWidth := by
        cases fixed
        rfl
      rw [ofCell, toLittleCell_of_length _ _ (length.trans whole), toCell, List.reverse_append,
        ByteOrder.bytes, ByteOrder.bytes, List.reverse_reverse, List.reverse_reverse]
      exact ofLittleBytes_append value
  | complex64 =>
    rw [toCell, ofCell_bytes_append .complex64 order 4 _ _ rfl, ofLittleCell,
      List.take_left' (length_littleBytes 4 _), List.drop_left' (length_littleBytes 4 _),
      one value.re.bits.toNat_lt, one value.im.bits.toNat_lt, UInt32.ofNat_toNat,
      UInt32.ofNat_toNat]
  | complex128 =>
    rw [toCell, ofCell_bytes_append .complex128 order 8 _ _ rfl, ofLittleCell,
      List.take_left' (length_littleBytes 8 _), List.drop_left' (length_littleBytes 8 _),
      one value.re.bits.toNat_lt, one value.im.bits.toNat_lt, UInt64.ofNat_toNat,
      UInt64.ofNat_toNat]
  | int8 =>
    rw [toCell, ofCell_bytes .int8 order 1 _ rfl, ofLittleCell, one value.toUInt8.toNat_lt]
    simp
  | int16 =>
    rw [toCell, ofCell_bytes .int16 order 2 _ rfl, ofLittleCell, one value.toUInt16.toNat_lt]
    simp
  | int32 =>
    rw [toCell, ofCell_bytes .int32 order 4 _ rfl, ofLittleCell, one value.toUInt32.toNat_lt]
    simp
  | int64 =>
    rw [toCell, ofCell_bytes .int64 order 8 _ rfl, ofLittleCell, one value.toUInt64.toNat_lt]
    simp
  | boolean =>
    have small : value.toNat < 256 ^ 1 := by
      cases value with
      | false => decide
      | true => decide
    rw [toCell, ofCell_bytes .boolean order 1 _ rfl, ofLittleCell, one small]
    cases value with
    | false => rfl
    | true => rfl
  | uint8 =>
    rw [toCell, ofCell_bytes .uint8 order 1 _ rfl, ofLittleCell, one value.toNat_lt]
    simp
  | uint16 =>
    rw [toCell, ofCell_bytes .uint16 order 2 _ rfl, ofLittleCell, one value.toNat_lt]
    simp
  | uint32 =>
    rw [toCell, ofCell_bytes .uint32 order 4 _ rfl, ofLittleCell, one value.toNat_lt]
    simp
  | uint64 =>
    rw [toCell, ofCell_bytes .uint64 order 8 _ rfl, ofLittleCell, one value.toNat_lt]
    simp
  | float32 =>
    rw [toCell, ofCell_bytes .float32 order 4 _ rfl, ofLittleCell, one value.bits.toNat_lt]
    simp
  | float64 =>
    rw [toCell, ofCell_bytes .float64 order 8 _ rfl, ofLittleCell, one value.bits.toNat_lt]
    simp

/-- A cell is what its sample is spelled as, except that any byte but zero is a true boolean. -/
theorem toCell_ofCell (fixed : type.width? = some width) (notBoolean : type ≠ .boolean)
    (order : ByteOrder) {cell : List UInt8} (whole : cell.length = width) :
    type.toCell order (type.ofCell order cell) = cell := by
  have same : cell.length = type.turnedWidth →
      littleValue (type.toLittleCell order cell) = order.value cell :=
    littleValue_toLittleCell type order
  cases type with
  | string => cases fixed
  | boolean => exact absurd rfl notBoolean
  | timestamp =>
    cases fixed
    have parts := List.take_append_drop 8 cell
    have first : (cell.take 8).length = 8 := by simp [whole]
    have second : (cell.drop 8).length = 8 := by simp [whole]
    cases order with
    | little =>
      change ByteOrder.little.bytes 8 (ByteOrder.little.uint64 (cell.take 8)).toNat ++
        ByteOrder.little.bytes 8
          (ByteOrder.little.uint64 (cell.drop 8)).toInt64.toUInt64.toNat = cell
      rw [UInt64.toUInt64_toInt64, ByteOrder.bytes_uint64 _ first,
        ByteOrder.bytes_uint64 _ second, parts]
    | big =>
      rw [ofCell, toLittleCell_of_length .timestamp cell whole, ofLittleCell,
        ofLittleBytes_reverse whole]
      change ByteOrder.big.bytes 8 (ByteOrder.big.uint64 (cell.take 8)).toInt64.toUInt64.toNat ++
        ByteOrder.big.bytes 8 (ByteOrder.big.uint64 (cell.drop 8)).toNat = cell
      rw [UInt64.toUInt64_toInt64, ByteOrder.bytes_uint64 _ first,
        ByteOrder.bytes_uint64 _ second, parts]
  | complex64 =>
    cases fixed
    have halves : littleValue ((complex64.toLittleCell order cell).take 4) =
          order.value (cell.take 4) ∧
        littleValue ((complex64.toLittleCell order cell).drop 4) = order.value (cell.drop 4) :=
      littleValue_toLittleCell_halves .complex64 order whole
    rw [ofCell, ofLittleCell, halves.1, halves.2, toCell]
    change order.bytes 4 (order.uint32 _).toNat ++ order.bytes 4 (order.uint32 _).toNat = cell
    rw [order.bytes_uint32 (by simp [whole]), order.bytes_uint32 (by simp [whole]),
      List.take_append_drop]
  | complex128 =>
    cases fixed
    have halves : littleValue ((complex128.toLittleCell order cell).take 8) =
          order.value (cell.take 8) ∧
        littleValue ((complex128.toLittleCell order cell).drop 8) = order.value (cell.drop 8) :=
      littleValue_toLittleCell_halves .complex128 order whole
    rw [ofCell, ofLittleCell, halves.1, halves.2, toCell]
    change order.bytes 8 (order.uint64 _).toNat ++ order.bytes 8 (order.uint64 _).toNat = cell
    rw [order.bytes_uint64 (by simp [whole]), order.bytes_uint64 (by simp [whole]),
      List.take_append_drop]
  | int8 | uint8 =>
    cases fixed
    rw [ofCell, ofLittleCell, same whole, toCell]
    simpa using order.bytes_uint8 whole
  | int16 | uint16 =>
    cases fixed
    rw [ofCell, ofLittleCell, same whole, toCell]
    simpa [ByteOrder.uint16] using order.bytes_uint16 whole
  | int32 | uint32 | float32 =>
    cases fixed
    rw [ofCell, ofLittleCell, same whole, toCell]
    simpa [ByteOrder.uint32] using order.bytes_uint32 whole
  | int64 | uint64 | float64 =>
    cases fixed
    rw [ofCell, ofLittleCell, same whole, toCell]
    simpa [ByteOrder.uint64] using order.bytes_uint64 whole

end ScalarType

end Tdms
