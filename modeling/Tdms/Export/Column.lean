import Tdms.Error
import Tdms.Samples

/-!
Columns for other programs: samples as the columnar interchange format types
them.

Moments become signed nanoseconds since 1970, and complex numbers have no
column type. Every other type of samples has a column type of its own with the
same values, and a channel without samples becomes an empty column of nulls.
-/

namespace Tdms.Export

/-- Type of the elements of a column. -/
inductive ColumnType where
  /-- Nothing but nulls. -/
  | null
  | int8
  | int16
  | int32
  | int64
  | uint8
  | uint16
  | uint32
  | uint64
  | float32
  | float64
  | boolean
  | utf8
  /-- Nanoseconds since the start of 1970 in UTC. -/
  | timestamp
  deriving DecidableEq, Repr, Inhabited

namespace ColumnType

/-- The elements of a column type. -/
abbrev Element : ColumnType → Type
  | null => Unit
  | int8 => Int8
  | int16 => Int16
  | int32 => Int32
  | int64 => Int64
  | uint8 => UInt8
  | uint16 => UInt16
  | uint32 => UInt32
  | uint64 => UInt64
  | float32 => Binary32
  | float64 => Binary64
  | boolean => Bool
  | utf8 => String
  | timestamp => Int64

/-- What a column type is called. -/
def name : ColumnType → String
  | null => "Null"
  | int8 => "Int8"
  | int16 => "Int16"
  | int32 => "Int32"
  | int64 => "Int64"
  | uint8 => "UInt8"
  | uint16 => "UInt16"
  | uint32 => "UInt32"
  | uint64 => "UInt64"
  | float32 => "Float32"
  | float64 => "Float64"
  | boolean => "Boolean"
  | utf8 => "Utf8"
  | timestamp => "Timestamp(Nanosecond, Some(\"UTC\"))"

/-- The letters that stand for a column type in a schema. -/
def format : ColumnType → String
  | null => "n"
  | int8 => "c"
  | int16 => "s"
  | int32 => "i"
  | int64 => "l"
  | uint8 => "C"
  | uint16 => "S"
  | uint32 => "I"
  | uint64 => "L"
  | float32 => "f"
  | float64 => "g"
  | boolean => "b"
  | utf8 => "u"
  | timestamp => "tsn:UTC"

/-- All column types. -/
def all : List ColumnType :=
  [null, int8, int16, int32, int64, uint8, uint16, uint32, uint64, float32, float64, boolean,
    utf8, timestamp]

/-- The column type that `format` stands for. -/
def ofFormat? (format : String) : Option ColumnType :=
  all.find? fun type => type.format == format

/-- A type is read back from its own letters. -/
theorem ofFormat?_format (type : ColumnType) : ofFormat? type.format = some type := by
  cases type <;> decide

end ColumnType

/-- A list of elements of one type. -/
structure Column where
  type : ColumnType
  elements : List type.Element

namespace Column

/-- Number of elements. -/
def length (column : Column) : Nat :=
  column.elements.length

/-- Number of elements that are missing. A column is made of samples, of which none is missing. -/
def nullCount (_ : Column) : Nat :=
  0

/-- The nanoseconds since 1970 of every moment, or the first moment that has none. -/
def unixNanos (moments : List Timestamp) : Except Error (List Int64) :=
  moments.mapM fun moment =>
    match moment.unixNanos? with
    | some nanos => .ok (Int64.ofInt nanos)
    | none => .error (.timestampRange moment.seconds)

/-- The column that holds the samples of a channel. -/
def ofSamples : Samples → Except Error Column
  | .void => .ok ⟨.null, []⟩
  | .column .int8 values => .ok ⟨.int8, values⟩
  | .column .int16 values => .ok ⟨.int16, values⟩
  | .column .int32 values => .ok ⟨.int32, values⟩
  | .column .int64 values => .ok ⟨.int64, values⟩
  | .column .uint8 values => .ok ⟨.uint8, values⟩
  | .column .uint16 values => .ok ⟨.uint16, values⟩
  | .column .uint32 values => .ok ⟨.uint32, values⟩
  | .column .uint64 values => .ok ⟨.uint64, values⟩
  | .column .float32 values => .ok ⟨.float32, values⟩
  | .column .float64 values => .ok ⟨.float64, values⟩
  | .column .boolean values => .ok ⟨.boolean, values⟩
  | .column .string values => .ok ⟨.utf8, values⟩
  | .column .timestamp values => (unixNanos values).map fun nanos => ⟨.timestamp, nanos⟩
  | .column .complex64 _ => .error (.unsupportedExport .complex64)
  | .column .complex128 _ => .error (.unsupportedExport .complex128)

end Column

end Tdms.Export
