import Tdms.Bytes.Order
import Tdms.Export.Column
import Tdms.Bytes.Window

/-!
Parcels: columns packed into the buffers of the columnar interchange format.

A parcel is a schema and an array. The first buffer of an array would say
which elements are missing, and is left out because none is. Elements of a
fixed width follow each other in the little order; truth values take one bit
each, the lowest bit of a byte first; strings are a buffer of offsets, four
bytes each and one more than there are strings, and a buffer of text.
`Parcel.unpack?` takes a column back out of its buffers.
-/

namespace Tdms.Export

/-- What an array holds. -/
structure Schema where
  /-- The letters that stand for the column type. -/
  format : String
  /-- Whether elements may be missing. -/
  nullable : Bool
  deriving DecidableEq, Repr, Inhabited

/-- The buffers of a column. -/
structure Buffers where
  length : Nat
  nullCount : Nat
  /-- Elements in front of the buffers that do not belong to the array. -/
  offset : Nat
  /-- The bytes of each buffer, or `none` for one that is left out. -/
  buffers : List (Option ByteArray)
  deriving DecidableEq, Inhabited

/-- A column on its way to another program. -/
structure Parcel where
  type : ColumnType
  schema : Schema
  array : Buffers
  /-- Whether the receiver has given the buffers back. -/
  released : Bool
  deriving DecidableEq, Inhabited

/-- The elements of a fixed width, one after another. -/
def packFixed {α : Type} (bytes : α → List UInt8) (elements : List α) : ByteArray :=
  (elements.flatMap bytes).toByteArray

/-- The `count` elements of `width` bytes each. -/
def unpackFixed {α : Type} (width : Nat) (element : List UInt8 → α) (count : Nat)
    (buffer : ByteArray) : List α :=
  (List.range count).map fun index =>
    element (window buffer (index * width) width).data.toList

/-- The number whose binary digits are the first `count` of `bits`, lowest first. -/
def bitsValue (bits : Nat → Bool) : (count : Nat) → Nat
  | 0 => 0
  | count + 1 => (bits 0).toNat + 2 * bitsValue (fun bit => bits (bit + 1)) count

/-- Eight truth values as a byte, the first of them as its lowest bit. -/
def packByte (bits : Nat → Bool) : UInt8 :=
  UInt8.ofNat (bitsValue bits 8)

/-- Truth values, eight to a byte. -/
def packBits (bits : List Bool) : ByteArray :=
  let table := bits.toArray
  ((List.range ((table.size + 7) / 8)).map fun byte =>
    packByte fun bit => table[byte * 8 + bit]?.getD false).toByteArray

/-- The first `count` truth values of a buffer. -/
def unpackBits (count : Nat) (buffer : ByteArray) : List Bool :=
  (List.range count).map fun index =>
    (buffer.data[index / 8]?.getD 0).toNat.testBit (index % 8)

/-- Where each string starts, and where the last one ends. -/
def stringOffsets (start : Nat) : List String → List Nat
  | [] => [start]
  | text :: rest => start :: stringOffsets (start + text.utf8ByteSize) rest

/-- The buffers of a column, the first of them left out. -/
def packBuffers : Column → List (Option ByteArray)
  | ⟨.null, _⟩ => []
  | ⟨.int8, elements⟩ => [none, packFixed (fun value => littleBytes 1 value.toUInt8.toNat) elements]
  | ⟨.int16, elements⟩ =>
    [none, packFixed (fun value => littleBytes 2 value.toUInt16.toNat) elements]
  | ⟨.int32, elements⟩ =>
    [none, packFixed (fun value => littleBytes 4 value.toUInt32.toNat) elements]
  | ⟨.int64, elements⟩ =>
    [none, packFixed (fun value => littleBytes 8 value.toUInt64.toNat) elements]
  | ⟨.uint8, elements⟩ => [none, packFixed (fun value => littleBytes 1 value.toNat) elements]
  | ⟨.uint16, elements⟩ => [none, packFixed (fun value => littleBytes 2 value.toNat) elements]
  | ⟨.uint32, elements⟩ => [none, packFixed (fun value => littleBytes 4 value.toNat) elements]
  | ⟨.uint64, elements⟩ => [none, packFixed (fun value => littleBytes 8 value.toNat) elements]
  | ⟨.float32, elements⟩ =>
    [none, packFixed (fun value => littleBytes 4 value.bits.toNat) elements]
  | ⟨.float64, elements⟩ =>
    [none, packFixed (fun value => littleBytes 8 value.bits.toNat) elements]
  | ⟨.boolean, elements⟩ => [none, packBits elements]
  | ⟨.utf8, elements⟩ =>
    [none, packFixed (littleBytes 4) (stringOffsets 0 elements),
      (String.join elements).toUTF8]
  | ⟨.timestamp, elements⟩ =>
    [none, packFixed (fun value => littleBytes 8 value.toUInt64.toNat) elements]

/-- The strings of a text between the given offsets. -/
def unpackStrings? (text : ByteArray) : (offsets : List Nat) → Option (List String)
  | [] => some []
  | [_] => some []
  | start :: stop :: rest =>
    match String.fromUTF8? (text.extract start stop) with
    | none => none
    | some first => (unpackStrings? text (stop :: rest)).map (first :: ·)

/-- The column of `type` and `count` elements in the given buffers. -/
def unpackColumn? (count : Nat) : ColumnType → List (Option ByteArray) → Option Column
  | .null, [] => some ⟨.null, List.replicate count ()⟩
  | .int8, [none, some values] =>
    some ⟨.int8, unpackFixed 1 (fun bytes => (UInt8.ofNat (littleValue bytes)).toInt8) count values⟩
  | .int16, [none, some values] =>
    some ⟨.int16,
      unpackFixed 2 (fun bytes => (UInt16.ofNat (littleValue bytes)).toInt16) count values⟩
  | .int32, [none, some values] =>
    some ⟨.int32,
      unpackFixed 4 (fun bytes => (UInt32.ofNat (littleValue bytes)).toInt32) count values⟩
  | .int64, [none, some values] =>
    some ⟨.int64,
      unpackFixed 8 (fun bytes => (UInt64.ofNat (littleValue bytes)).toInt64) count values⟩
  | .uint8, [none, some values] =>
    some ⟨.uint8, unpackFixed 1 (fun bytes => UInt8.ofNat (littleValue bytes)) count values⟩
  | .uint16, [none, some values] =>
    some ⟨.uint16, unpackFixed 2 (fun bytes => UInt16.ofNat (littleValue bytes)) count values⟩
  | .uint32, [none, some values] =>
    some ⟨.uint32, unpackFixed 4 (fun bytes => UInt32.ofNat (littleValue bytes)) count values⟩
  | .uint64, [none, some values] =>
    some ⟨.uint64, unpackFixed 8 (fun bytes => UInt64.ofNat (littleValue bytes)) count values⟩
  | .float32, [none, some values] =>
    some ⟨.float32, unpackFixed 4 (fun bytes => ⟨UInt32.ofNat (littleValue bytes)⟩) count values⟩
  | .float64, [none, some values] =>
    some ⟨.float64, unpackFixed 8 (fun bytes => ⟨UInt64.ofNat (littleValue bytes)⟩) count values⟩
  | .boolean, [none, some values] => some ⟨.boolean, unpackBits count values⟩
  | .utf8, [none, some offsets, some text] =>
    (unpackStrings? text (unpackFixed 4 littleValue (count + 1) offsets)).map (⟨.utf8, ·⟩)
  | .timestamp, [none, some values] =>
    some ⟨.timestamp,
      unpackFixed 8 (fun bytes => (UInt64.ofNat (littleValue bytes)).toInt64) count values⟩
  | _, _ => none

/-- Packs a column. -/
def Column.pack (column : Column) : Parcel where
  type := column.type
  schema := { format := column.type.format, nullable := false }
  array :=
    { length := column.length
      nullCount := column.nullCount
      offset := 0
      buffers := packBuffers column }
  released := false

namespace Parcel

/-- Packs the samples of a channel. -/
def ofSamples (samples : Samples) : Except Error Parcel :=
  (Column.ofSamples samples).map Column.pack

/-- Takes the column back out of its buffers. The schema alone says of which type it is. -/
def unpack? (parcel : Parcel) : Option Column :=
  match ColumnType.ofFormat? parcel.schema.format with
  | none => none
  | some type => unpackColumn? parcel.array.length type parcel.array.buffers

/-- Whether the parcel holds no elements. -/
def isEmpty (parcel : Parcel) : Bool :=
  parcel.array.length == 0

/-- A parcel in one line. -/
def describe (parcel : Parcel) : String :=
  "ExportedArray \x7b " ++ s!"data_type: {parcel.type.name}, len: {parcel.array.length}, .. " ++
    "\x7d"

end Parcel

end Tdms.Export
