import Tdms.Metadata.Cursor

/-!
The layout of a metadata block: the number of records, then the records.

A record is the path of its object, a raw data header with what follows it,
and the number of properties with the properties. All numbers are in the
order of the segment. Bytes after the last record are not looked at.
-/

namespace Tdms.Metadata

namespace Reader

/-- Takes the value of a property. -/
def value (order : ByteOrder) : (type : ScalarType) → Reader type.Value
  | .int8 => do
    let bytes ← take 1
    pure (UInt8.ofNat (order.value bytes)).toInt8
  | .int16 => do
    let bytes ← take 2
    pure (order.uint16 bytes).toInt16
  | .int32 => do
    let number ← uint32 order
    pure number.toInt32
  | .int64 => do
    let number ← uint64 order
    pure number.toInt64
  | .uint8 => do
    let bytes ← take 1
    pure (UInt8.ofNat (order.value bytes))
  | .uint16 => do
    let bytes ← take 2
    pure (order.uint16 bytes)
  | .uint32 => uint32 order
  | .uint64 => uint64 order
  | .float32 => do
    let bits ← uint32 order
    pure ⟨bits⟩
  | .float64 => do
    let bits ← uint64 order
    pure ⟨bits⟩
  | .string => text order
  | .boolean => do
    let bytes ← take 1
    pure (order.value bytes != 0)
  | .timestamp => do
    let bytes ← take 16
    match order with
    | .little => pure (Timestamp.ofLittleBytes bytes)
    | .big => pure (Timestamp.ofBigBytes bytes)
  | .complex64 => do
    let bytes ← take 8
    pure ⟨⟨order.uint32 (bytes.take 4)⟩, ⟨order.uint32 (bytes.drop 4)⟩⟩
  | .complex128 => do
    let bytes ← take 16
    pure ⟨⟨order.uint64 (bytes.take 8)⟩, ⟨order.uint64 (bytes.drop 8)⟩⟩

/-- The type that `code` stands for in the record of the object at `path`. -/
def scalarType (code : UInt32) (path : String) : Reader ScalarType :=
  match ScalarType.ofCode? code with
  | some type => pure type
  | none => fun _ => .error (.unknownType code path)

/-- Takes the name, the type and the value of a property of the object at `path`. -/
def property (order : ByteOrder) (path : String) : Reader (String × Property) := do
  let name ← text order
  let code ← uint32 order
  let type ← scalarType code path
  let value ← value order type
  pure (name, ⟨type, value⟩)

/-- Takes how much raw data each chunk holds for the object at `path`: type, dimension, number of
values and, for strings, number of bytes. -/
def rawIndex (order : ByteOrder) (path : String) : Reader RawIndex := do
  let code ← uint32 order
  let type ← scalarType code path
  let dimension ← uint32 order
  if dimension ≠ 1 then
    corrupt (.dimension path dimension)
  else
    let count := (← uint64 order).toNat
    match type.width? with
    | some width =>
      if count * width < UInt64.size then pure ⟨type, count, count * width⟩
      else corrupt (.valueCount path count)
    | none =>
      let size := (← uint64 order).toNat
      if 4 * count ≤ size then pure ⟨type, count, size⟩
      else corrupt (.stringTable path count size)

/-- Takes what the record of the object at `path` says about its raw data. -/
def declaration (order : ByteOrder) (path : String) : Reader Declaration := do
  let header ← uint32 order
  if header = noDataHeader then pure .noData
  else if header = matchesPreviousHeader then pure .matchesPrevious
  else if header ∈ deviceHeaders then fun _ => .error (.unknownType deviceTypeCode path)
  else .new <$> rawIndex order path

/-- Takes one record. -/
def record (order : ByteOrder) : Reader Record := do
  let path ← text order
  match ObjectPath.parse? path with
  | none => corrupt (.path path)
  | some object =>
    let declaration ← declaration order path
    let propertyCount ← uint32 order
    let properties ← many (property order path) propertyCount.toNat
    pure { path := object, declaration, properties }

/-- Takes the number of records and the records. -/
def records (order : ByteOrder) : Reader (List Record) := do
  let count ← uint32 order
  many (record order) count.toNat

end Reader

/-- The records of the metadata block `bytes`. -/
def decode (order : ByteOrder) (bytes : List UInt8) : Except Refusal (List Record) :=
  (Reader.records order ⟨0, bytes⟩).map Prod.fst

end Tdms.Metadata
