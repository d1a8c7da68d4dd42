import Tdms.ObjectPath
import Tdms.Property
import Tdms.Text.Utf8

/-!
The object records of a metadata block, and what can be wrong with them.

A record names an object, declares how much raw data each chunk holds for it,
and lists properties in the order in which they were written. The same name
may occur more than once.
-/

namespace Tdms.Metadata

/-- How much raw data a chunk holds for an object. -/
structure RawIndex where
  type : ScalarType
  /-- Values in each chunk. -/
  count : Nat
  /-- Bytes in each chunk. -/
  size : Nat
  deriving DecidableEq, Repr, Inhabited

/-- What a parsed declaration guarantees: the counts are 64-bit numbers, values of a fixed width
fill the declared bytes exactly, and every string has room for its end offset. -/
def RawIndex.WellFormed (index : RawIndex) : Prop :=
  index.count < UInt64.size ∧ index.size < UInt64.size ∧
    match index.type.width? with
    | some width => index.size = index.count * width
    | none => 4 * index.count ≤ index.size

/-- What a record says about the raw data of its object. -/
inductive Declaration where
  /-- The object has no raw data in this segment. -/
  | noData
  /-- The object has the raw data that it declared last. -/
  | matchesPrevious
  | new (index : RawIndex)
  deriving DecidableEq, Repr, Inhabited

/-- What a metadata block says about one object. -/
structure Record where
  path : ObjectPath
  declaration : Declaration
  /-- Names and values as they were written. -/
  properties : List (String × Property)
  deriving DecidableEq, Inhabited

/-- Why the metadata of a segment is corrupt. -/
inductive Fault where
  /-- The block ends inside a field. -/
  | endsEarly (blockLength wanted position : Nat)
  | text (fault : Utf8.Fault)
  | path (found : String)
  | dimension (path : String) (found : UInt32)
  /-- The declared values take 2^64 bytes or more. -/
  | valueCount (path : String) (count : Nat)
  /-- The declared bytes cannot hold one end offset for each string. -/
  | stringTable (path : String) (count size : Nat)
  /-- The object has no earlier declaration to match. -/
  | neverDeclared (path : ObjectPath)
  /-- Only channels hold raw data. -/
  | notChannel (path : ObjectPath)
  /-- A chunk takes 2^64 bytes or more. -/
  | chunkSize
  /-- Records of interleaved data have no room for values of varying width. -/
  | interleavedWidth (type : ScalarType)
  deriving DecidableEq, Repr

/-- Why a metadata block is refused. -/
inductive Refusal where
  | corrupt (fault : Fault)
  | unknownType (code : UInt32) (path : String)
  deriving DecidableEq, Repr

/-- Raw data header of an object without raw data. -/
def noDataHeader : UInt32 := 0xFFFFFFFF

/-- Raw data header of an object whose raw data is declared as before. -/
def matchesPreviousHeader : UInt32 := 0

/-- Raw data headers of device data in a form that this library does not read. -/
def deviceHeaders : List UInt32 := [0x1269, 0x126A]

/-- The type code that stands for device data in an error. -/
def deviceTypeCode : UInt32 := 0xFFFFFFFF

end Tdms.Metadata
