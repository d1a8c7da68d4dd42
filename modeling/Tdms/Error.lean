import Tdms.Segment.LeadIn
import Tdms.Metadata
import Tdms.Source
import Tdms.Text.Quoted

/-!
What can go wrong while a file is opened, read or exported.

Every constructor is one cause, with what was found there. The sentences that
report the causes are in `Error.message` and in the functions it calls.
-/

namespace Tdms

/-- Why the bytes of a channel are no samples. -/
inductive DataFault where
  /-- The runs of a channel hold more samples than the channel counts. -/
  | surplus
  /-- The end offsets of the strings do not fit the chunk. -/
  | offsetTable (count : Nat)
  /-- A string starts or ends outside the text of its chunk. -/
  | stringBounds (start stop : Nat)
  | text (fault : Utf8.Fault)
  deriving DecidableEq, Repr

/-- Why a segment has no place in a file. -/
inductive HeaderFault where
  | leadIn (fault : LeadIn.Fault)
  /-- The segment would end at byte 2^64 or later. -/
  | segmentEnd (length : Nat)
  /-- The raw data would start at byte 2^64 or later. -/
  | dataStart (rawDataOffset : Nat)
  deriving DecidableEq, Repr

/-- What was being read when a source failed. -/
inductive Action where
  | opening (path : String)
  | leadIn (offset : Nat)
  | metadata (offset : Nat)
  | samples (path : String) (length offset : Nat)
  deriving DecidableEq, Repr

/-- What can go wrong. -/
inductive Error where
  | corruptHeader (offset : Nat) (fault : HeaderFault)
  /-- A segment extends to byte `required`, but the source ends at byte `available`. -/
  | truncated (offset required available : Nat)
  | unknownType (code : UInt32) (path : String)
  | inconsistentType (path : String) (existing found : ScalarType)
  | corruptMetadata (offset : Nat) (fault : Metadata.Fault)
  | corruptData (path : String) (offset : Nat) (fault : DataFault)
  | unreadable (action : Action) (fault : Source.Fault)
  | noSuchGroup (group : String)
  | noSuchChannel (group channel : String)
  /-- No column type of the interchange format holds values of this type. -/
  | unsupportedExport (type : ScalarType)
  /-- The moment does not fit 64 signed bits in nanoseconds since 1970. -/
  | timestampRange (seconds : Int64)
  deriving DecidableEq, Repr

/-- The sentence that reports why bytes are no lead-in. -/
def LeadIn.Fault.message : LeadIn.Fault → String
  | .tag found =>
    let bytes := ", ".intercalate (found.map fun byte => Text.hexDigits 2 byte.toNat)
    s!"expected tag \"TDSm\", found [{bytes}]"
  | .version found => s!"unsupported version {found.toInt}"
  | .rawDataOffset data next =>
    s!"raw data offset {data.toNat} exceeds next segment offset {next.toNat}"

/-- The sentence that reports why a segment has no place in a file. -/
def HeaderFault.message : HeaderFault → String
  | .leadIn fault => fault.message
  | .segmentEnd length => s!"next segment offset {length} overflows the file position"
  | .dataStart length => s!"raw data offset {length} overflows the file position"

/-- The sentence that reports why metadata is corrupt. -/
def Metadata.Fault.message : Metadata.Fault → String
  | .endsEarly length wanted position =>
    s!"metadata block of {length} bytes ends while reading {wanted} bytes at position {position}"
  | .text fault => s!"string is not valid UTF-8: {fault.message}"
  | .path found => s!"invalid object path {Text.quoted found}"
  | .dimension object found =>
    s!"object {object} declares array dimension {found.toNat}, expected 1"
  | .valueCount object count => s!"object {object} declares {count} values, overflowing u64"
  | .stringTable object count size =>
    s!"object {object} declares {count} strings in {size} bytes"
  | .neverDeclared object =>
    s!"object {object.render} reuses a raw data index it never declared"
  | .notChannel object => s!"object {object.render} is not a channel but declares raw data"
  | .chunkSize => "chunk size of the raw data overflows u64"
  | .interleavedWidth type => s!"interleaved segment contains variable-width {type.name} data"

/-- The sentence that reports why bytes are no samples. -/
def DataFault.message : DataFault → String
  | .surplus => "ranges hold more samples than the channel total"
  | .offsetTable count => s!"offset table for {count} strings exceeds the chunk"
  | .stringBounds start stop => s!"string bytes {start}..{stop} are outside the chunk"
  | .text fault => s!"string is not valid UTF-8: {fault.message}"

/-- What was being read, as messages put it. -/
def Action.describe : Action → String
  | .opening path => s!"opening {path}"
  | .leadIn offset => s!"reading segment lead-in at byte {offset}"
  | .metadata offset => s!"reading metadata of segment at byte {offset}"
  | .samples path length offset =>
    s!"reading {length} bytes of channel {path} at byte {offset}"

namespace Error

/-- The sentence that reports an error. -/
def message : Error → String
  | .corruptHeader offset fault =>
    s!"Corrupt segment header at byte {offset}: {fault.message}"
  | .truncated offset required available =>
    s!"Truncated file: segment at byte {offset} extends to byte {required} " ++
      s!"but the source ends at byte {available}"
  | .unknownType code path =>
    s!"Unsupported data type code 0x{Text.hexDigits 1 code.toNat} for object {path}"
  | .inconsistentType path existing found =>
    s!"Channel {path} changes data type from {existing.name} to {found.name}"
  | .corruptMetadata offset fault =>
    s!"Corrupt metadata in segment at byte {offset}: {fault.message}"
  | .corruptData path offset fault =>
    s!"Corrupt data for channel {path} at byte {offset}: {fault.message}"
  | .unreadable action fault => s!"I/O error while {action.describe}: {fault.message}"
  | .noSuchGroup group => s!"No group named '{group}'"
  | .noSuchChannel group channel => s!"No channel named '{channel}' in group '{group}'"
  | .unsupportedExport type => s!"Channels of type {type.name} cannot be exported to Arrow"
  | .timestampRange seconds =>
    s!"Timestamp {seconds.toInt}s after 1904-01-01 does not fit in Unix nanoseconds"

/-- Whether the error only says that a group or a channel does not exist. -/
def isNotFound : Error → Bool
  | .noSuchGroup _ | .noSuchChannel _ _ => true
  | _ => false

end Error

end Tdms
