import Tdms.Bytes.Order

/-!
The lead-in that opens every segment: 28 bytes that hold a tag, the table of
contents, the version and two lengths.

The table of contents is always in the little order; one of its bits decides
the order of the three fields after it. Both lengths count from the end of the
lead-in. `LeadIn.encode` writes the bytes that `LeadIn.decode` reads.
-/

namespace Tdms

/-- Bytes of a lead-in. -/
def leadInLength : Nat := 28

/-- The four bytes `TDSm` that open a segment. -/
def segmentTag : List UInt8 := [0x54, 0x44, 0x53, 0x6d]

/-- The table of contents of a segment: a set of flags. Flags without a meaning are kept. -/
structure Contents where
  bits : UInt32
  deriving DecidableEq, Repr, Inhabited

namespace Contents

/-- The segment holds a metadata block. -/
def metadataFlag : UInt32 := 0x02

/-- The metadata block starts a new list of objects. -/
def newObjectListFlag : UInt32 := 0x04

/-- The segment holds raw data. -/
def rawDataFlag : UInt32 := 0x08

/-- The raw data holds one record after another. -/
def interleavedFlag : UInt32 := 0x20

/-- All numbers after the table of contents are in the big order. -/
def bigOrderFlag : UInt32 := 0x40

/-- Whether every flag of `flags` is set. -/
def contains (contents : Contents) (flags : UInt32) : Bool :=
  contents.bits &&& flags == flags

def hasMetadata (contents : Contents) : Bool :=
  contents.contains metadataFlag

def hasNewObjectList (contents : Contents) : Bool :=
  contents.contains newObjectListFlag

def hasRawData (contents : Contents) : Bool :=
  contents.contains rawDataFlag

def isInterleaved (contents : Contents) : Bool :=
  contents.contains interleavedFlag

/-- Order of all numbers after the table of contents. -/
def order (contents : Contents) : ByteOrder :=
  if contents.contains bigOrderFlag then .big else .little

end Contents

/-- What a lead-in says. -/
structure LeadIn where
  contents : Contents
  version : Int32
  /-- Bytes from the end of the lead-in to the next segment. -/
  nextSegmentOffset : UInt64
  /-- Bytes from the end of the lead-in to the raw data. -/
  rawDataOffset : UInt64
  deriving DecidableEq, Repr, Inhabited

namespace LeadIn

/-- Why bytes are no lead-in. -/
inductive Fault where
  | tag (found : List UInt8)
  | version (found : Int32)
  | rawDataOffset (rawDataOffset nextSegmentOffset : UInt64)
  deriving DecidableEq, Repr

/-- The next segment offset of a writer that never finished its segment. -/
def unfinished : UInt64 := 0xFFFFFFFFFFFFFFFF

/-- Whether the writer never finished the segment. -/
def isUnfinished (leadIn : LeadIn) : Bool :=
  leadIn.nextSegmentOffset == unfinished

/-- Order of all numbers after the table of contents. -/
def order (leadIn : LeadIn) : ByteOrder :=
  leadIn.contents.order

/-- The versions of the format that this library reads. -/
def supportedVersions : List Int32 := [4712, 4713]

/-- Whether the version is read, and the raw data starts no later than the segment ends. -/
def Valid (leadIn : LeadIn) : Prop :=
  leadIn.version ∈ supportedVersions ∧
    (leadIn.isUnfinished = true ∨ leadIn.rawDataOffset ≤ leadIn.nextSegmentOffset)

instance (leadIn : LeadIn) : Decidable leadIn.Valid :=
  inferInstanceAs (Decidable (_ ∧ _))

/-- The fields that the 28 bytes of a lead-in spell, whatever its tag. -/
def ofBytes (bytes : List UInt8) : LeadIn :=
  let contents : Contents := ⟨ByteOrder.little.uint32 ((bytes.drop 4).take 4)⟩
  { contents
    version := (contents.order.uint32 ((bytes.drop 8).take 4)).toInt32
    nextSegmentOffset := contents.order.uint64 ((bytes.drop 12).take 8)
    rawDataOffset := contents.order.uint64 ((bytes.drop 20).take 8) }

/-- The lead-in that 28 bytes spell. The tag is checked first, then the version, then the
offsets. -/
def decode (bytes : List UInt8) : Except Fault LeadIn :=
  let leadIn := ofBytes bytes
  if bytes.take 4 ≠ segmentTag then .error (.tag (bytes.take 4))
  else if leadIn.version ∉ supportedVersions then .error (.version leadIn.version)
  else if leadIn.isUnfinished ∨ leadIn.rawDataOffset ≤ leadIn.nextSegmentOffset then .ok leadIn
  else .error (.rawDataOffset leadIn.rawDataOffset leadIn.nextSegmentOffset)

/-- The 28 bytes that spell a lead-in. -/
def encode (leadIn : LeadIn) : List UInt8 :=
  segmentTag ++ ByteOrder.little.bytes 4 leadIn.contents.bits.toNat ++
    leadIn.order.bytes 4 leadIn.version.toUInt32.toNat ++
    leadIn.order.bytes 8 leadIn.nextSegmentOffset.toNat ++
    leadIn.order.bytes 8 leadIn.rawDataOffset.toNat

end LeadIn

end Tdms
