import Tdms.Error

/-!
Segments: a lead-in, a metadata block if the table of contents says so, and raw
data.

Reading a segment never touches its raw data: a segment only says where that
lies. What is checked comes in this order: the source holds a whole lead-in,
the lead-in is valid, its end and its raw data start below 2^64, and both lie
inside the source.
-/

namespace Tdms

/-- A segment and where its parts lie. -/
structure Segment where
  /-- Number of segments before it. -/
  ordinal : Nat
  /-- Where the lead-in starts. -/
  offset : Nat
  leadIn : LeadIn
  metadataOffset : Nat
  /-- The bytes of the metadata block, if the segment has one. -/
  metadata : Option ByteArray
  dataOffset : Nat
  /-- Bytes of raw data. -/
  dataLength : Nat
  deriving DecidableEq, Inhabited

namespace Segment

/-- Order of all numbers in the segment. -/
def order (segment : Segment) : ByteOrder :=
  segment.leadIn.order

/-- Whether the raw data holds one record after another. -/
def isInterleaved (segment : Segment) : Bool :=
  segment.leadIn.contents.isInterleaved

/-- Whether the metadata starts a new list of objects. -/
def hasNewObjectList (segment : Segment) : Bool :=
  segment.leadIn.contents.hasNewObjectList

/-- Whether the segment brings no metadata and keeps the objects it finds. -/
def reusesObjects (segment : Segment) : Bool :=
  !segment.leadIn.contents.hasMetadata

/-- Where the raw data ends. -/
def endOffset (segment : Segment) : Nat :=
  segment.dataOffset + segment.dataLength

/-- The lead-in of the segment at `offset`, and `none` at the end of the source. -/
def readLeadIn (source : Source) (offset : Nat) : Except Error (Option LeadIn) :=
  if source.length ≤ offset then .ok none
  else if source.length < offset + leadInLength then
    .error (.truncated offset (offset + leadInLength) source.length)
  else
    match source.read offset leadInLength with
    | .error fault => .error (.unreadable (.leadIn offset) fault)
    | .ok bytes =>
      match LeadIn.decode bytes.data.toList with
      | .error fault => .error (.corruptHeader offset (.leadIn fault))
      | .ok leadIn => .ok (some leadIn)

/-- Bytes that the segment at `offset` takes after its lead-in: what it says, or what is left of the
`available` bytes if its writer never finished it. -/
def declaredLength (available offset : Nat) (leadIn : LeadIn) : Nat :=
  if leadIn.isUnfinished then available - (offset + leadInLength)
  else leadIn.nextSegmentOffset.toNat

/-- Where the segment at `offset` ends and where its raw data starts. Both places are below 2^64
and inside the `available` bytes. -/
def bounds (available offset : Nat) (leadIn : LeadIn) : Except Error (Nat × Nat) :=
  let length := declaredLength available offset leadIn
  let next := offset + leadInLength + length
  let data := offset + leadInLength + leadIn.rawDataOffset.toNat
  if UInt64.size ≤ next then .error (.corruptHeader offset (.segmentEnd length))
  else if UInt64.size ≤ data then
    .error (.corruptHeader offset (.dataStart leadIn.rawDataOffset.toNat))
  else if next ≤ available ∧ data ≤ available then .ok (next, data)
  else .error (.truncated offset (max next data) available)

/-- The metadata block of the segment at `offset`, if its table of contents says it has one. -/
def readMetadata (source : Source) (offset : Nat) (leadIn : LeadIn) :
    Except Error (Option ByteArray) :=
  if leadIn.contents.hasMetadata then
    match source.read (offset + leadInLength) leadIn.rawDataOffset.toNat with
    | .error fault => .error (.unreadable (.metadata offset) fault)
    | .ok bytes => .ok (some bytes)
  else .ok none

/-- The segment at `offset` with the place where the next one starts, and `none` at the end of
the source. -/
def read (source : Source) (offset ordinal : Nat) : Except Error (Option (Segment × Nat)) :=
  match readLeadIn source offset with
  | .error error => .error error
  | .ok none => .ok none
  | .ok (some leadIn) =>
    match bounds source.length offset leadIn with
    | .error error => .error error
    | .ok (next, data) =>
      match readMetadata source offset leadIn with
      | .error error => .error error
      | .ok metadata =>
        let segment : Segment :=
          { ordinal
            offset
            leadIn
            metadataOffset := offset + leadInLength
            metadata
            dataOffset := data
            dataLength := if leadIn.contents.hasRawData then next - data else 0 }
        .ok (some (segment, next))

/-- Segments lie inside the source, and each ends after its own lead-in. -/
theorem next_of_read {source : Source} {offset ordinal next : Nat} {segment : Segment}
    (found : read source offset ordinal = .ok (some (segment, next))) :
    offset + leadInLength ≤ next ∧ next ≤ source.length := by
  unfold read at found
  split at found
  · cases found
  · cases found
  · split at found
    · cases found
    · rename_i bounded
      split at found
      · cases found
      · obtain ⟨-, rfl⟩ := by simpa using found
        simp only [bounds] at bounded
        split at bounded
        · cases bounded
        · split at bounded
          · cases bounded
          · split at bounded
            · rename_i inside
              obtain ⟨rfl, -⟩ := by simpa using bounded
              exact ⟨Nat.le_add_right _ _, inside.1⟩
            · cases bounded

end Segment

end Tdms
