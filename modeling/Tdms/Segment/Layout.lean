import Tdms.Samples.Run
import Tdms.Segment

/-!
How raw data is laid out: which run of a segment's raw data each object owns.

The raw data of a contiguous segment is a row of equal chunks, each of which
holds the declared bytes of every object in turn. That of an interleaved
segment is a row of equal records, each of which holds one value of every
object in turn. Bytes after the last whole chunk or record belong to nobody.
Where no object declares bytes, the size of a chunk or record is zero, and so
is the number of them, for a number divided by zero is zero.

`runs` answers with one slot for each of the given indexes: its run, or `none`
for an object that owns no bytes here.
-/

namespace Tdms.Layout

open Metadata (RawIndex)

/-- Bytes of one chunk of contiguous data. -/
def chunkSize : List RawIndex → Nat
  | [] => 0
  | index :: rest => index.size + chunkSize rest

/-- The run of an object whose bytes start at `offset` in the first of `chunks` chunks of `size`
bytes. An object of fixed width that owns whole chunks owns one packed run. -/
def contiguousRun (segment : Segment) (size chunks offset : Nat) (index : RawIndex) : Option Run :=
  if 0 < index.size ∧ 0 < index.count then
    let stride := index.type.width
    if 0 < stride ∧ index.size = size then
      some
        { segment := segment.ordinal
          offset
          byteLength := size * chunks
          stride
          sampleCount := index.count * chunks
          chunkCount := 1
          chunkStride := size * chunks
          order := segment.order }
    else
      some
        { segment := segment.ordinal
          offset
          byteLength := index.size
          stride
          sampleCount := index.count
          chunkCount := chunks
          chunkStride := size
          order := segment.order }
  else none

/-- The runs of objects that follow each other in every chunk, the first of them at `offset`. -/
def contiguousRunsFrom (segment : Segment) (size chunks : Nat) :
    (offset : Nat) → List RawIndex → List (Option Run)
  | _, [] => []
  | offset, index :: rest =>
    contiguousRun segment size chunks offset index ::
      contiguousRunsFrom segment size chunks (offset + index.size) rest

/-- The runs of a contiguous segment. -/
def contiguousRuns (segment : Segment) (indexes : List RawIndex) :
    Except Metadata.Fault (List (Option Run)) :=
  let size := chunkSize indexes
  let chunks := segment.dataLength / size
  if UInt64.size ≤ size then .error .chunkSize
  else if chunks = 0 then .ok (indexes.map fun _ => none)
  else .ok (contiguousRunsFrom segment size chunks segment.dataOffset indexes)

/-- Bytes of an object in each record of interleaved data. -/
def fieldWidth (index : RawIndex) : Nat :=
  if 0 < index.count then index.type.width else 0

/-- Bytes of one record of interleaved data. -/
def recordWidth : List RawIndex → Nat
  | [] => 0
  | index :: rest => fieldWidth index + recordWidth rest

/-- The run of an object whose values start at `offset` in the first of `records` records of
`width` bytes. -/
def interleavedRun (segment : Segment) (width records offset : Nat) (index : RawIndex) :
    Option Run :=
  if 0 < index.count then
    some
      { segment := segment.ordinal
        offset
        byteLength := (records - 1) * width + index.type.width
        stride := width
        sampleCount := records
        chunkCount := 1
        chunkStride := records * width
        order := segment.order }
  else none

/-- The runs of objects that follow each other in every record, the first of them at `offset`. -/
def interleavedRunsFrom (segment : Segment) (width records : Nat) :
    (offset : Nat) → List RawIndex → List (Option Run)
  | _, [] => []
  | offset, index :: rest =>
    interleavedRun segment width records offset index ::
      interleavedRunsFrom segment width records (offset + fieldWidth index) rest

/-- The runs of an interleaved segment. -/
def interleavedRuns (segment : Segment) (indexes : List RawIndex) :
    Except Metadata.Fault (List (Option Run)) :=
  let width := recordWidth indexes
  let records := segment.dataLength / width
  match indexes.find? fun index => 0 < index.count && index.type.width?.isNone with
  | some index => .error (.interleavedWidth index.type)
  | none =>
    if records = 0 then .ok (indexes.map fun _ => none)
    else .ok (interleavedRunsFrom segment width records segment.dataOffset indexes)

/-- The run of each object, in the order of the raw data indexes of all objects with data. -/
def runs (segment : Segment) (indexes : List RawIndex) :
    Except Metadata.Fault (List (Option Run)) :=
  if segment.isInterleaved then interleavedRuns segment indexes
  else contiguousRuns segment indexes

end Tdms.Layout
