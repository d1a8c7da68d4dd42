import Tdms.Bytes.Order

/-!
Runs: where some of a channel's samples lie in a file.

A run is a slice of one chunk and how often the slice repeats. Runs are pushed
onto a list that has the latest first; one that continues the latest byte for
byte is merged into it.
-/

namespace Tdms

/-- Where one run of a channel's samples lies. -/
structure Run where
  /-- Number of segments before the one that holds the run. -/
  segment : Nat
  /-- Where the first sample of the first chunk starts. -/
  offset : Nat
  /-- Bytes from the start of a chunk to the end of its last sample. -/
  byteLength : Nat
  /-- Bytes from one sample to the next, and zero for strings. -/
  stride : Nat
  /-- Samples in each chunk. -/
  sampleCount : Nat
  /-- Chunks that the run repeats over. -/
  chunkCount : Nat
  /-- Bytes from the start of one chunk to the start of the next. -/
  chunkStride : Nat
  order : ByteOrder
  deriving DecidableEq, Repr, Inhabited

namespace Run

/-- Whether the samples of a chunk follow each other without a gap. -/
def isPacked (run : Run) : Bool :=
  run.stride != 0 && run.byteLength == run.sampleCount * run.stride

/-- Samples in all chunks, at most the greatest 64-bit number. -/
def totalSamples (run : Run) : Nat :=
  min (run.sampleCount * run.chunkCount) (UInt64.size - 1)

/-- Where a chunk of the run starts. -/
def chunkOffset (run : Run) (chunk : Nat) : Nat :=
  run.offset + chunk * run.chunkStride

/-- Whether `next` starts where `run` ends, in the same segment and with samples spaced alike. -/
def isContinuedBy (run next : Run) : Bool :=
  run.segment == next.segment && run.stride == next.stride && run.order == next.order &&
    run.chunkCount == 1 && next.chunkCount == 1 &&
    run.offset + run.byteLength == next.offset && run.isPacked && next.isPacked

/-- One run in place of `run` and the run `next` that continues it. -/
def merge (run next : Run) : Run :=
  { run with
    byteLength := run.byteLength + next.byteLength
    sampleCount := run.sampleCount + next.sampleCount
    chunkStride := run.byteLength + next.byteLength }

/-- Adds a run to `runs`, which has the latest first, merged into the latest if it continues
that. -/
def push : (runs : List Run) → (next : Run) → List Run
  | [], next => [next]
  | latest :: before, next =>
    if latest.isContinuedBy next then latest.merge next :: before else next :: latest :: before

end Run

end Tdms
