import Tdms.Segment

/-!
The scan that finds all segments of a source.

Segments are read from front to back, each from where the one before it ends.
The scan stops at the end of the source or at the first error.
-/

namespace Tdms

/-- What a scan found: segments in file order, where it stopped, and the error that stopped it. -/
structure Scan where
  segments : List Segment
  /-- Where the segment after the last one starts, or would start. -/
  stop : Nat
  error? : Option Error
  deriving DecidableEq, Inhabited

/-- Scans `source` from the segment at `offset` on. -/
def scanFrom (source : Source) (offset ordinal : Nat) : Scan :=
  match found : Segment.read source offset ordinal with
  | .error error => ⟨[], offset, some error⟩
  | .ok none => ⟨[], offset, none⟩
  | .ok (some (segment, next)) =>
    let rest := scanFrom source next (ordinal + 1)
    { rest with segments := segment :: rest.segments }
termination_by source.length - offset
decreasing_by
  obtain ⟨after, inside⟩ := Segment.next_of_read found
  simp only [leadInLength] at after
  omega

/-- All segments of `source`. -/
def scan (source : Source) : Scan :=
  scanFrom source 0 0

end Tdms
