import Mathlib
import Tdms.Proofs.Outcome
import Tdms.Proofs.Segment.LeadIn
import Tdms.Proofs.Window
import Tdms.Segment.Scan

/-!
Where the parts of the segments of a scan lie.

`Segment.Reads` collects what a successful reading of one segment says, and
`Scanned` chains such readings, each from where the one before it ends. From
the chain follow the positions of all segments: they are numbered in order,
and the raw data of each ends before the next one starts.
-/

namespace Tdms

/-! ## One segment -/

namespace Segment

/-- What it means that the segment at `offset` was read and ends before `next`. -/
structure Reads (source : Source) (offset ordinal : Nat) (segment : Segment) (next : Nat) :
    Prop where
  ordinal_eq : segment.ordinal = ordinal
  offset_eq : segment.offset = offset
  metadataOffset_eq : segment.metadataOffset = offset + leadInLength
  valid : segment.leadIn.Valid
  metadata_read : readMetadata source offset segment.leadIn = .ok segment.metadata
  dataOffset_eq : segment.dataOffset = offset + leadInLength + segment.leadIn.rawDataOffset.toNat
  dataLength_eq : segment.dataLength =
    if segment.leadIn.contents.hasRawData then next - segment.dataOffset else 0
  next_eq : next = offset + leadInLength + declaredLength source.length offset segment.leadIn
  next_le : next ≤ source.length
  dataOffset_le : segment.dataOffset ≤ source.length
  next_lt : next < UInt64.size

theorem valid_of_readLeadIn {source : Source} {offset : Nat} {leadIn : LeadIn}
    (found : readLeadIn source offset = .ok (some leadIn)) : leadIn.Valid := by
  unfold readLeadIn at found
  split at found
  · cases found
  · split at found
    · cases found
    · split at found
      · cases found
      · split at found
        · cases found
        · rename_i decoded
          cases found
          exact LeadIn.valid_of_decode decoded

theorem bounds_eq_ok {available offset next data : Nat} {leadIn : LeadIn} :
    bounds available offset leadIn = .ok (next, data) ↔
      next = offset + leadInLength + declaredLength available offset leadIn ∧
        data = offset + leadInLength + leadIn.rawDataOffset.toNat ∧
        next < UInt64.size ∧ data < UInt64.size ∧ next ≤ available ∧ data ≤ available := by
  simp only [bounds]
  split
  · rename_i large
    simp only [reduceCtorEq, false_iff]
    rintro ⟨rfl, -, small, -⟩
    omega
  · split
    · rename_i large
      simp only [reduceCtorEq, false_iff]
      rintro ⟨-, rfl, -, small, -⟩
      omega
    · split
      · rename_i nextSmall dataSmall inside
        simp only [Except.ok.injEq, Prod.mk.injEq]
        constructor
        · rintro ⟨rfl, rfl⟩
          exact ⟨rfl, rfl, not_le.1 nextSmall, not_le.1 dataSmall, inside.1, inside.2⟩
        · rintro ⟨rfl, rfl, -⟩
          exact ⟨rfl, rfl⟩
      · rename_i outside
        simp only [reduceCtorEq, false_iff]
        rintro ⟨rfl, rfl, -, -, inside⟩
        exact outside inside

/-- A reading succeeds in three stages: the lead-in, the bounds and the metadata. -/
theorem read_eq_ok {source : Source} {offset ordinal next : Nat} {segment : Segment} :
    read source offset ordinal = .ok (some (segment, next)) ↔
      ∃ leadIn data metadata, readLeadIn source offset = .ok (some leadIn) ∧
        bounds source.length offset leadIn = .ok (next, data) ∧
        readMetadata source offset leadIn = .ok metadata ∧
        segment =
          { ordinal, offset, leadIn, metadataOffset := offset + leadInLength, metadata,
            dataOffset := data,
            dataLength := if leadIn.contents.hasRawData then next - data else 0 } := by
  unfold read
  split
  · simp_all
  · simp_all
  · rename_i leadIn opened
    rw [opened]
    split
    · simp_all
    · rename_i found data bounded
      split
      · simp_all
      · rename_i metadata taken
        constructor
        · intro answer
          cases answer
          exact ⟨leadIn, data, metadata, rfl, bounded, taken, rfl⟩
        · rintro ⟨_, _, _, same, placed, again, rfl⟩
          cases same
          cases bounded.symm.trans placed
          cases taken.symm.trans again
          rfl

theorem Reads.of_read {source : Source} {offset ordinal next : Nat} {segment : Segment}
    (found : read source offset ordinal = .ok (some (segment, next))) :
    Reads source offset ordinal segment next := by
  obtain ⟨leadIn, data, metadata, opened, bounded, taken, rfl⟩ := read_eq_ok.1 found
  obtain ⟨nextPlace, dataPlace, nextSmall, -, nextInside, dataInside⟩ := bounds_eq_ok.1 bounded
  exact
    { ordinal_eq := rfl
      offset_eq := rfl
      metadataOffset_eq := rfl
      valid := valid_of_readLeadIn opened
      metadata_read := taken
      dataOffset_eq := dataPlace
      dataLength_eq := rfl
      next_eq := nextPlace
      next_le := nextInside
      dataOffset_le := dataInside
      next_lt := nextSmall }

section

variable {source : Source} {offset ordinal next : Nat} {segment : Segment}

theorem Reads.leadIn_le (reads : Reads source offset ordinal segment next) :
    offset + leadInLength ≤ segment.dataOffset := by
  rw [reads.dataOffset_eq]
  exact Nat.le_add_right _ _

/-- The raw data starts no later than the segment ends. -/
theorem Reads.dataOffset_le_next (reads : Reads source offset ordinal segment next) :
    segment.dataOffset ≤ next := by
  have placed := reads.dataOffset_eq
  have ends := reads.next_eq
  rcases reads.valid.2 with unfinished | ordered
  · have inside := reads.dataOffset_le
    have start := reads.leadIn_le
    rw [declaredLength, if_pos unfinished] at ends
    omega
  · have bound : segment.leadIn.rawDataOffset.toNat ≤ segment.leadIn.nextSegmentOffset.toNat :=
      ordered
    by_cases unfinished : segment.leadIn.isUnfinished = true
    · have inside := reads.dataOffset_le
      have start := reads.leadIn_le
      rw [declaredLength, if_pos unfinished] at ends
      omega
    · rw [declaredLength, if_neg unfinished] at ends
      omega

/-- The raw data ends no later than the segment. -/
theorem Reads.endOffset_le (reads : Reads source offset ordinal segment next) :
    segment.endOffset ≤ next := by
  have start := reads.dataOffset_le_next
  rw [endOffset, reads.dataLength_eq]
  split
  · omega
  · omega

end

/-- There is no segment at the end of a source. -/
theorem read_end {source : Source} {offset ordinal : Nat} (ended : source.length ≤ offset) :
    read source offset ordinal = .ok none := by
  rw [read, readLeadIn, if_pos ended]

end Segment

/-! ## Errors -/

/-- The errors that end a scan whose source grants every read inside it. -/
def Error.EndsScan : Error → Prop
  | .corruptHeader _ _ | .truncated _ _ _ => True
  | _ => False

namespace Segment

variable {source : Source} {content : ByteArray}

theorem readLeadIn_fails (grants : source.Grants content) (offset : Nat) :
    Outcome.FailsOnly Error.EndsScan (readLeadIn source offset) := by
  unfold readLeadIn
  split
  · exact .ok _
  · split
    · exact .error trivial
    · rename_i room
      rw [grants.length_eq] at room
      rw [grants.read_eq _ _ (not_lt.1 room)]
      dsimp only
      split
      · exact .error trivial
      · exact .ok _

theorem bounds_fails (available offset : Nat) (leadIn : LeadIn) :
    Outcome.FailsOnly Error.EndsScan (bounds available offset leadIn) := by
  simp only [bounds]
  split
  · exact .error trivial
  · split
    · exact .error trivial
    · split
      · exact .ok _
      · exact .error trivial

/-- Metadata that ends inside the source is read. -/
theorem readMetadata_fails (grants : source.Grants content) {offset next data : Nat}
    {leadIn : LeadIn} (bounded : bounds source.length offset leadIn = .ok (next, data)) :
    Outcome.FailsOnly Error.EndsScan (readMetadata source offset leadIn) := by
  rcases bounds_eq_ok.1 bounded with ⟨-, rfl, -, -, -, inside⟩
  rw [grants.length_eq] at inside
  rw [readMetadata, grants.read_eq _ _ inside]
  split
  · exact .ok _
  · exact .ok _

theorem read_fails (grants : source.Grants content) (offset ordinal : Nat) :
    Outcome.FailsOnly Error.EndsScan (read source offset ordinal) := by
  intro error failed
  unfold read at failed
  split at failed
  · rename_i refused
    cases failed
    exact readLeadIn_fails grants offset error refused
  · cases failed
  · split at failed
    · rename_i refused
      cases failed
      exact bounds_fails source.length offset _ error refused
    · rename_i bounded
      split at failed
      · rename_i refused
        cases failed
        exact readMetadata_fails grants bounded error refused
      · cases failed

end Segment

/-! ## Steps of a scan -/

theorem scanFrom_of_none {source : Source} {offset ordinal : Nat}
    (stopped : Segment.read source offset ordinal = .ok none) :
    scanFrom source offset ordinal = ⟨[], offset, none⟩ := by
  unfold scanFrom
  split
  · rename_i error found
    rw [stopped] at found
    cases found
  · rfl
  · rename_i segment next found
    rw [stopped] at found
    cases found

theorem scanFrom_of_error {source : Source} {offset ordinal : Nat} {error : Error}
    (failed : Segment.read source offset ordinal = .error error) :
    scanFrom source offset ordinal = ⟨[], offset, some error⟩ := by
  unfold scanFrom
  split
  · rename_i other found
    rw [failed] at found
    cases found
    rfl
  · rename_i found
    rw [failed] at found
    cases found
  · rename_i segment next found
    rw [failed] at found
    cases found

theorem scanFrom_of_some {source : Source} {offset ordinal next : Nat} {segment : Segment}
    (read : Segment.read source offset ordinal = .ok (some (segment, next))) :
    scanFrom source offset ordinal =
      { scanFrom source next (ordinal + 1) with
        segments := segment :: (scanFrom source next (ordinal + 1)).segments } := by
  rw [scanFrom]
  split
  · rename_i error found
    rw [read] at found
    cases found
  · rename_i found
    rw [read] at found
    cases found
  · rename_i other after found
    rw [read] at found
    cases found
    rfl

/-- A scan ends in an error only at a corrupt header or a truncated segment. -/
theorem scanFrom_fails {source : Source} {content : ByteArray} (grants : source.Grants content)
    (offset ordinal : Nat) :
    ∀ error, (scanFrom source offset ordinal).error? = some error → error.EndsScan := by
  fun_induction scanFrom source offset ordinal with
  | case1 offset ordinal error found =>
    intro other same
    cases same
    exact Segment.read_fails grants offset ordinal error found
  | case2 offset ordinal found => nofun
  | case3 offset ordinal segment next found rest ih => exact ih

/-! ## The segments of a scan -/

/-- Segments that were read one after another, the first of them at `offset`. -/
inductive Scanned (source : Source) : (offset ordinal : Nat) → List Segment → Prop
  | done {offset ordinal : Nat} : Scanned source offset ordinal []
  | more {offset ordinal next : Nat} {segment : Segment} {rest : List Segment} :
    Segment.Reads source offset ordinal segment next → Scanned source next (ordinal + 1) rest →
      Scanned source offset ordinal (segment :: rest)

theorem scanFrom_scanned (source : Source) (offset ordinal : Nat) :
    Scanned source offset ordinal (scanFrom source offset ordinal).segments := by
  fun_induction scanFrom source offset ordinal with
  | case1 offset ordinal error found => exact .done
  | case2 offset ordinal found => exact .done
  | case3 offset ordinal segment next found rest ih =>
    exact .more (.of_read found) ih

theorem scan_scanned (source : Source) : Scanned source 0 0 (scan source).segments :=
  scanFrom_scanned source 0 0

namespace Scanned

variable {source : Source} {offset ordinal : Nat} {segments : List Segment}

theorem take (scanned : Scanned source offset ordinal segments) (count : Nat) :
    Scanned source offset ordinal (segments.take count) := by
  induction scanned generalizing count with
  | done => simpa using Scanned.done
  | more reads _ ih =>
    cases count with
    | zero => exact .done
    | succ count => exact .more reads (ih count)

/-- Segments are numbered in order. -/
theorem ordinal_of_getElem? (scanned : Scanned source offset ordinal segments) {position : Nat}
    {segment : Segment} (found : segments[position]? = some segment) :
    segment.ordinal = ordinal + position := by
  induction scanned generalizing position with
  | done => simp at found
  | more reads _ ih =>
    cases position with
    | zero =>
      cases found
      exact reads.ordinal_eq
    | succ position =>
      have later := ih found
      omega

/-- All segments start at the offset of the first or after it, and end inside the source. -/
theorem bounds_of_mem (scanned : Scanned source offset ordinal segments) {segment : Segment}
    (listed : segment ∈ segments) :
    ordinal ≤ segment.ordinal ∧ offset + leadInLength ≤ segment.dataOffset ∧
      segment.endOffset ≤ source.length ∧ segment.endOffset < UInt64.size := by
  induction scanned with
  | done => cases listed
  | more reads _ ih =>
    have inside := reads.endOffset_le
    have limit := reads.next_le
    have small := reads.next_lt
    rcases List.mem_cons.1 listed with rfl | later
    · exact ⟨reads.ordinal_eq.ge, reads.leadIn_le, inside.trans limit, inside.trans_lt small⟩
    · obtain ⟨number, start, ends, fits⟩ := ih later
      have first := reads.leadIn_le
      have order := reads.dataOffset_le_next
      exact ⟨by omega, by omega, ends, fits⟩

/-- Of two segments the earlier one has the lower number, and its raw data ends before the raw
data of the later one starts. -/
theorem pairwise (scanned : Scanned source offset ordinal segments) :
    segments.Pairwise fun before after =>
      before.ordinal < after.ordinal ∧ before.endOffset < after.dataOffset := by
  induction scanned with
  | done => exact .nil
  | more reads later ih =>
    refine List.pairwise_cons.2 ⟨fun other listed => ?_, ih⟩
    obtain ⟨number, start, -⟩ := later.bounds_of_mem listed
    have ends := reads.endOffset_le
    have same := reads.ordinal_eq
    simp only [leadInLength] at start
    exact ⟨by omega, by omega⟩

end Scanned

end Tdms
