import Mathlib
import Tdms.Proofs.Draft
import Tdms.Proofs.Metadata.Codec
import Tdms.Proofs.Segment
import Tdms.Proofs.Window

/-!
Drafts are found again by a scan of the bytes they are written as.

`Draft.segmentAt` is the segment that a draft becomes at some place of a file.
A scan finds the segments of all drafts, one after another, and stops without
an error at the end of the file.
-/

namespace Tdms

namespace Draft

variable {content : ByteArray} {before after : List UInt8} {draft : Draft}

/-- The segment that a draft becomes at `offset`. -/
def segmentAt (ordinal offset : Nat) (draft : Draft) : Segment where
  ordinal := ordinal
  offset := offset
  leadIn := draft.leadIn
  metadataOffset := offset + leadInLength
  metadata := if draft.contents.hasMetadata then some draft.metadataBytes.toByteArray else none
  dataOffset := offset + leadInLength + draft.metadataBytes.length
  dataLength := draft.dataBytes.length

/-- What the writer relies on: a segment is short enough for its lead-in, and raw data is flagged
as such. -/
structure Writable (draft : Draft) : Prop where
  size_lt : draft.metadataBytes.length + draft.dataBytes.length < UInt64.size - 1
  flagged : draft.contents.hasRawData = false → draft.dataBytes = []

theorem length_bytes (draft : Draft) : draft.bytes.length =
    leadInLength + draft.metadataBytes.length + draft.dataBytes.length := by
  rw [bytes, List.length_append, List.length_append, LeadIn.length_encode]

theorem leadIn_rawDataOffset (writable : draft.Writable) :
    draft.leadIn.rawDataOffset.toNat = draft.metadataBytes.length := by
  have small := writable.size_lt
  exact UInt64.toNat_ofNat_of_lt' (by omega)

theorem leadIn_nextSegmentOffset (writable : draft.Writable) (finished : draft.unfinished = false) :
    draft.leadIn.nextSegmentOffset.toNat =
      draft.metadataBytes.length + draft.dataBytes.length := by
  have small := writable.size_lt
  rw [leadIn, finished]
  exact UInt64.toNat_ofNat_of_lt' (by omega)

theorem leadIn_isUnfinished (writable : draft.Writable) :
    draft.leadIn.isUnfinished = draft.unfinished := by
  have small := writable.size_lt
  unfold LeadIn.isUnfinished
  cases unfinished : draft.unfinished with
  | true =>
    rw [leadIn, unfinished]
    rfl
  | false =>
    rw [beq_eq_false_iff_ne]
    intro same
    have next := leadIn_nextSegmentOffset writable unfinished
    rw [same] at next
    have marker : LeadIn.unfinished.toNat = UInt64.size - 1 := rfl
    omega

theorem leadIn_valid (writable : draft.Writable) : draft.leadIn.Valid := by
  refine ⟨by simp [leadIn, LeadIn.supportedVersions], ?_⟩
  rw [leadIn_isUnfinished writable]
  cases finished : draft.unfinished with
  | true => exact .inl rfl
  | false =>
    right
    rw [UInt64.le_iff_toNat_le, leadIn_rawDataOffset writable,
      leadIn_nextSegmentOffset writable finished]
    omega

/-- A draft in the middle of a file is read as its segment. If its writer left it unfinished, it
must be the last. -/
theorem read_segment (writable : draft.Writable)
    (whole : content.data.toList = before ++ (draft.bytes ++ after)) (ordinal : Nat)
    (short : content.size < UInt64.size) (last : draft.unfinished = true → after = []) :
    Segment.read (.ofBytes content) before.length ordinal =
      .ok (some (draft.segmentAt ordinal before.length,
        before.length + draft.bytes.length)) := by
  have size := size_of_toList whole
  rw [List.length_append, List.length_append] at size
  have length := length_bytes draft
  have reported : (Source.ofBytes content).length = content.size := rfl
  rw [Segment.read_eq_ok]
  refine ⟨draft.leadIn, before.length + leadInLength + draft.metadataBytes.length,
    if draft.contents.hasMetadata then some draft.metadataBytes.toByteArray else none,
    ?_, ?_, ?_, ?_⟩
  · have opening : (window content before.length leadInLength).data.toList =
        draft.leadIn.encode := by
      rw [bytes, List.append_assoc, List.append_assoc] at whole
      exact window_of_append whole rfl (LeadIn.length_encode _)
    have start : ¬ content.size ≤ before.length := by
      simp only [leadInLength] at length
      omega
    have room : ¬ content.size < before.length + leadInLength := by omega
    rw [Segment.readLeadIn, reported, if_neg start, if_neg room, read_ofBytes (by omega)]
    dsimp only
    rw [opening, LeadIn.decode_encode (leadIn_valid writable)]
  · have declared : Segment.declaredLength content.size before.length draft.leadIn =
        draft.metadataBytes.length + draft.dataBytes.length := by
      rw [Segment.declaredLength, leadIn_isUnfinished writable]
      split
      · rename_i unfinished
        rw [last unfinished, List.length_nil] at size
        omega
      · rename_i finished
        exact leadIn_nextSegmentOffset writable (Bool.not_eq_true _ ▸ finished)
    rw [Source.length_ofBytes, Segment.bounds_eq_ok, declared, leadIn_rawDataOffset writable]
    omega
  · rw [Segment.readMetadata, leadIn_rawDataOffset writable]
    change (if draft.contents.hasMetadata then _ else _) = _
    split
    · rename_i flag
      have block : (window content (before.length + leadInLength)
          draft.metadataBytes.length).data.toList = draft.metadataBytes := by
        have parts : content.data.toList = (before ++ draft.leadIn.encode) ++
            (draft.metadataBytes ++ (draft.dataBytes ++ after)) := by
          rw [whole, bytes]
          simp only [List.append_assoc]
        refine window_of_append parts ?_ rfl
        rw [List.length_append, LeadIn.length_encode]
      have taken : window content (before.length + leadInLength) draft.metadataBytes.length =
          draft.metadataBytes.toByteArray := by
        rw [← toByteArray_toList (window _ _ _), block]
      rw [read_ofBytes (by omega), taken]
    · rfl
  · have data : (if draft.leadIn.contents.hasRawData then
        before.length + draft.bytes.length -
          (before.length + leadInLength + draft.metadataBytes.length) else 0) =
        draft.dataBytes.length := by
      split
      · omega
      · rename_i flag
        rw [writable.flagged (Bool.not_eq_true _ ▸ flag), List.length_nil]
    rw [data]
    rfl

/-! ## Whole files -/

theorem toList_file (drafts : List Draft) : (file drafts).data.toList = drafts.flatMap bytes := by
  rw [file, List.data_toByteArray]

/-- The segments that drafts become, the first of them at `offset`. -/
def segmentsFrom : (ordinal offset : Nat) → List Draft → List Segment
  | _, _, [] => []
  | ordinal, offset, draft :: rest =>
    draft.segmentAt ordinal offset ::
      segmentsFrom (ordinal + 1) (offset + draft.bytes.length) rest

/-- A scan finds the segments of all drafts from some place on, and nothing else. -/
theorem scanFrom_drafts {drafts : List Draft} (writable : ∀ draft ∈ drafts, draft.Writable)
    (finished : ∀ draft ∈ drafts.dropLast, draft.unfinished = false)
    (whole : content.data.toList = before ++ drafts.flatMap bytes)
    (short : content.size < UInt64.size) (ordinal : Nat) :
    scanFrom (.ofBytes content) before.length ordinal =
      ⟨segmentsFrom ordinal before.length drafts, content.size, none⟩ := by
  induction drafts generalizing before ordinal with
  | nil =>
    have ended := size_of_toList whole
    rw [List.flatMap_nil, List.append_nil] at ended
    rw [scanFrom_of_none (Segment.read_end ended.le), segmentsFrom, ended]
  | cons draft rest ih =>
    rcases List.forall_mem_cons.1 writable with ⟨first, others⟩
    rw [List.flatMap_cons] at whole
    have last : draft.unfinished = true → rest.flatMap bytes = [] := by
      intro unfinished
      cases rest with
      | nil => rfl
      | cons next later =>
        have closed := finished draft List.mem_cons_self
        rw [closed] at unfinished
        cases unfinished
    have tail : ∀ other ∈ rest.dropLast, other.unfinished = false := by
      intro other listed
      cases rest with
      | nil => cases listed
      | cons next later => exact finished other (List.mem_cons_of_mem _ listed)
    have parts : content.data.toList = (before ++ draft.bytes) ++ rest.flatMap bytes := by
      rw [whole, List.append_assoc]
    have found := ih others tail parts (ordinal + 1)
    rw [List.length_append] at found
    rw [scanFrom_of_some (read_segment first whole ordinal short last), found, segmentsFrom]

/-- A scan of a file of drafts finds the segments of all drafts and stops at its end. -/
theorem scan_file {drafts : List Draft} (writable : ∀ draft ∈ drafts, draft.Writable)
    (finished : ∀ draft ∈ drafts.dropLast, draft.unfinished = false)
    (short : (file drafts).size < UInt64.size) :
    scan (.ofBytes (file drafts)) = ⟨segmentsFrom 0 0 drafts, (file drafts).size, none⟩ := by
  have whole : (file drafts).data.toList = [] ++ drafts.flatMap bytes := toList_file drafts
  exact scanFrom_drafts writable finished whole short 0

end Draft

end Tdms
