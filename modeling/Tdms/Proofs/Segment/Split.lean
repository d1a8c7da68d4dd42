import Mathlib
import Tdms.Proofs.Draft.Scan
import Tdms.Proofs.Segment.Append

/-!
Segments that are cut in two.

`splitAt` lets the raw data of a segment end early. The rest of it goes on behind
a lead-in of its own, and all later bytes with it. `scan_splitAt` says what a
scan finds then: the same segments, but the two parts of one in its place.
-/

namespace Tdms

variable {content : ByteArray} {segment : Segment} {kept : Nat} {following : LeadIn}

namespace Segment

/-- The segment with the first `kept` bytes of its raw data alone. -/
def front (kept : Nat) (segment : Segment) : Segment :=
  { segment with
    leadIn :=
      { segment.leadIn with
        nextSegmentOffset := .ofNat (segment.leadIn.rawDataOffset.toNat + kept) }
    dataLength := kept }

/-- The segment of the raw data behind the first `kept` bytes, which has no metadata. -/
def back (kept : Nat) (following : LeadIn) (segment : Segment) : Segment where
  ordinal := segment.ordinal + 1
  offset := segment.dataOffset + kept
  leadIn := following
  metadataOffset := segment.dataOffset + kept + leadInLength
  metadata := none
  dataOffset := segment.dataOffset + kept + leadInLength
  dataLength := segment.dataLength - kept

end Segment

/-- The lead-in announces what is left of the raw data of `segment` behind its first `kept` bytes:
no metadata, and raw data in the same order and layout. -/
structure LeadIn.Continues (following : LeadIn) (segment : Segment) (kept : Nat) : Prop where
  version : following.version ∈ supportedVersions
  hasMetadata : following.contents.hasMetadata = false
  hasRawData : following.contents.hasRawData = true
  isInterleaved_eq : following.contents.isInterleaved = segment.isInterleaved
  order_eq : following.order = segment.order
  rawDataOffset_eq : following.rawDataOffset = 0
  nextSegmentOffset_eq : following.nextSegmentOffset.toNat = segment.dataLength - kept

instance (following : LeadIn) (segment : Segment) (kept : Nat) :
    Decidable (following.Continues segment kept) :=
  decidable_of_iff
    (following.version ∈ LeadIn.supportedVersions ∧ following.contents.hasMetadata = false ∧
      following.contents.hasRawData = true ∧
      following.contents.isInterleaved = segment.isInterleaved ∧
      following.order = segment.order ∧ following.rawDataOffset = 0 ∧
      following.nextSegmentOffset.toNat = segment.dataLength - kept)
    ⟨fun ⟨version, metadata, data, layout, order, start, length⟩ =>
      ⟨version, metadata, data, layout, order, start, length⟩,
    fun continues => ⟨continues.1, continues.2, continues.3, continues.4, continues.5,
      continues.6, continues.7⟩⟩

/-- The bytes of a lead-in. -/
def LeadIn.bytes (leadIn : LeadIn) : ByteArray :=
  leadIn.encode.toByteArray

/-- The content up to the first `kept` bytes of raw data of `segment`, which ends there. -/
def splitFront (content : ByteArray) (segment : Segment) (kept : Nat) : ByteArray :=
  window content 0 segment.offset ++
    ((segment.front kept).leadIn.bytes ++
      window content segment.metadataOffset (segment.leadIn.rawDataOffset.toNat + kept))

/-- The content in which `segment` ends behind `kept` bytes of its raw data, and what is left of
that lies in a segment of its own behind the lead-in `following`. -/
def splitAt (content : ByteArray) (segment : Segment) (kept : Nat) (following : LeadIn) :
    ByteArray :=
  splitFront content segment kept ++
    (following.bytes ++
      window content (segment.dataOffset + kept) (content.size - (segment.dataOffset + kept)))

/-! ## Windows onto the parts -/

namespace LeadIn

theorem size_bytes (leadIn : LeadIn) : leadIn.bytes.size = leadInLength := by
  have whole : leadIn.bytes.data.toList = leadIn.encode := by rw [bytes, List.data_toByteArray]
  rw [size_of_toList whole, length_encode]

theorem decode_bytes {leadIn : LeadIn} (valid : leadIn.Valid) :
    decode leadIn.bytes.data.toList = .ok leadIn := by
  rw [bytes, List.data_toByteArray]
  exact decode_encode valid

end LeadIn

section

variable (placed : segment.Placed content) (room : segment.dataOffset + kept ≤ content.size)
include placed room

theorem size_before : (window content 0 segment.offset).size = segment.offset := by
  have metadata := placed.metadataOffset_eq
  have data := placed.dataOffset_eq
  exact size_window (by omega)

theorem size_splitFront : (splitFront content segment kept).size = segment.dataOffset + kept := by
  have metadata := placed.metadataOffset_eq
  have data := placed.dataOffset_eq
  rw [splitFront, ByteArray.size_append, ByteArray.size_append, LeadIn.size_bytes,
    size_before placed room, size_window (by omega)]
  omega

theorem size_splitAt :
    (splitAt content segment kept following).size = leadInLength + content.size := by
  rw [splitAt, ByteArray.size_append, ByteArray.size_append, LeadIn.size_bytes,
    size_splitFront placed room, size_window (by omega)]
  omega

/-- Before the cut, only the first part shows. -/
theorem window_splitAt {offset length : Nat}
    (before : offset + length ≤ segment.dataOffset + kept) :
    window (splitAt content segment kept following) offset length =
      window (splitFront content segment kept) offset length :=
  window_append_left (before.trans_eq (size_splitFront placed room).symm) _

/-- What lies before the segment is kept. -/
theorem window_splitAt_before {offset length : Nat} (before : offset + length ≤ segment.offset) :
    window (splitAt content segment kept following) offset length =
      window content offset length := by
  have metadata := placed.metadataOffset_eq
  have data := placed.dataOffset_eq
  rw [window_splitAt placed room (by omega), splitFront,
    window_append_left (before.trans_eq (size_before placed room).symm), window_window before,
    Nat.zero_add]

theorem window_splitAt_leadIn :
    window (splitAt content segment kept following) segment.offset leadInLength =
      (segment.front kept).leadIn.bytes := by
  have metadata := placed.metadataOffset_eq
  have data := placed.dataOffset_eq
  have size := (segment.front kept).leadIn.size_bytes
  have place : segment.offset = (window content 0 segment.offset).size + 0 :=
    (size_before placed room).symm
  rw [window_splitAt placed room (by omega), splitFront, window_append_right place,
    window_append_left (by omega), ← size, window_whole]

/-- The metadata and the first bytes of raw data are kept where they are. -/
theorem window_splitAt_front {offset length : Nat} (after : segment.metadataOffset ≤ offset)
    (before : offset + length ≤ segment.dataOffset + kept) :
    window (splitAt content segment kept following) offset length =
      window content offset length := by
  have metadata := placed.metadataOffset_eq
  have data := placed.dataOffset_eq
  obtain ⟨start, rfl⟩ := Nat.exists_eq_add_of_le after
  have place : segment.metadataOffset + start = (window content 0 segment.offset).size +
      ((segment.front kept).leadIn.bytes.size + start) := by
    rw [size_before placed room, LeadIn.size_bytes]
    omega
  rw [window_splitAt placed room before, splitFront, window_append_right place,
    window_append_right rfl, window_window (by omega)]

theorem window_splitAt_following :
    window (splitAt content segment kept following) (segment.dataOffset + kept) leadInLength =
      following.bytes := by
  have size := following.size_bytes
  have place : segment.dataOffset + kept = (splitFront content segment kept).size + 0 :=
    (size_splitFront placed room).symm
  rw [splitAt, window_append_right place, window_append_left (by omega), ← size, window_whole]

/-- What lies behind the cut is moved by the new lead-in. -/
theorem moved_splitAt : Moved content (splitAt content segment kept following) leadInLength
    (segment.dataOffset + kept) := by
  refine ⟨size_splitAt placed room, fun offset length after inside => ?_⟩
  obtain ⟨start, rfl⟩ := Nat.exists_eq_add_of_le after
  have place : leadInLength + (segment.dataOffset + kept + start) =
      (splitFront content segment kept).size + (following.bytes.size + start) := by
    rw [size_splitFront placed room, LeadIn.size_bytes]
    omega
  rw [splitAt, window_append_right place, window_append_right rfl, window_window (by omega)]

end

/-! ## The two parts -/

theorem LeadIn.isUnfinished_of_le {leadIn other : LeadIn} (finished : other.isUnfinished = false)
    (before : leadIn.nextSegmentOffset.toNat ≤ other.nextSegmentOffset.toNat) :
    leadIn.isUnfinished = false := by
  unfold isUnfinished at finished ⊢
  rw [beq_eq_false_iff_ne, ne_eq, ← UInt64.toNat_inj] at finished ⊢
  have largest : unfinished.toNat = UInt64.size - 1 := rfl
  have bound := other.nextSegmentOffset.toNat_lt_size
  omega

namespace Segment

section

variable {next : Nat}
  (reads : Reads (.ofBytes content) segment.offset segment.ordinal segment next)
  (finished : segment.leadIn.isUnfinished = false)
include reads finished

/-- The raw data of a finished segment goes on to its end. -/
theorem Reads.endOffset_eq (data : segment.leadIn.contents.hasRawData = true) :
    next = segment.endOffset ∧ segment.leadIn.nextSegmentOffset.toNat =
      segment.leadIn.rawDataOffset.toNat + segment.dataLength := by
  have ends := reads.next_eq
  have place := reads.dataOffset_eq
  have order := reads.dataOffset_le_next
  have length := reads.dataLength_eq
  rw [declaredLength, finished, if_neg Bool.false_ne_true] at ends
  rw [if_pos data] at length
  rw [endOffset]
  omega

variable (data : segment.leadIn.contents.hasRawData = true) (within : kept ≤ segment.dataLength)
  (total : leadInLength + content.size < UInt64.size)
include data within total

/-- The first part is read where the segment was. -/
theorem read_front :
    read (.ofBytes (splitAt content segment kept following)) segment.offset segment.ordinal =
      .ok (some (segment.front kept, segment.dataOffset + kept)) := by
  obtain ⟨ends, declared⟩ := reads.endOffset_eq finished data
  have placed := reads.placed
  have metadata := placed.metadataOffset_eq
  have start := placed.dataOffset_eq
  have inside : next ≤ content.size := reads.next_le
  unfold endOffset at ends
  have room : segment.dataOffset + kept ≤ content.size := by omega
  have size := @size_splitAt content segment kept following placed room
  have length : (Source.ofBytes (splitAt content segment kept following)).length =
      leadInLength + content.size := size
  have stop : (segment.front kept).leadIn.nextSegmentOffset.toNat =
      segment.leadIn.rawDataOffset.toNat + kept := UInt64.toNat_ofNat_of_lt' (by omega)
  have closed : (segment.front kept).leadIn.isUnfinished = false :=
    LeadIn.isUnfinished_of_le finished (by omega)
  have valid : (segment.front kept).leadIn.Valid :=
    ⟨reads.valid.1, .inr (UInt64.le_iff_toNat_le.2 (stop ▸ Nat.le_add_right _ _))⟩
  refine read_eq_ok.2 ⟨(segment.front kept).leadIn, segment.dataOffset, segment.metadata, ?_, ?_,
    ?_, ?_⟩
  · refine readLeadIn_eq_some.2 ⟨by omega, _, read_ofBytes (by omega), ?_⟩
    rw [window_splitAt_leadIn placed room, LeadIn.decode_bytes valid]
  · have raw : (segment.front kept).leadIn.rawDataOffset = segment.leadIn.rawDataOffset := rfl
    rw [bounds_eq_ok, declaredLength, closed, if_neg Bool.false_ne_true, stop, length, raw]
    omega
  · have taken := reads.metadata_read
    have raw : (segment.front kept).leadIn.rawDataOffset = segment.leadIn.rawDataOffset := rfl
    have flags : (segment.front kept).leadIn.contents = segment.leadIn.contents := rfl
    rw [readMetadata, read_ofBytes (by omega)] at taken
    rw [readMetadata, flags, raw, read_ofBytes (by omega),
      window_splitAt_front placed room (by omega) (by omega)]
    exact taken
  · have flags : (segment.front kept).leadIn.contents = segment.leadIn.contents := rfl
    rw [flags, if_pos data, Nat.add_sub_cancel_left, ← metadata]
    rfl

/-- The second part is read where the first one ends, and reaches as far as the segment did. -/
theorem read_back (continues : following.Continues segment kept) :
    read (.ofBytes (splitAt content segment kept following)) (segment.dataOffset + kept)
        (segment.ordinal + 1) =
      .ok (some (segment.back kept following, leadInLength + next)) := by
  obtain ⟨ends, declared⟩ := reads.endOffset_eq finished data
  have placed := reads.placed
  have inside : next ≤ content.size := reads.next_le
  unfold endOffset at ends
  have room : segment.dataOffset + kept ≤ content.size := by omega
  have size := @size_splitAt content segment kept following placed room
  have length : (Source.ofBytes (splitAt content segment kept following)).length =
      leadInLength + content.size := size
  have stop := continues.nextSegmentOffset_eq
  have none : following.rawDataOffset.toNat = 0 := by
    rw [continues.rawDataOffset_eq]
    rfl
  have closed : following.isUnfinished = false :=
    LeadIn.isUnfinished_of_le finished (by omega)
  have valid : following.Valid :=
    ⟨continues.version, .inr (UInt64.le_iff_toNat_le.2 (none ▸ Nat.zero_le _))⟩
  refine read_eq_ok.2 ⟨following, segment.dataOffset + kept + leadInLength, Option.none, ?_, ?_,
    ?_, ?_⟩
  · refine readLeadIn_eq_some.2 ⟨by omega, _, read_ofBytes (by omega), ?_⟩
    rw [window_splitAt_following placed room, LeadIn.decode_bytes valid]
  · rw [bounds_eq_ok, declaredLength, closed, if_neg Bool.false_ne_true, stop, length, none]
    omega
  · rw [readMetadata, continues.hasMetadata, if_neg Bool.false_ne_true]
  · have left : leadInLength + next - (segment.dataOffset + kept + leadInLength) =
        segment.dataLength - kept := by omega
    rw [continues.hasRawData, if_pos rfl, left]
    rfl

end

end Segment

/-! ## Scans -/

/-- Where a segment is cut in two, a scan finds its parts in its place. The segments before it are
those it found before, and the others are moved by the new lead-in. -/
theorem scan_splitAt {before after : List Segment}
    (found : (scan (.ofBytes content)).segments = before ++ segment :: after)
    (ended : (scan (.ofBytes content)).error? = none)
    (finished : segment.leadIn.isUnfinished = false)
    (data : segment.leadIn.contents.hasRawData = true) (within : kept ≤ segment.dataLength)
    (total : leadInLength + content.size < UInt64.size)
    (continues : following.Continues segment kept) :
    (scan (.ofBytes (splitAt content segment kept following))).segments =
        before ++ segment.front kept :: segment.back kept following ::
          after.map (Segment.shift leadInLength 1) ∧
      (scan (.ofBytes (splitAt content segment kept following))).error? = none := by
  have whole : Trail (.ofBytes content) 0 0 (scan (.ofBytes content)).segments
      (scan (.ofBytes content)).stop := trail_scanFrom (.ofBytes content) 0 0
  have ends : content.size ≤ (scan (.ofBytes content)).stop := length_le_stop ended
  rw [found] at whole
  obtain ⟨next, reads, number, first, rest⟩ := whole.exists_of_append
  obtain ⟨stop, -⟩ := reads.endOffset_eq finished data
  have inside : next ≤ content.size := reads.next_le
  have placed := reads.placed
  have start := reads.leadIn_le
  unfold Segment.endOffset at stop
  have room : segment.dataOffset + kept ≤ content.size := by omega
  have size := @size_splitAt content segment kept following placed room
  have cut := @window_append_window content segment.offset (by omega)
  have early : Trail (.ofBytes (splitAt content segment kept following)) 0 0 before
      segment.offset := by
    have positive : 0 < leadInLength := by decide
    have more : segment.offset < content.size := by omega
    have closed := first.finished_of_lt more
    rw [← cut] at first
    rw [splitAt, splitFront, ByteArray.append_assoc]
    exact ((Trail.append_right_iff closed (Nat.zero_le _)).1
      ((Trail.append_right_iff closed (Nat.zero_le _)).2 ⟨first, (size_before placed room).ge⟩)).1
  have change := @moved_splitAt content segment kept following placed room
  have late := rest.moved change (by omega) (by omega) 1
  rw [Nat.add_comm 1] at late
  have parts : Trail (.ofBytes (splitAt content segment kept following)) 0 0
      (before ++ segment.front kept :: segment.back kept following ::
        after.map (Segment.shift leadInLength 1))
      (leadInLength + (scan (.ofBytes content)).stop) := by
    refine Trail.append_iff.2 ⟨segment.offset, early, ?_⟩
    rw [← number]
    exact .more (Segment.read_front reads finished data within total)
      (.more (Segment.read_back reads finished data within total continues) late)
  have length : (Source.ofBytes (splitAt content segment kept following)).length =
      leadInLength + content.size := size
  rw [scan, parts.scanFrom_eq (by omega)]
  exact ⟨rfl, rfl⟩

/-- The segments around one of them stay clear of it. -/
theorem bounds_of_scan {before after : List Segment}
    (found : (scan (.ofBytes content)).segments = before ++ segment :: after) :
    segment.Placed content ∧ segment.endOffset ≤ content.size ∧
      (∀ early ∈ before, early.endOffset ≤ segment.offset) ∧
      ∀ late ∈ after, segment.endOffset ≤ late.dataOffset := by
  have whole : Trail (.ofBytes content) 0 0 (scan (.ofBytes content)).segments
      (scan (.ofBytes content)).stop := trail_scanFrom (.ofBytes content) 0 0
  rw [found] at whole
  obtain ⟨next, reads, -, first, rest⟩ := whole.exists_of_append
  have ends := reads.endOffset_le
  refine ⟨reads.placed, ends.trans reads.next_le, fun early listed => ?_, fun late listed => ?_⟩
  · exact (first.reads_of_mem listed).endOffset_le.trans (first.bounds_of_mem listed).2
  · have start := (rest.bounds_of_mem listed).1
    have head := (rest.reads_of_mem listed).leadIn_le
    omega

end Tdms
