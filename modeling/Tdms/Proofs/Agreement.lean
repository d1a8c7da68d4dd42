import Mathlib
import Tdms.Catalogue.Build
import Tdms.Proofs.Segment.Tiling
import Tdms.Proofs.Walk

/-!
What opening looks at.

Two contents that agree on a range of bytes show the same windows onto it. A
segment is read alike from both if they agree on its lead-in and its metadata,
so a scan of one finds what a scan of the other finds if they agree on the heads
of all segments and on what follows the last one. `Catalogue.build_congr` draws
the conclusion for catalogues: they never depend on raw data.
-/

namespace Tdms

variable {left right : ByteArray} {start stop offset length ordinal : Nat}

/-! ## Contents that agree -/

/-- The contents have the same bytes from `start` up to `stop`, as far as they go. -/
def AgreeOn (left right : ByteArray) (start stop : Nat) : Prop :=
  ∀ position, start ≤ position → position < stop → left.data[position]? = right.data[position]?

instance : Decidable (AgreeOn left right start stop) :=
  Nat.decidableLoHi start stop _

theorem getElem?_window (content : ByteArray) (offset length position : Nat) :
    (window content offset length).data.toList[position]? =
      if position < length then content.data[offset + position]? else none := by
  rw [toList_window, List.getElem?_take]
  split
  · rw [List.getElem?_drop, Array.getElem?_toList]
  · rfl

namespace AgreeOn

theorem window_eq (agree : AgreeOn left right offset (offset + length)) :
    window left offset length = window right offset length := by
  apply eq_of_toList
  apply List.ext_getElem?
  intro position
  rw [getElem?_window, getElem?_window]
  split
  · exact agree (offset + position) (by omega) (by omega)
  · rfl

/-- Behind their ends, contents of one size agree on whatever range. -/
theorem of_size (size : left.size = right.size) (agree : AgreeOn left right start left.size)
    (stop : Nat) : AgreeOn left right start stop := by
  intro position after _
  by_cases inside : position < left.size
  · exact agree position after inside
  · have behind : right.size ≤ position := by omega
    rw [Array.getElem?_eq_none (not_lt.1 inside), Array.getElem?_eq_none behind]

end AgreeOn

theorem read_congr (size : left.size = right.size)
    (agree : AgreeOn left right offset (offset + length)) :
    (Source.ofBytes right).read offset length = (Source.ofBytes left).read offset length := by
  change Source.readChecked right offset length = Source.readChecked left offset length
  rw [Source.readChecked, Source.readChecked, ← size, agree.window_eq]

/-! ## Heads of segments -/

namespace Segment

/-- The contents agree on the lead-in of a segment, and on its metadata if it has any. -/
structure SameHead (left right : ByteArray) (segment : Segment) : Prop where
  leadIn : AgreeOn left right segment.offset (segment.offset + leadInLength)
  metadata : segment.leadIn.contents.hasMetadata = true →
    AgreeOn left right segment.metadataOffset segment.dataOffset

theorem readLeadIn_congr (size : left.size = right.size)
    (agree : AgreeOn left right offset (offset + leadInLength)) :
    readLeadIn (.ofBytes right) offset = readLeadIn (.ofBytes left) offset := by
  rw [readLeadIn, readLeadIn, Source.length_ofBytes, Source.length_ofBytes, size,
    Tdms.read_congr size agree]

theorem readMetadata_congr (size : left.size = right.size) {leadIn : LeadIn}
    (agree : leadIn.contents.hasMetadata = true → AgreeOn left right (offset + leadInLength)
      (offset + leadInLength + leadIn.rawDataOffset.toNat)) :
    readMetadata (.ofBytes right) offset leadIn = readMetadata (.ofBytes left) offset leadIn := by
  rw [readMetadata, readMetadata]
  split
  · rename_i flag
    rw [Tdms.read_congr size (agree flag)]
  · rfl

/-- A segment is read alike from contents that agree on its lead-in, and on the metadata that the
lead-in announces. -/
theorem read_congr (size : left.size = right.size)
    (opening : AgreeOn left right offset (offset + leadInLength))
    (metadata : ∀ leadIn, readLeadIn (.ofBytes left) offset = .ok (some leadIn) →
      leadIn.contents.hasMetadata = true → AgreeOn left right (offset + leadInLength)
        (offset + leadInLength + leadIn.rawDataOffset.toNat)) (ordinal : Nat) :
    read (.ofBytes right) offset ordinal = read (.ofBytes left) offset ordinal := by
  rw [read, read, readLeadIn_congr size opening]
  split
  · rfl
  · rfl
  · rename_i leadIn opened
    rw [Source.length_ofBytes, Source.length_ofBytes, size,
      readMetadata_congr size (metadata leadIn opened)]

theorem SameHead.read_eq (size : left.size = right.size) {segment : Segment} {next : Nat}
    (head : segment.SameHead left right)
    (found : read (.ofBytes left) offset ordinal = .ok (some (segment, next))) :
    read (.ofBytes right) offset ordinal = .ok (some (segment, next)) := by
  obtain ⟨leadIn, data, metadata, opened, bounded, -, rfl⟩ := read_eq_ok.1 found
  rw [read_congr size head.leadIn fun other again flag => ?_, found]
  cases opened.symm.trans again
  have agree := head.metadata flag
  rwa [(bounds_eq_ok.1 bounded).2.1] at agree

end Segment

/-! ## Scans -/

/-- A scan finds the same in contents that agree on the heads of the segments that it finds, and on
all bytes from where it stops. -/
theorem scanFrom_congr (size : left.size = right.size)
    (heads : ∀ segment ∈ (scanFrom (.ofBytes left) offset ordinal).segments,
      segment.SameHead left right)
    (rest : AgreeOn left right (scanFrom (.ofBytes left) offset ordinal).stop left.size) :
    scanFrom (.ofBytes right) offset ordinal = scanFrom (.ofBytes left) offset ordinal := by
  have unread : ∀ place number, AgreeOn left right place left.size →
      Segment.read (.ofBytes right) place number = Segment.read (.ofBytes left) place number :=
    fun place number agree => Segment.read_congr size (agree.of_size size _)
      (fun _ _ _ position after => agree.of_size size _ position (by omega)) number
  fun_induction scanFrom (.ofBytes left) offset ordinal with
  | case1 offset ordinal error found =>
    exact scanFrom_of_error ((unread offset ordinal rest).trans found)
  | case2 offset ordinal found =>
    exact scanFrom_of_none ((unread offset ordinal rest).trans found)
  | case3 offset ordinal segment next found later ih =>
    obtain ⟨head, others⟩ := List.forall_mem_cons.1 heads
    rw [scanFrom_of_some (head.read_eq size found), ih others rest]

/-- The contents agree on all that opening looks at: the heads of the segments that a scan of
`left` finds, and all bytes from where it stops. -/
structure SameHeads (left right : ByteArray) : Prop where
  size_eq : left.size = right.size
  heads : ∀ segment ∈ (scan (.ofBytes left)).segments, segment.SameHead left right
  rest : AgreeOn left right (scan (.ofBytes left)).stop left.size

theorem SameHeads.scan_eq (same : SameHeads left right) :
    scan (.ofBytes right) = scan (.ofBytes left) :=
  scanFrom_congr same.size_eq same.heads same.rest

/-! ## Catalogues -/

/-- Contents that agree on the heads of all segments open to the same catalogue, truncated at the
same place, or are refused for the same error: raw data plays no part. -/
theorem Catalogue.build_congr (same : SameHeads left right) (recover : Bool) :
    build (.ofBytes right) recover = build (.ofBytes left) recover := by
  rw [build, build, same.scan_eq]

/-- The sample file with another letter in its first string. -/
def relettered : ByteArray :=
  sampleFile.set! 118 122

theorem Catalogue.build_congr_relettered :
    SameHeads sampleFile relettered ∧
      build (.ofBytes relettered) false = build (.ofBytes sampleFile) false := by
  have leadIns : ∀ segment ∈ (scan (.ofBytes sampleFile)).segments,
      AgreeOn sampleFile relettered segment.offset (segment.offset + leadInLength) := by
    decide +kernel
  have metadata : ∀ segment ∈ (scan (.ofBytes sampleFile)).segments,
      segment.leadIn.contents.hasMetadata = true →
        AgreeOn sampleFile relettered segment.metadataOffset segment.dataOffset := by
    decide +kernel
  have same : SameHeads sampleFile relettered :=
    ⟨by decide +kernel, fun segment listed => ⟨leadIns segment listed, metadata segment listed⟩,
      by decide +kernel⟩
  exact ⟨same, build_congr same false⟩

end Tdms
