import Mathlib
import Tdms.Proofs.Segment
import Tdms.Proofs.Window

/-!
Segments of bytes that end early.

A segment reaches up to its end, or up to its raw data if its writer never
finished it: with so many bytes it is read, and with fewer it is truncated.
`scanFrom_cut` says what a scan finds in the first bytes of a source. It is all
segments that reach no farther, the unfinished one with what is left of its raw
data, and a truncated segment exactly if the cut goes through its reach.
-/

namespace Tdms

variable {left right : ByteArray} {offset ordinal next : Nat} {segment : Segment}

namespace Segment

/-- Bytes that a source must have for the segment to be read. -/
def reach (segment : Segment) : Nat :=
  if segment.leadIn.isUnfinished then segment.dataOffset
  else segment.offset + leadInLength + segment.leadIn.nextSegmentOffset.toNat

/-- What is left of a segment in the first `limit` bytes: an unfinished one keeps the raw data
before the cut, and a finished one all it has. -/
def cutAt (limit : Nat) (segment : Segment) : Segment :=
  if segment.leadIn.isUnfinished then
    { segment with dataLength := min segment.dataLength (limit - segment.dataOffset) }
  else segment

/-! ## Reach -/

section

variable {source : Source}

theorem Reads.leadIn_le_reach (reads : Reads source offset ordinal segment next) :
    offset + leadInLength ≤ segment.reach := by
  have start := reads.leadIn_le
  rw [reach, reads.offset_eq]
  split
  · exact start
  · exact Nat.le_add_right _ _

theorem Reads.next_eq_reach (reads : Reads source offset ordinal segment next)
    (finished : segment.leadIn.isUnfinished = false) : next = segment.reach := by
  rw [reads.next_eq, declaredLength, reach, reads.offset_eq, finished]
  rfl

theorem Reads.reach_le_next (reads : Reads source offset ordinal segment next) :
    segment.reach ≤ next := by
  cases unfinished : segment.leadIn.isUnfinished with
  | true =>
    rw [reach, if_pos unfinished]
    exact reads.dataOffset_le_next
  | false => exact (reads.next_eq_reach unfinished).ge

/-- An unfinished segment takes all that is left of a source. -/
theorem Reads.next_eq_length (reads : Reads source offset ordinal segment next)
    (unfinished : segment.leadIn.isUnfinished = true) : next = source.length := by
  have inside := reads.dataOffset_le
  have start := reads.leadIn_le
  have ends := reads.next_eq
  rw [declaredLength, if_pos unfinished] at ends
  omega

end

/-! ## Reading with fewer bytes -/

theorem readLeadIn_append (inside : offset + leadInLength ≤ left.size) (right : ByteArray) :
    readLeadIn (.ofBytes (left ++ right)) offset = readLeadIn (.ofBytes left) offset := by
  have size : (left ++ right).size = left.size + right.size := ByteArray.size_append
  have short : offset < left.size := by
    simp only [leadInLength] at inside
    omega
  rw [readLeadIn, readLeadIn, Source.length_ofBytes, Source.length_ofBytes, size,
    if_neg (by omega), if_neg (by omega), if_neg (by omega), if_neg (by omega),
    read_ofBytes inside, read_ofBytes (by omega), window_append_left inside]

theorem readMetadata_append {leadIn : LeadIn}
    (inside : offset + leadInLength + leadIn.rawDataOffset.toNat ≤ left.size)
    (right : ByteArray) :
    readMetadata (.ofBytes (left ++ right)) offset leadIn =
      readMetadata (.ofBytes left) offset leadIn := by
  have size : (left ++ right).size = left.size + right.size := ByteArray.size_append
  rw [readMetadata, readMetadata, read_ofBytes inside, read_ofBytes (by omega),
    window_append_left inside]

theorem bounds_append {leadIn : LeadIn} (valid : leadIn.Valid)
    (finished : leadIn.isUnfinished = false) {data : Nat} :
    bounds left.size offset leadIn = .ok (next, data) ↔
      bounds (left ++ right).size offset leadIn = .ok (next, data) ∧ next ≤ left.size := by
  have size : (left ++ right).size = left.size + right.size := ByteArray.size_append
  have declared : ∀ available,
      declaredLength available offset leadIn = leadIn.nextSegmentOffset.toNat := by
    intro available
    rw [declaredLength, finished]
    rfl
  have ordered : leadIn.rawDataOffset.toNat ≤ leadIn.nextSegmentOffset.toNat := by
    rcases valid.2 with unfinished | ordered
    · rw [finished] at unfinished
      cases unfinished
    · exact ordered
  rw [bounds_eq_ok, bounds_eq_ok, declared, declared, size]
  omega

/-- A finished segment is read alike with all bytes up to its end, whatever follows them. -/
theorem read_append_of_finished (finished : segment.leadIn.isUnfinished = false) :
    read (.ofBytes left) offset ordinal = .ok (some (segment, next)) ↔
      read (.ofBytes (left ++ right)) offset ordinal = .ok (some (segment, next)) ∧
        next ≤ left.size := by
  constructor
  · intro found
    have reads := Reads.of_read found
    have inside : next ≤ left.size := reads.next_le
    have start := reads.leadIn_le
    have order := reads.dataOffset_le_next
    obtain ⟨leadIn, data, metadata, opened, bounded, taken, rfl⟩ := read_eq_ok.1 found
    have place := (bounds_eq_ok.1 bounded).2.1
    dsimp only at finished start order
    refine ⟨read_eq_ok.2 ⟨leadIn, data, metadata, ?_, ?_, ?_, rfl⟩, inside⟩
    · rwa [readLeadIn_append (by omega)]
    · exact ((bounds_append (valid_of_readLeadIn opened) finished).1 bounded).1
    · rwa [readMetadata_append (by omega)]
  · rintro ⟨found, inside⟩
    have reads := Reads.of_read found
    have start := reads.leadIn_le
    have order := reads.dataOffset_le_next
    obtain ⟨leadIn, data, metadata, opened, bounded, taken, rfl⟩ := read_eq_ok.1 found
    have place := (bounds_eq_ok.1 bounded).2.1
    dsimp only at finished start order
    refine read_eq_ok.2 ⟨leadIn, data, metadata, ?_, ?_, ?_, rfl⟩
    · rwa [readLeadIn_append (by omega)] at opened
    · exact (bounds_append (valid_of_readLeadIn opened) finished).2 ⟨bounded, inside⟩
    · rwa [readMetadata_append (by omega)] at taken

/-- An unfinished segment is read with the raw data that is left of it. -/
theorem read_of_unfinished (unfinished : segment.leadIn.isUnfinished = true)
    (found : read (.ofBytes (left ++ right)) offset ordinal = .ok (some (segment, next)))
    (inside : segment.reach ≤ left.size) :
    read (.ofBytes left) offset ordinal = .ok (some (segment.cutAt left.size, left.size)) := by
  have reads := Reads.of_read found
  have start := reads.leadIn_le
  have all := reads.next_eq_length unfinished
  have size : (left ++ right).size = left.size + right.size := ByteArray.size_append
  rw [Source.length_ofBytes, size] at all
  rw [reach, if_pos unfinished] at inside
  obtain ⟨leadIn, data, metadata, opened, bounded, taken, rfl⟩ := read_eq_ok.1 found
  obtain ⟨-, place, small, dataSmall, -⟩ := bounds_eq_ok.1 bounded
  dsimp only at unfinished start inside
  refine read_eq_ok.2 ⟨leadIn, data, metadata, ?_, ?_, ?_, ?_⟩
  · rwa [readLeadIn_append (by omega)] at opened
  · rw [bounds_eq_ok, declaredLength, if_pos unfinished, Source.length_ofBytes]
    omega
  · rwa [readMetadata_append (by omega)] at taken
  · rw [cutAt, if_pos unfinished]
    dsimp only
    congr 1
    split
    · omega
    · exact Nat.zero_min _

/-- A segment that reaches farther than the bytes is truncated, if it starts in them. -/
theorem read_of_lt_reach
    (found : read (.ofBytes (left ++ right)) offset ordinal = .ok (some (segment, next)))
    (start : offset < left.size) (short : left.size < segment.reach) :
    ∃ required, read (.ofBytes left) offset ordinal =
      .error (.truncated offset required left.size) := by
  by_cases room : offset + leadInLength ≤ left.size
  · have reads := Reads.of_read found
    have finished := reads.next_eq_reach
    obtain ⟨leadIn, data, metadata, opened, bounded, taken, rfl⟩ := read_eq_ok.1 found
    obtain ⟨ends, place, small, dataSmall, -⟩ := bounds_eq_ok.1 bounded
    rw [readLeadIn_append room] at opened
    -- Either the end of the segment or the start of its raw data lies outside.
    have outside : ∃ required, bounds left.size offset leadIn =
        .error (.truncated offset required left.size) := by
      cases unfinished : leadIn.isUnfinished with
      | true =>
        have declared : declaredLength left.size offset leadIn =
            left.size - (offset + leadInLength) := if_pos unfinished
        rw [reach, if_pos unfinished] at short
        dsimp only at short
        simp only [bounds, declared]
        rw [if_neg (by omega), if_neg (by omega), if_neg (by omega)]
        exact ⟨_, rfl⟩
      | false =>
        have declared : ∀ available,
            declaredLength available offset leadIn = leadIn.nextSegmentOffset.toNat :=
          fun available => if_neg (Bool.eq_false_iff.1 unfinished)
        have far := finished unfinished
        rw [declared] at ends
        simp only [bounds, declared]
        rw [if_neg (by omega), if_neg (by omega), if_neg (by omega)]
        exact ⟨_, rfl⟩
    obtain ⟨required, outside⟩ := outside
    refine ⟨required, ?_⟩
    rw [read, opened]
    dsimp only
    rw [Source.length_ofBytes, outside]
  · refine ⟨offset + leadInLength, ?_⟩
    rw [read, readLeadIn, Source.length_ofBytes, if_neg (by omega), if_pos (by omega)]

theorem length_le_of_read {source : Source} (ended : read source offset ordinal = .ok none) :
    source.length ≤ offset := by
  by_contra start
  unfold read readLeadIn at ended
  rw [if_neg start] at ended
  split at ended
  · cases ended
  · rename_i opened
    split at opened
    · cases opened
    · split at opened
      · cases opened
      · split at opened
        · cases opened
        · cases opened
  · split at ended
    · cases ended
    · split at ended
      · cases ended
      · cases ended

theorem readLeadIn_truncated {source : Source} {place required available : Nat}
    (failed : readLeadIn source offset = .error (.truncated place required available)) :
    place = offset ∧ offset < source.length := by
  unfold readLeadIn at failed
  split at failed
  · cases failed
  · rename_i start
    split at failed
    · cases failed
      exact ⟨rfl, not_le.1 start⟩
    · split at failed
      · cases failed
      · split at failed
        · cases failed
        · cases failed

theorem lt_of_readLeadIn {source : Source} {leadIn : LeadIn}
    (opened : readLeadIn source offset = .ok (some leadIn)) : offset < source.length := by
  by_contra ended
  rw [readLeadIn, if_pos (not_lt.1 ended)] at opened
  cases opened

theorem bounds_truncated {length : Nat} {leadIn : LeadIn} {place required available : Nat}
    (failed : bounds length offset leadIn = .error (.truncated place required available)) :
    place = offset := by
  simp only [bounds] at failed
  split at failed
  · cases failed
  · split at failed
    · cases failed
    · split at failed
      · cases failed
      · cases failed
        rfl

theorem readMetadata_ne_truncated (source : Source) (offset : Nat) (leadIn : LeadIn)
    (place required available : Nat) :
    readMetadata source offset leadIn ≠ .error (.truncated place required available) := by
  intro failed
  unfold readMetadata at failed
  split at failed
  · split at failed
    · cases failed
    · cases failed
  · cases failed

/-- A segment is only found truncated where it starts, and that is before the end. -/
theorem start_of_truncated {source : Source} {place required available : Nat}
    (failed : read source offset ordinal = .error (.truncated place required available)) :
    place = offset ∧ offset < source.length := by
  unfold read at failed
  split at failed
  · rename_i error opened
    cases failed
    exact readLeadIn_truncated opened
  · cases failed
  · rename_i leadIn opened
    split at failed
    · rename_i error outside
      cases failed
      exact ⟨bounds_truncated outside, lt_of_readLeadIn opened⟩
    · split at failed
      · rename_i error unread
        cases failed
        exact (readMetadata_ne_truncated _ _ _ _ _ _ unread).elim
      · cases failed

/-! ## Shortened lists of segments -/

/-- Segments that are left out from some place on, where the last of them may have lost raw
data. -/
inductive Shortened : List Segment → List Segment → Prop
  | done {segments : List Segment} : Shortened segments []
  | last {segment : Segment} {rest : List Segment} {dataLength : Nat} :
    dataLength ≤ segment.dataLength → Shortened (segment :: rest) [{ segment with dataLength }]
  | more {segment : Segment} {rest others : List Segment} : Shortened rest others →
    Shortened (segment :: rest) (segment :: others)

theorem shortened_cutAt (limit : Nat) (segment : Segment) (rest : List Segment) :
    Shortened (segment :: rest) [segment.cutAt limit] := by
  unfold cutAt
  split
  · exact .last (Nat.min_le_left _ _)
  · exact .more .done

end Segment

/-! ## Scans of fewer bytes -/

/-- All segments start at the offset of the first or after it, and reach beyond their lead-ins. -/
theorem Scanned.offset_le_of_mem {source : Source} {segments : List Segment}
    (scanned : Scanned source offset ordinal segments) {segment : Segment}
    (listed : segment ∈ segments) :
    offset ≤ segment.offset ∧ segment.offset + leadInLength ≤ segment.reach := by
  induction scanned with
  | done => cases listed
  | more reads _ ih =>
    have first := reads.leadIn_le
    have order := reads.dataOffset_le_next
    rcases List.mem_cons.1 listed with rfl | later
    · have covered := reads.leadIn_le_reach
      rw [← reads.offset_eq] at covered
      exact ⟨reads.offset_eq.ge, covered⟩
    · obtain ⟨start, covered⟩ := ih later
      exact ⟨by omega, covered⟩

/-- What a scan of the first `limit` bytes finds where a scan of all bytes finds `segments`. -/
structure Scan.Cut (limit : Nat) (segments : List Segment) (found : Scan) : Prop where
  segments_eq : found.segments =
    (segments.filter fun segment => segment.reach ≤ limit).map (Segment.cutAt limit)
  shortened : Segment.Shortened segments found.segments
  error?_eq : found.error? = none ∨
    ∃ offset required, found.error? = some (.truncated offset required limit)
  truncated_iff : ∀ offset, (∃ required, found.error? = some (.truncated offset required limit)) ↔
    ∃ segment ∈ segments, segment.offset = offset ∧ offset < limit ∧ limit < segment.reach

namespace Scan.Cut

variable {limit : Nat} {segments : List Segment}

theorem filter_eq_nil (after : ∀ segment ∈ segments, limit ≤ segment.offset ∧
    segment.offset + leadInLength ≤ segment.reach) :
    (segments.filter fun segment => segment.reach ≤ limit) = [] := by
  rw [List.filter_eq_nil_iff]
  intro segment listed
  obtain ⟨start, covered⟩ := after segment listed
  simp only [leadInLength] at covered
  simp only [decide_eq_true_eq]
  omega

/-- The cut lies before all segments. -/
theorem nothing (after : ∀ segment ∈ segments, limit ≤ segment.offset ∧
    segment.offset + leadInLength ≤ segment.reach) :
    Cut limit segments ⟨[], limit, none⟩ where
  segments_eq := by rw [filter_eq_nil after, List.map_nil]
  shortened := .done
  error?_eq := .inl rfl
  truncated_iff offset := by
    simp only [reduceCtorEq, exists_false, false_iff]
    rintro ⟨segment, listed, rfl, before, -⟩
    exact absurd (after segment listed).1 (not_le.2 before)

/-- The cut goes through the reach of the first segment. -/
theorem truncated {segment : Segment} {required : Nat} (start : segment.offset < limit)
    (short : limit < segment.reach) (after : ∀ other ∈ segments, limit ≤ other.offset ∧
      other.offset + leadInLength ≤ other.reach) :
    Cut limit (segment :: segments)
      ⟨[], segment.offset, some (.truncated segment.offset required limit)⟩ where
  segments_eq := by
    rw [List.filter_cons_of_neg (by simpa using short), filter_eq_nil after, List.map_nil]
  shortened := .done
  error?_eq := .inr ⟨_, _, rfl⟩
  truncated_iff offset := by
    constructor
    · rintro ⟨_, same⟩
      cases same
      exact ⟨segment, List.mem_cons_self, rfl, start, short⟩
    · rintro ⟨other, listed, rfl, before, -⟩
      rcases List.mem_cons.1 listed with rfl | later
      · exact ⟨required, rfl⟩
      · exact absurd (after other later).1 (not_le.2 before)

/-- The cut goes through the raw data of an unfinished segment, after which there is none. -/
theorem last {segment : Segment} (inside : segment.reach ≤ limit) :
    Cut limit [segment] ⟨[segment.cutAt limit], limit, none⟩ where
  segments_eq := by
    rw [List.filter_cons_of_pos (by simpa using inside), List.filter_nil, List.map_singleton]
  shortened := Segment.shortened_cutAt limit segment []
  error?_eq := .inl rfl
  truncated_iff offset := by
    simp only [reduceCtorEq, exists_false, List.mem_singleton, exists_eq_left, false_iff]
    omega

/-- The cut lies after a finished segment. -/
theorem more {segment : Segment} {found : Scan} (finished : segment.leadIn.isUnfinished = false)
    (inside : segment.reach ≤ limit) (rest : Cut limit segments found) :
    Cut limit (segment :: segments) { found with segments := segment :: found.segments } where
  segments_eq := by
    have same : segment.cutAt limit = segment := by
      rw [Segment.cutAt, finished]
      rfl
    rw [List.filter_cons_of_pos (by simpa using inside), List.map_cons, same, rest.segments_eq]
  shortened := .more rest.shortened
  error?_eq := rest.error?_eq
  truncated_iff offset := by
    dsimp only
    rw [rest.truncated_iff offset, List.exists_mem_cons_iff]
    constructor
    · exact .inr
    · rintro (⟨-, -, short⟩ | later)
      · exact absurd inside (not_le.2 short)
      · exact later

/-- The cut lies after all segments, none of which is unfinished. -/
theorem whole {found : Scan} (cut : Cut limit segments found)
    (before : ∀ segment ∈ segments, segment.leadIn.isUnfinished = false ∧ segment.reach ≤ limit) :
    found.segments = segments ∧ found.error? = none := by
  have kept : (segments.filter fun segment => segment.reach ≤ limit) = segments :=
    List.filter_eq_self.2 fun segment listed => decide_eq_true (before segment listed).2
  have same : segments.map (Segment.cutAt limit) = segments := by
    rw [List.map_congr_left fun segment listed => ?_, List.map_id']
    rw [Segment.cutAt, (before segment listed).1]
    rfl
  refine ⟨by rw [cut.segments_eq, kept, same], ?_⟩
  rcases cut.error?_eq with none | ⟨offset, required, short⟩
  · exact none
  · obtain ⟨segment, listed, -, -, far⟩ := (cut.truncated_iff offset).1 ⟨required, short⟩
    exact absurd (before segment listed).2 (not_le.2 far)

end Scan.Cut

/-- A scan without an error goes on to the end. -/
theorem length_le_stop {source : Source}
    (ended : (scanFrom source offset ordinal).error? = none) :
    source.length ≤ (scanFrom source offset ordinal).stop := by
  fun_induction scanFrom source offset ordinal with
  | case1 => cases ended
  | case2 offset ordinal found => exact Segment.length_le_of_read found
  | case3 offset ordinal segment next found rest ih => exact ih ended

/-- Before a truncated segment there are only finished ones. -/
theorem scanFrom_of_truncated {source : Source} {place required available : Nat}
    (failed : (scanFrom source offset ordinal).error? =
      some (.truncated place required available)) :
    offset ≤ place ∧ place < source.length ∧ (scanFrom source offset ordinal).stop = place ∧
      ∀ segment ∈ (scanFrom source offset ordinal).segments,
        segment.leadIn.isUnfinished = false ∧ segment.reach ≤ place := by
  fun_induction scanFrom source offset ordinal with
  | case1 offset ordinal error found =>
    obtain rfl := Option.some.inj failed
    obtain ⟨rfl, start⟩ := Segment.start_of_truncated found
    exact ⟨le_rfl, start, rfl, fun segment listed => absurd listed List.not_mem_nil⟩
  | case2 => cases failed
  | case3 offset ordinal segment next found rest ih =>
    have reads := Segment.Reads.of_read found
    have order := reads.leadIn_le.trans reads.dataOffset_le_next
    obtain ⟨after, inside, stop, others⟩ := ih failed
    have finished : segment.leadIn.isUnfinished = false := by
      by_contra unfinished
      have last := reads.next_eq_length (Bool.not_eq_false _ ▸ unfinished)
      omega
    refine ⟨by omega, inside, stop, List.forall_mem_cons.2 ⟨⟨finished, ?_⟩, others⟩⟩
    rwa [← reads.next_eq_reach finished]

/-- A scan of the first bytes of a source finds what is left of its segments. -/
theorem scanFrom_cut (start : offset ≤ left.size)
    (stop : left.size ≤ (scanFrom (.ofBytes (left ++ right)) offset ordinal).stop) :
    Scan.Cut left.size (scanFrom (.ofBytes (left ++ right)) offset ordinal).segments
      (scanFrom (.ofBytes left) offset ordinal) := by
  have ended : ∀ ordinal, scanFrom (.ofBytes left) left.size ordinal = ⟨[], left.size, none⟩ :=
    fun ordinal => scanFrom_of_none (Segment.read_end le_rfl)
  fun_induction scanFrom (.ofBytes (left ++ right)) offset ordinal with
  | case1 offset ordinal error found | case2 offset ordinal found =>
    obtain rfl := Nat.le_antisymm start stop
    rw [ended]
    exact .nothing fun segment listed => absurd listed List.not_mem_nil
  | case3 offset ordinal segment next found rest ih =>
    have reads := Segment.Reads.of_read found
    have scanned := scanFrom_scanned (.ofBytes (left ++ right)) next (ordinal + 1)
    have order := reads.leadIn_le.trans reads.dataOffset_le_next
    dsimp only at stop ⊢
    rcases Nat.eq_or_lt_of_le start with rfl | before
    · rw [ended]
      exact .nothing fun other listed => (Scanned.more reads scanned).offset_le_of_mem listed
    · by_cases inside : segment.reach ≤ left.size
      · cases unfinished : segment.leadIn.isUnfinished with
        | true =>
          have last : rest = ⟨[], next, none⟩ :=
            scanFrom_of_none (Segment.read_end (reads.next_eq_length unfinished).ge)
          rw [scanFrom_of_some (Segment.read_of_unfinished unfinished found inside), ended, last]
          exact .last inside
        | false =>
          rw [← reads.next_eq_reach unfinished] at inside
          have same := (Segment.read_append_of_finished unfinished).2 ⟨found, inside⟩
          rw [scanFrom_of_some same]
          rw [reads.next_eq_reach unfinished] at inside
          exact .more unfinished inside (ih (reads.next_eq_reach unfinished ▸ inside) stop)
      · obtain ⟨required, short⟩ := Segment.read_of_lt_reach found before (not_le.1 inside)
        have cut : scanFrom (.ofBytes left) offset ordinal = _ := scanFrom_of_error short
        rw [cut, ← reads.offset_eq]
        rw [← reads.offset_eq] at before
        refine .truncated before (not_le.1 inside) fun other listed => ?_
        obtain ⟨after, covered⟩ := scanned.offset_le_of_mem listed
        have far := reads.reach_le_next
        exact ⟨by omega, covered⟩

end Tdms
