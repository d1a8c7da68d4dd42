import Mathlib
import Tdms.Proofs.Segment.Tiling

/-!
What becomes of reading a segment.

`Segment.Verdict` lists the cases, each with what is answered in it. They are
told apart by the bytes alone: by what the lead-in is, and by where it says that
the segment ends and its raw data starts. `Segment.read_classified` states that
reading answers with a verdict, and with none but the one of its case.
-/

namespace Tdms

/-- Where the segment at `offset` ends, in a source of `size` bytes: where its lead-in says, or at
the end of the source if the segment was never finished. -/
def LeadIn.endsAt (leadIn : LeadIn) (size offset : Nat) : Nat :=
  if leadIn.isUnfinished then size
  else offset + leadInLength + leadIn.nextSegmentOffset.toNat

/-- Where the raw data of the segment at `offset` starts, right behind its metadata. -/
def LeadIn.dataAt (leadIn : LeadIn) (offset : Nat) : Nat :=
  offset + leadInLength + leadIn.rawDataOffset.toNat

namespace Segment

variable {content : ByteArray} {offset ordinal next : Nat} {leadIn : LeadIn} {segment : Segment}
  {outcome : Except Error (Option (Segment × Nat))}

/-- A valid lead-in is spelled at `offset`. -/
structure Opens (content : ByteArray) (offset : Nat) (leadIn : LeadIn) : Prop where
  inside : offset + leadInLength ≤ content.size
  spelled : leadIn.encode = (window content offset leadInLength).data.toList
  valid : leadIn.Valid

/-- What is answered to the request for the segment at `offset`. -/
inductive Verdict (content : ByteArray) (offset ordinal : Nat) :
    Except Error (Option (Segment × Nat)) → Prop
  /-- Behind the last byte there is no segment. -/
  | ended : content.size ≤ offset → Verdict content offset ordinal (.ok none)
  /-- There is no room for a lead-in, whatever the bytes that are left. -/
  | short : offset < content.size → content.size < offset + leadInLength →
    Verdict content offset ordinal
      (.error (.truncated offset (offset + leadInLength) content.size))
  /-- The lead-in is refused, wherever the segment would end. -/
  | refused {fault : LeadIn.Fault} : offset + leadInLength ≤ content.size →
    LeadIn.Refused (window content offset leadInLength).data.toList fault →
      Verdict content offset ordinal (.error (.corruptHeader offset (.leadIn fault)))
  /-- The segment would end at byte 2^64 or later. -/
  | endOverflows {leadIn : LeadIn} : Opens content offset leadIn →
    2 ^ 64 ≤ leadIn.endsAt content.size offset →
      Verdict content offset ordinal (.error (.corruptHeader offset
        (.segmentEnd (leadIn.endsAt content.size offset - (offset + leadInLength)))))
  /-- The raw data would start at byte 2^64 or later. -/
  | dataOverflows {leadIn : LeadIn} : Opens content offset leadIn →
    leadIn.endsAt content.size offset < 2 ^ 64 → 2 ^ 64 ≤ leadIn.dataAt offset →
      Verdict content offset ordinal
        (.error (.corruptHeader offset (.dataStart leadIn.rawDataOffset.toNat)))
  /-- The segment ends or its raw data starts behind the last byte. -/
  | truncated {leadIn : LeadIn} : Opens content offset leadIn →
    leadIn.endsAt content.size offset < 2 ^ 64 → leadIn.dataAt offset < 2 ^ 64 →
    content.size < max (leadIn.endsAt content.size offset) (leadIn.dataAt offset) →
      Verdict content offset ordinal (.error (.truncated offset
        (max (leadIn.endsAt content.size offset) (leadIn.dataAt offset)) content.size))
  /-- The segment is there, and the next one starts where it ends. -/
  | found {segment : Segment} : Opens content offset segment.leadIn →
    segment.leadIn.endsAt content.size offset < 2 ^ 64 → segment.leadIn.dataAt offset < 2 ^ 64 →
    max (segment.leadIn.endsAt content.size offset) (segment.leadIn.dataAt offset) ≤
      content.size →
    segment.ordinal = ordinal → segment.offset = offset → segment.Placed content →
      Verdict content offset ordinal
        (.ok (some (segment, segment.leadIn.endsAt content.size offset)))

/-! ## Reading a lead-in -/

theorem readLeadIn_of_inside (inside : offset + leadInLength ≤ content.size) :
    readLeadIn (.ofBytes content) offset =
      ((LeadIn.decode (window content offset leadInLength).data.toList).mapError fun fault =>
        .corruptHeader offset (.leadIn fault)).map some := by
  have room : offset < content.size := by
    simp only [leadInLength] at inside
    omega
  rw [readLeadIn, Source.length_ofBytes, if_neg (not_le.2 room), if_neg (not_lt.2 inside),
    read_ofBytes inside]
  dsimp only
  cases LeadIn.decode (window content offset leadInLength).data.toList with
  | error fault => rfl
  | ok leadIn => rfl

theorem Opens.readLeadIn_eq (opens : Opens content offset leadIn) :
    readLeadIn (.ofBytes content) offset = .ok (some leadIn) := by
  rw [readLeadIn_of_inside opens.inside, ← opens.spelled, LeadIn.decode_encode opens.valid]
  rfl

/-! ## Bounds -/

theorem Opens.declaredLength_eq (opens : Opens content offset leadIn) :
    declaredLength content.size offset leadIn =
        leadIn.endsAt content.size offset - (offset + leadInLength) ∧
      offset + leadInLength + declaredLength content.size offset leadIn =
        leadIn.endsAt content.size offset := by
  have inside := opens.inside
  rw [declaredLength, LeadIn.endsAt]
  split
  · omega
  · omega

/-- The end of a segment is checked first, then the start of its raw data, then whether both lie
inside the content. -/
theorem Opens.bounds_eq (opens : Opens content offset leadIn) :
    bounds content.size offset leadIn =
      if 2 ^ 64 ≤ leadIn.endsAt content.size offset then
        .error (.corruptHeader offset
          (.segmentEnd (leadIn.endsAt content.size offset - (offset + leadInLength))))
      else if 2 ^ 64 ≤ leadIn.dataAt offset then
        .error (.corruptHeader offset (.dataStart leadIn.rawDataOffset.toNat))
      else if leadIn.endsAt content.size offset ≤ content.size ∧
          leadIn.dataAt offset ≤ content.size then
        .ok (leadIn.endsAt content.size offset, leadIn.dataAt offset)
      else
        .error (.truncated offset
          (max (leadIn.endsAt content.size offset) (leadIn.dataAt offset)) content.size) := by
  obtain ⟨length, ends⟩ := opens.declaredLength_eq
  simp only [bounds, ends]
  rw [length]
  rfl

theorem Opens.read_eq_error (opens : Opens content offset leadIn) {error : Error}
    (outside : bounds content.size offset leadIn = .error error) (ordinal : Nat) :
    read (.ofBytes content) offset ordinal = .error error := by
  rw [read, opens.readLeadIn_eq]
  dsimp only
  rw [Source.length_ofBytes, outside]

/-- A lead-in with a segment that lies inside the content opens it. -/
theorem Opens.exists_read (opens : Opens content offset leadIn)
    (ends : leadIn.endsAt content.size offset < 2 ^ 64) (starts : leadIn.dataAt offset < 2 ^ 64)
    (inside : max (leadIn.endsAt content.size offset) (leadIn.dataAt offset) ≤ content.size)
    (ordinal : Nat) :
    ∃ segment, segment.leadIn = leadIn ∧ read (.ofBytes content) offset ordinal =
      .ok (some (segment, leadIn.endsAt content.size offset)) := by
  obtain ⟨endInside, dataInside⟩ := max_le_iff.1 inside
  have bounded := opens.bounds_eq
  rw [if_neg (not_le.2 ends), if_neg (not_le.2 starts), if_pos ⟨endInside, dataInside⟩] at bounded
  have taken : ∃ metadata, readMetadata (.ofBytes content) offset leadIn = .ok metadata := by
    rw [readMetadata, read_ofBytes dataInside]
    split
    · exact ⟨_, rfl⟩
    · exact ⟨_, rfl⟩
  obtain ⟨metadata, taken⟩ := taken
  exact ⟨_, rfl, read_eq_ok.2 ⟨leadIn, _, metadata, opens.readLeadIn_eq, bounded, taken, rfl⟩⟩

/-! ## Verdicts -/

/-- Where the parts of a segment lie decides all of it but its number, its place and its lead-in. -/
theorem Placed.eq {other : Segment} (placed : segment.Placed content)
    (also : other.Placed content) (ordinal : segment.ordinal = other.ordinal)
    (offset : segment.offset = other.offset) (leadIn : segment.leadIn = other.leadIn) :
    segment = other := by
  have metadataPlace : segment.metadataOffset = other.metadataOffset := by
    rw [placed.metadataOffset_eq, also.metadataOffset_eq, offset]
  have dataPlace : segment.dataOffset = other.dataOffset := by
    rw [placed.dataOffset_eq, also.dataOffset_eq, metadataPlace, leadIn]
  have metadata : segment.metadata = other.metadata := by
    rw [placed.metadata_eq, also.metadata_eq, leadIn, metadataPlace, dataPlace]
  have length : segment.dataLength = other.dataLength := by
    have next : segment.nextOffset content.size = other.nextOffset content.size := by
      rw [nextOffset, nextOffset, leadIn, offset]
    cases flag : segment.leadIn.contents.hasRawData with
    | false => rw [placed.data_absent flag, also.data_absent (leadIn ▸ flag)]
    | true =>
      have ends := placed.data_ends flag
      have alsoEnds := also.data_ends (leadIn ▸ flag)
      omega
  cases segment
  cases other
  simp_all

theorem read_of_verdict (verdict : Verdict content offset ordinal outcome) :
    read (.ofBytes content) offset ordinal = outcome := by
  cases verdict with
  | ended behind => exact read_end behind
  | short room cut =>
    rw [read, readLeadIn, Source.length_ofBytes, if_neg (not_le.2 room), if_pos cut]
  | refused inside refused =>
    rw [read, readLeadIn_of_inside inside, LeadIn.decode_of_refused refused]
    rfl
  | endOverflows opens ends =>
    exact opens.read_eq_error (by rw [opens.bounds_eq, if_pos ends]) ordinal
  | dataOverflows opens ends starts =>
    exact opens.read_eq_error
      (by rw [opens.bounds_eq, if_neg (not_le.2 ends), if_pos starts]) ordinal
  | truncated opens ends starts outside =>
    have apart := mt max_le_iff.2 (not_le.2 outside)
    exact opens.read_eq_error (by rw [opens.bounds_eq, if_neg (not_le.2 ends),
      if_neg (not_le.2 starts), if_neg apart]) ordinal
  | @found segment opens ends starts inside number place placed =>
    obtain ⟨other, same, found⟩ := opens.exists_read ends starts inside ordinal
    have reads := Reads.of_read found
    have equal := placed.eq reads.placed (number.trans reads.ordinal_eq.symm)
      (place.trans reads.offset_eq.symm) same.symm
    rw [found, equal]

/-- There is a case for all bytes. -/
theorem exists_verdict (content : ByteArray) (offset ordinal : Nat) :
    ∃ outcome, Verdict content offset ordinal outcome := by
  by_cases behind : content.size ≤ offset
  · exact ⟨_, .ended behind⟩
  by_cases cut : content.size < offset + leadInLength
  · exact ⟨_, .short (not_le.1 behind) cut⟩
  have inside := not_lt.1 cut
  obtain ⟨leadIn, valid, spelled⟩ | ⟨fault, refused⟩ :=
    LeadIn.spelled_or_refused (size_window inside)
  · have opens : Opens content offset leadIn := ⟨inside, spelled, valid⟩
    by_cases ends : 2 ^ 64 ≤ leadIn.endsAt content.size offset
    · exact ⟨_, .endOverflows opens ends⟩
    by_cases starts : 2 ^ 64 ≤ leadIn.dataAt offset
    · exact ⟨_, .dataOverflows opens (not_le.1 ends) starts⟩
    by_cases outside :
        content.size < max (leadIn.endsAt content.size offset) (leadIn.dataAt offset)
    · exact ⟨_, .truncated opens (not_le.1 ends) (not_le.1 starts) outside⟩
    obtain ⟨segment, rfl, found⟩ :=
      opens.exists_read (not_le.1 ends) (not_le.1 starts) (not_lt.1 outside) ordinal
    have reads := Reads.of_read found
    exact ⟨_, .found opens (not_le.1 ends) (not_le.1 starts) (not_lt.1 outside)
      reads.ordinal_eq reads.offset_eq reads.placed⟩
  · exact ⟨_, .refused inside refused⟩

theorem read_eq_iff_verdict :
    read (.ofBytes content) offset ordinal = outcome ↔ Verdict content offset ordinal outcome := by
  constructor
  · rintro rfl
    obtain ⟨other, verdict⟩ := exists_verdict content offset ordinal
    rwa [read_of_verdict verdict]
  · exact read_of_verdict

/-- A segment that was never finished is truncated exactly if its metadata does not fit. -/
theorem Opens.truncated_iff (opens : Opens content offset leadIn)
    (unfinished : leadIn.isUnfinished = true) (small : content.size < 2 ^ 63)
    (starts : leadIn.dataAt offset < 2 ^ 64) (ordinal : Nat) :
    (∃ required available, read (.ofBytes content) offset ordinal =
        .error (.truncated offset required available)) ↔
      content.size < leadIn.dataAt offset := by
  have ends : leadIn.endsAt content.size offset = content.size := if_pos unfinished
  have below : leadIn.endsAt content.size offset < 2 ^ 64 := by omega
  constructor
  · rintro ⟨required, available, failed⟩
    by_contra fits
    obtain ⟨segment, -, found⟩ := opens.exists_read below starts (by omega) ordinal
    rw [failed] at found
    cases found
  · intro outside
    exact ⟨_, _, read_of_verdict (.truncated opens below starts (by omega))⟩

/-- Whatever the bytes, a request for the segment at some offset is answered by the verdict of its
case and by no other. There is no segment exactly behind the last byte, every segment ends behind
its start, and one that was never finished is truncated exactly if its metadata does not fit. -/
theorem read_classified (content : ByteArray) (offset ordinal : Nat) :
    (∀ outcome, read (.ofBytes content) offset ordinal = outcome ↔
      Verdict content offset ordinal outcome) ∧
    (read (.ofBytes content) offset ordinal = .ok none ↔ content.size ≤ offset) ∧
    (∀ segment next, read (.ofBytes content) offset ordinal = .ok (some (segment, next)) →
      offset < next) ∧
    ∀ leadIn, Opens content offset leadIn → leadIn.isUnfinished = true →
      content.size < 2 ^ 63 → leadIn.dataAt offset < 2 ^ 64 →
        ((∃ required available, read (.ofBytes content) offset ordinal =
            .error (.truncated offset required available)) ↔
          content.size < leadIn.dataAt offset) := by
  refine ⟨fun outcome => read_eq_iff_verdict, ⟨fun nothing => ?_, fun behind => read_end behind⟩,
    fun segment next found => ?_, fun leadIn opens unfinished small starts =>
      opens.truncated_iff unfinished small starts ordinal⟩
  · cases read_eq_iff_verdict.1 nothing with
    | ended behind => exact behind
  · have after := (next_of_read found).1
    simp only [leadInLength] at after
    omega

/-- Two bytes, and a segment that was never finished, cut behind the fourth byte of its metadata. -/
def cutSample : ByteArray :=
  ⟨#[7, 7, 84, 68, 83, 109, 66, 0, 0, 0, 0, 0, 18, 105, 255, 255, 255, 255, 255, 255, 255, 255,
    0, 0, 0, 0, 0, 0, 0, 24, 0, 0, 0, 1]⟩

theorem read_classified_sample :
    ∃ leadIn, Opens cutSample 2 leadIn ∧ leadIn.isUnfinished = true ∧
      Verdict cutSample 2 1 (.error (.truncated 2 54 34)) ∧
      cutSample.size < leadIn.dataAt 2 := by
  have valid : LeadIn.Valid ⟨⟨66⟩, 4713, LeadIn.unfinished, 24⟩ := by decide
  have opens : Opens cutSample 2 ⟨⟨66⟩, 4713, LeadIn.unfinished, 24⟩ :=
    ⟨by decide +kernel, by decide +kernel, valid⟩
  have answer : read (.ofBytes cutSample) 2 1 = .error (.truncated 2 54 34) := by decide +kernel
  obtain ⟨verdict, -, -, truncated⟩ := read_classified cutSample 2 1
  exact ⟨_, opens, rfl, (verdict _).1 answer,
    (truncated _ opens rfl (by decide +kernel) (by decide +kernel)).1 ⟨_, _, answer⟩⟩

end Segment

end Tdms
