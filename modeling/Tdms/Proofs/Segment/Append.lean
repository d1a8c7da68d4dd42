import Mathlib
import Tdms.Proofs.Segment.Tiling

/-!
Segments of bytes that are appended to others.

A segment is read where its bytes are moved to, and so a segment of the second
bytes is found again behind the first ones. Where no segment of the first bytes
is unfinished, `scan_append` states that a scan finds the segments of both.
-/

namespace Tdms

variable {left right : ByteArray} {offset ordinal next : Nat} {segment : Segment}

namespace Segment

/-- The segment behind `count` segments that take `bytes` bytes together. -/
def shift (bytes count : Nat) (segment : Segment) : Segment :=
  { segment with
    ordinal := count + segment.ordinal
    offset := bytes + segment.offset
    metadataOffset := bytes + segment.metadataOffset
    dataOffset := bytes + segment.dataOffset }

/-! ## Reading what is moved -/

theorem readLeadIn_eq_some {source : Source} {leadIn : LeadIn} :
    readLeadIn source offset = .ok (some leadIn) ↔
      offset + leadInLength ≤ source.length ∧
        ∃ bytes, source.read offset leadInLength = .ok bytes ∧
          LeadIn.decode bytes.data.toList = .ok leadIn := by
  have positive : 0 < leadInLength := by decide
  rw [readLeadIn]
  split
  · simp only [Except.ok.injEq, reduceCtorEq, false_iff]
    omega
  · split
    · simp only [reduceCtorEq, false_iff]
      omega
    · rename_i room
      rw [and_iff_right (not_lt.1 room)]
      split
      · rename_i fault failed
        simp [failed]
      · rename_i bytes found
        rw [found]
        split
        · rename_i fault refused
          simp [refused]
        · rename_i other decoded
          simp [decoded]

section

variable {content other : ByteArray} {bytes start : Nat} (moved : Moved content other bytes start)
  (after : start ≤ offset)
include moved after

theorem readLeadIn_moved {leadIn : LeadIn}
    (found : readLeadIn (.ofBytes content) offset = .ok (some leadIn)) :
    readLeadIn (.ofBytes other) (bytes + offset) = .ok (some leadIn) := by
  have whole := moved.size_eq
  obtain ⟨room, found, read, decoded⟩ := readLeadIn_eq_some.1 found
  have inside : offset + leadInLength ≤ content.size := room
  have behind : bytes + offset + leadInLength ≤ other.size := by omega
  rw [read_ofBytes inside] at read
  refine readLeadIn_eq_some.2 ⟨behind, found, ?_, decoded⟩
  rwa [read_ofBytes behind, moved.window_eq offset leadInLength after inside]

omit after in
theorem bounds_moved (total : other.size < UInt64.size) {leadIn : LeadIn} {data : Nat}
    (found : bounds content.size offset leadIn = .ok (next, data)) :
    bounds other.size (bytes + offset) leadIn = .ok (bytes + next, bytes + data) := by
  have size := moved.size_eq
  obtain ⟨ends, place, -, -, nextInside, dataInside⟩ := bounds_eq_ok.1 found
  rw [declaredLength] at ends
  rw [bounds_eq_ok, declaredLength]
  split at ends
  · rename_i unfinished
    rw [if_pos unfinished]
    omega
  · rename_i finished
    rw [if_neg finished]
    omega

theorem readMetadata_moved {leadIn : LeadIn}
    (inside : offset + leadInLength + leadIn.rawDataOffset.toNat ≤ content.size) :
    readMetadata (.ofBytes other) (bytes + offset) leadIn =
      readMetadata (.ofBytes content) offset leadIn := by
  have whole := moved.size_eq
  rw [readMetadata, readMetadata, read_ofBytes inside, Nat.add_assoc bytes,
    read_ofBytes (by omega), moved.window_eq _ _ (by omega) inside]

/-- A segment is read where its bytes are moved to. -/
theorem read_moved (total : other.size < UInt64.size) (count : Nat)
    (found : read (.ofBytes content) offset ordinal = .ok (some (segment, next))) :
    read (.ofBytes other) (bytes + offset) (count + ordinal) =
      .ok (some (segment.shift bytes count, bytes + next)) := by
  obtain ⟨leadIn, data, metadata, opened, bounded, taken, rfl⟩ := read_eq_ok.1 found
  obtain ⟨-, place, -, -, -, inside⟩ := bounds_eq_ok.1 bounded
  refine read_eq_ok.2 ⟨leadIn, bytes + data, metadata, readLeadIn_moved moved after opened,
    bounds_moved moved total bounded, ?_, ?_⟩
  · rwa [readMetadata_moved moved after (place ▸ inside)]
  · simp [shift, Nat.add_assoc, Nat.add_sub_add_left]

end

end Segment

/-! ## Trails -/

namespace Trail

variable {segments : List Segment} {stop : Nat}

/-- Only the last segment of a source can be unfinished. -/
theorem finished_of_lt {source : Source} (trail : Trail source offset ordinal segments stop)
    (before : stop < source.length) :
    ∀ segment ∈ segments, segment.leadIn.isUnfinished = false := by
  intro segment listed
  by_contra unfinished
  have all := (trail.reads_of_mem listed).next_eq_length (Bool.not_eq_false _ ▸ unfinished)
  have ends := (trail.bounds_of_mem listed).2
  omega

/-- Finished segments leave the same trail whatever follows them. -/
theorem append_right_iff
    (finished : ∀ segment ∈ segments, segment.leadIn.isUnfinished = false)
    (start : offset ≤ left.size) :
    Trail (.ofBytes left) offset ordinal segments stop ↔
      Trail (.ofBytes (left ++ right)) offset ordinal segments stop ∧ stop ≤ left.size := by
  induction segments generalizing offset ordinal with
  | nil =>
    constructor
    · intro trail
      cases trail
      exact ⟨.done, start⟩
    · intro trail
      obtain ⟨trail, inside⟩ := trail
      cases trail
      exact .done
  | cons segment rest ih =>
    obtain ⟨closed, others⟩ := List.forall_mem_cons.1 finished
    constructor
    · intro trail
      cases trail with
      | more read later =>
        obtain ⟨here, before⟩ := (Segment.read_append_of_finished closed).1 read
        obtain ⟨later, inside⟩ := (ih others before).1 later
        exact ⟨.more here later, inside⟩
    · intro trail
      obtain ⟨trail, inside⟩ := trail
      cases trail with
      | more read later =>
        have before := (Nat.le_add_right _ _).trans (later.le_stop.trans inside)
        exact .more ((Segment.read_append_of_finished closed).2 ⟨read, before⟩)
          ((ih others before).2 ⟨later, inside⟩)

/-- A trail is found again where its bytes are moved to. -/
theorem moved {content other : ByteArray} {bytes start : Nat}
    (trail : Trail (.ofBytes content) offset ordinal segments stop)
    (change : Moved content other bytes start) (after : start ≤ offset)
    (total : other.size < UInt64.size) (count : Nat) :
    Trail (.ofBytes other) (bytes + offset) (count + ordinal)
      (segments.map (Segment.shift bytes count)) (bytes + stop) := by
  generalize source : Source.ofBytes content = whole at trail
  induction trail with
  | done => exact .done
  | more read rest ih =>
    subst source
    have step := (Segment.Reads.of_read read).leadIn_le_next
    exact .more (Segment.read_moved change after total count read) (ih (by omega))

end Trail

/-! ## Scans of appended bytes -/

/-- A scan of bytes after bytes that have no unfinished segment finds the segments of both. -/
theorem scan_append (total : left.size + right.size < UInt64.size)
    (first : (scan (.ofBytes left)).error? = none) (second : (scan (.ofBytes right)).error? = none)
    (finished : ∀ segment ∈ (scan (.ofBytes left)).segments,
      segment.leadIn.isUnfinished = false) :
    (scan (.ofBytes (left ++ right))).segments =
        (scan (.ofBytes left)).segments ++ (scan (.ofBytes right)).segments.map
          (Segment.shift left.size (scan (.ofBytes left)).segments.length) ∧
      (scan (.ofBytes (left ++ right))).error? = none := by
  have size : (left ++ right).size = left.size + right.size := ByteArray.size_append
  have length : (Source.ofBytes (left ++ right)).length = left.size + right.size := size
  have early : Trail (.ofBytes left) 0 0 (scan (.ofBytes left)).segments
      (scan (.ofBytes left)).stop := trail_scanFrom _ 0 0
  have late : Trail (.ofBytes right) 0 0 (scan (.ofBytes right)).segments
      (scan (.ofBytes right)).stop := trail_scanFrom _ 0 0
  have all : left.size ≤ (scan (.ofBytes left)).stop := length_le_stop first
  have ends : right.size ≤ (scan (.ofBytes right)).stop := length_le_stop second
  obtain ⟨early, inside⟩ := (Trail.append_right_iff finished (Nat.zero_le _)).1 early
  have here := Nat.le_antisymm inside all
  have behind := late.moved (moved_append left right) (Nat.zero_le _) (size ▸ total)
    (scan (.ofBytes left)).segments.length
  rw [here] at early
  have whole := Trail.append_iff.2 ⟨_, early, by rwa [Nat.zero_add]⟩
  rw [scan, whole.scanFrom_eq (by omega)]
  exact ⟨rfl, rfl⟩

end Tdms
