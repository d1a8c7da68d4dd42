import Mathlib
import Tdms.Proofs.Segment.Cut

/-!
How the segments of a scan lie behind one another.

A `Trail` is a row of segments, each read where the one before it ends. A scan
is the longest trail from the start of a source, and `Trail.existsUnique_iff`
says that its segments tile the bytes up to where it stops. `Scanner` is the
same scan one item at a time. `scan_tiles` puts the two together for bytes held
in memory, whatever they are.
-/

namespace Tdms

variable {source : Source} {offset ordinal next stop : Nat} {segment : Segment}
  {segments others : List Segment}

namespace Segment

/-- Where the segment after this one starts, in a source of `length` bytes: where the lead-in says,
or at the end of the source if the segment was never finished. -/
def nextOffset (length : Nat) (segment : Segment) : Nat :=
  if segment.leadIn.isUnfinished then length
  else segment.offset + leadInLength + segment.leadIn.nextSegmentOffset.toNat

/-- The byte at `position` belongs to the segment, in a source of `length` bytes. -/
def Covers (length : Nat) (segment : Segment) (position : Nat) : Prop :=
  segment.offset ≤ position ∧ position < segment.nextOffset length

theorem Reads.next_eq_nextOffset (reads : Reads source offset ordinal segment next) :
    next = segment.nextOffset source.length := by
  rw [nextOffset]
  split
  · rename_i unfinished
    exact reads.next_eq_length unfinished
  · rename_i finished
    rw [reads.next_eq, declaredLength, if_neg finished, reads.offset_eq]

theorem Reads.leadIn_le_next (reads : Reads source offset ordinal segment next) :
    offset + leadInLength ≤ next :=
  reads.leadIn_le.trans reads.dataOffset_le_next

end Segment

/-! ## Trails -/

/-- Segments that are read one after another, the first of them at `offset`. The segment after the
last one starts at `stop`, or would start there. -/
inductive Trail (source : Source) : (offset ordinal : Nat) → List Segment → (stop : Nat) → Prop
  | done {offset ordinal : Nat} : Trail source offset ordinal [] offset
  | more {offset ordinal next stop : Nat} {segment : Segment} {rest : List Segment} :
    Segment.read source offset ordinal = .ok (some (segment, next)) →
      Trail source next (ordinal + 1) rest stop →
        Trail source offset ordinal (segment :: rest) stop

/-- A scan leaves a trail. -/
theorem trail_scanFrom (source : Source) (offset ordinal : Nat) :
    Trail source offset ordinal (scanFrom source offset ordinal).segments
      (scanFrom source offset ordinal).stop := by
  fun_induction scanFrom source offset ordinal with
  | case1 offset ordinal error found => exact .done
  | case2 offset ordinal found => exact .done
  | case3 offset ordinal segment next found rest ih => exact .more found ih

namespace Trail

theorem scanned (trail : Trail source offset ordinal segments stop) :
    Scanned source offset ordinal segments := by
  induction trail with
  | done => exact .done
  | more read _ ih => exact .more (.of_read read) ih

theorem le_stop (trail : Trail source offset ordinal segments stop) :
    offset + leadInLength * segments.length ≤ stop := by
  induction trail with
  | done => exact le_rfl
  | more read _ ih =>
    have after := (Segment.Reads.of_read read).leadIn_le_next
    rw [List.length_cons, Nat.mul_succ]
    omega

theorem stop_le (trail : Trail source offset ordinal segments stop)
    (start : offset ≤ source.length) : stop ≤ source.length := by
  induction trail with
  | done => exact start
  | more read _ ih => exact ih (Segment.Reads.of_read read).next_le

/-- Each segment of a trail lies between the start and the stop of the trail. -/
theorem bounds_of_mem (trail : Trail source offset ordinal segments stop)
    (listed : segment ∈ segments) :
    offset ≤ segment.offset ∧ segment.nextOffset source.length ≤ stop := by
  induction trail with
  | done => cases listed
  | more read rest ih =>
    have reads := Segment.Reads.of_read read
    have after := reads.leadIn_le_next
    have whole := rest.le_stop
    rcases List.mem_cons.1 listed with rfl | later
    · rw [← reads.next_eq_nextOffset]
      exact ⟨reads.offset_eq.ge, by omega⟩
    · have inside := ih later
      omega

/-- Each segment of a trail was read where it starts. -/
theorem reads_of_mem (trail : Trail source offset ordinal segments stop)
    (listed : segment ∈ segments) :
    Segment.Reads source segment.offset segment.ordinal segment
      (segment.nextOffset source.length) := by
  induction trail with
  | done => cases listed
  | more read _ ih =>
    have reads := Segment.Reads.of_read read
    rcases List.mem_cons.1 listed with rfl | later
    · rwa [← reads.next_eq_nextOffset, reads.offset_eq, reads.ordinal_eq]
    · exact ih later

theorem offset_of_zero (trail : Trail source offset ordinal segments stop)
    (found : segments[0]? = some segment) : segment.offset = offset := by
  cases trail with
  | done => cases found
  | more read _ =>
    cases found
    exact (Segment.Reads.of_read read).offset_eq

/-- A segment of a trail starts where the one before it ends. -/
theorem offset_of_succ (trail : Trail source offset ordinal segments stop) {position : Nat}
    {before : Segment} (here : segments[position]? = some before)
    (later : segments[position + 1]? = some segment) :
    segment.offset = before.nextOffset source.length := by
  induction trail generalizing position with
  | done => cases here
  | more read rest ih =>
    cases position with
    | zero =>
      cases here
      rw [rest.offset_of_zero later, (Segment.Reads.of_read read).next_eq_nextOffset]
    | succ position => exact ih here later

/-- The segments of a trail tile the bytes from its start to its stop. -/
theorem existsUnique_iff (trail : Trail source offset ordinal segments stop) (position : Nat) :
    (∃! segment, segment ∈ segments ∧ segment.Covers source.length position) ↔
      offset ≤ position ∧ position < stop := by
  induction trail with
  | done =>
    simp only [List.not_mem_nil, false_and, existsUnique_false, false_iff]
    omega
  | @more offset ordinal next stop segment rest read trail ih =>
    have reads := Segment.Reads.of_read read
    have first : segment.Covers source.length position ↔ offset ≤ position ∧ position < next := by
      rw [Segment.Covers, ← reads.next_eq_nextOffset, reads.offset_eq]
    have after := reads.leadIn_le_next
    have whole := trail.le_stop
    have behind : ∀ other ∈ rest, other.Covers source.length position → next ≤ position :=
      fun other listed covers => (trail.bounds_of_mem listed).1.trans covers.1
    constructor
    · intro held
      obtain ⟨other, ⟨listed, covers⟩, -⟩ := held
      rcases List.mem_cons.1 listed with rfl | later
      · have here := first.1 covers
        omega
      · have start := behind other later covers
        have ends := (trail.bounds_of_mem later).2
        have inside := covers.2
        omega
    · intro inside
      by_cases here : position < next
      · refine ⟨segment, ⟨List.mem_cons_self, first.2 ⟨inside.1, here⟩⟩, ?_⟩
        intro other also
        obtain ⟨listed, covers⟩ := also
        rcases List.mem_cons.1 listed with rfl | later
        · rfl
        · exact absurd (behind other later covers) (not_le.2 here)
      · obtain ⟨other, ⟨listed, covers⟩, unique⟩ := ih.2 ⟨not_lt.1 here, inside.2⟩
        refine ⟨other, ⟨List.mem_cons_of_mem _ listed, covers⟩, ?_⟩
        intro another held
        obtain ⟨among, also⟩ := held
        rcases List.mem_cons.1 among with rfl | later
        · exact absurd (first.1 also).2 here
        · exact unique another ⟨later, also⟩

/-- A trail that goes on to the end is the whole scan. -/
theorem scanFrom_eq (trail : Trail source offset ordinal segments stop)
    (ended : source.length ≤ stop) : scanFrom source offset ordinal = ⟨segments, stop, none⟩ := by
  induction trail with
  | done => exact scanFrom_of_none (Segment.read_end ended)
  | more read _ ih => rw [scanFrom_of_some read, ih ended]

/-- Two trails, the second from where the first stops, are one. -/
theorem append_iff :
    Trail source offset ordinal (segments ++ others) stop ↔
      ∃ middle, Trail source offset ordinal segments middle ∧
        Trail source middle (ordinal + segments.length) others stop := by
  induction segments generalizing offset ordinal with
  | nil =>
    constructor
    · exact fun trail => ⟨offset, .done, trail⟩
    · intro parts
      obtain ⟨middle, first, second⟩ := parts
      cases first
      exact second
  | cons segment rest ih =>
    have number : ordinal + (segment :: rest).length = ordinal + 1 + rest.length := by
      rw [List.length_cons]
      omega
    rw [number]
    constructor
    · intro trail
      cases trail with
      | more read trail =>
        obtain ⟨middle, first, second⟩ := ih.1 trail
        exact ⟨middle, .more read first, second⟩
    · intro parts
      obtain ⟨middle, first, second⟩ := parts
      cases first with
      | more read first => exact .more read (ih.2 ⟨middle, first, second⟩)

/-- A segment of a trail was read between the trails before it and behind it. -/
theorem exists_of_append {before after : List Segment}
    (trail : Trail source offset ordinal (before ++ segment :: after) stop) :
    ∃ next, Segment.Reads source segment.offset segment.ordinal segment next ∧
      segment.ordinal = ordinal + before.length ∧
      Trail source offset ordinal before segment.offset ∧
      Trail source next (segment.ordinal + 1) after stop := by
  obtain ⟨middle, first, second⟩ := append_iff.1 trail
  cases second with
  | @more _ _ next _ _ _ read rest =>
    have reads := Segment.Reads.of_read read
    obtain rfl := reads.offset_eq
    have number := reads.ordinal_eq
    rw [← number] at reads rest
    exact ⟨next, reads, number, first, rest⟩

end Trail

/-! ## One item at a time -/

/-- The segments that a scan found, and behind them the error that stopped it, if one did. -/
def Scan.items (found : Scan) : List (Except Error Segment) :=
  found.segments.map .ok ++ found.error?.toList.map .error

/-- A scan under way. -/
structure Scanner where
  /-- Where the next segment starts. -/
  offset : Nat
  /-- Number of segments found so far. -/
  ordinal : Nat
  /-- Whether the end or an error was found. -/
  done : Bool

namespace Scanner

def start : Scanner :=
  ⟨0, 0, false⟩

/-- The next item of a scan, if there is one, and the scan behind it. -/
def step (source : Source) (scanner : Scanner) : Option (Except Error Segment) × Scanner :=
  if scanner.done then (none, scanner)
  else
    match Segment.read source scanner.offset scanner.ordinal with
    | .error error => (some (.error error), { scanner with done := true })
    | .ok none => (none, { scanner with done := true })
    | .ok (some (segment, next)) => (some (.ok segment), ⟨next, scanner.ordinal + 1, false⟩)

/-- What a scan answers to the request with the given number. -/
def item? (source : Source) : (request : Nat) → Scanner → Option (Except Error Segment)
  | 0, scanner => (scanner.step source).1
  | request + 1, scanner => item? source request (scanner.step source).2

theorem item?_of_done {scanner : Scanner} (ended : scanner.done = true) (request : Nat) :
    item? source request scanner = none := by
  have still : scanner.step source = (none, scanner) := if_pos ended
  induction request with
  | zero => rw [item?, still]
  | succ request ih => rw [item?, still, ih]

/-- A scan that is asked again and again answers with its items, and then with nothing for ever. -/
theorem item?_eq (source : Source) (offset ordinal request : Nat) :
    item? source request ⟨offset, ordinal, false⟩ =
      (scanFrom source offset ordinal).items[request]? := by
  fun_induction scanFrom source offset ordinal generalizing request with
  | case1 offset ordinal error found =>
    have last : step source ⟨offset, ordinal, false⟩ =
        (some (.error error), ⟨offset, ordinal, true⟩) := by
      simp only [step, found, Bool.false_eq_true, if_false]
    cases request with
    | zero => rw [item?, last]; rfl
    | succ request => rw [item?, last, item?_of_done rfl]; rfl
  | case2 offset ordinal found =>
    have last : step source ⟨offset, ordinal, false⟩ = (none, ⟨offset, ordinal, true⟩) := by
      simp only [step, found, Bool.false_eq_true, if_false]
    cases request with
    | zero => rw [item?, last]; rfl
    | succ request => rw [item?, last, item?_of_done rfl]; rfl
  | case3 offset ordinal segment next found rest ih =>
    have one : step source ⟨offset, ordinal, false⟩ =
        (some (.ok segment), ⟨next, ordinal + 1, false⟩) := by
      simp only [step, found, Bool.false_eq_true, if_false]
    cases request with
    | zero => rw [item?, one]; rfl
    | succ request => rw [item?, one, ih]; rfl

end Scanner

/-! ## Bytes held in memory -/

/-- Where the parts of a segment lie in the content it was read from. -/
structure Segment.Placed (content : ByteArray) (segment : Segment) : Prop where
  metadataOffset_eq : segment.metadataOffset = segment.offset + leadInLength
  dataOffset_eq :
    segment.dataOffset = segment.metadataOffset + segment.leadIn.rawDataOffset.toNat
  metadata_eq : segment.metadata =
    if segment.leadIn.contents.hasMetadata then
      some (window content segment.metadataOffset (segment.dataOffset - segment.metadataOffset))
    else none
  data_ends : segment.leadIn.contents.hasRawData = true →
    segment.dataOffset + segment.dataLength = segment.nextOffset content.size
  data_absent : segment.leadIn.contents.hasRawData = false → segment.dataLength = 0
  inside : segment.endOffset ≤ segment.nextOffset content.size ∧
    segment.dataOffset ≤ segment.nextOffset content.size ∧
    segment.nextOffset content.size ≤ content.size

/-- What a scan finds in `content`. -/
structure Scan.Tiling (content : ByteArray) (found : Scan) : Prop where
  /-- The scan answers with one item after another, and with nothing behind the last one. -/
  item?_eq : ∀ request,
    Scanner.item? (.ofBytes content) request .start = found.items[request]?
  length_le : found.segments.length ≤ content.size / leadInLength
  ordinal_eq : ∀ (position : Nat) (segment : Segment),
    found.segments[position]? = some segment → segment.ordinal = position
  first : ∀ segment, found.segments[0]? = some segment → segment.offset = 0
  follows : ∀ (position : Nat) (before after : Segment),
    found.segments[position]? = some before → found.segments[position + 1]? = some after →
      after.offset = before.nextOffset content.size
  placed : ∀ segment ∈ found.segments, segment.Placed content
  stop_le : found.stop ≤ content.size
  /-- Without an error the scan goes on to the end. -/
  stop_eq : found.error? = none → found.stop = content.size
  /-- Every byte before the stop belongs to exactly one segment, and no other byte to any. -/
  tiled : ∀ position,
    (∃! segment, segment ∈ found.segments ∧ segment.Covers content.size position) ↔
      position < found.stop

theorem Segment.Reads.placed {content : ByteArray}
    (reads : Segment.Reads (.ofBytes content) offset ordinal segment next) :
    segment.Placed content := by
  have ends := reads.next_eq_nextOffset
  have order := reads.dataOffset_le_next
  have inside := reads.next_le
  have place := reads.dataOffset_eq
  have length := reads.dataLength_eq
  have metadata := reads.metadata_read
  rw [Source.length_ofBytes] at ends inside
  rw [ends] at order inside length
  rw [← reads.metadataOffset_eq] at place
  refine ⟨by rw [reads.metadataOffset_eq, reads.offset_eq], place, ?_, fun flag => ?_,
    fun flag => ?_, ends ▸ reads.endOffset_le, order, inside⟩
  · rw [readMetadata, ← reads.metadataOffset_eq, read_ofBytes (by omega)] at metadata
    rw [place, Nat.add_sub_cancel_left]
    split at metadata
    · rename_i flag
      rw [if_pos flag]
      exact (Except.ok.inj metadata).symm
    · rename_i flag
      rw [if_neg flag]
      exact (Except.ok.inj metadata).symm
  · rw [length, if_pos flag]
    omega
  · rw [length, flag]
    rfl

/-- Whatever the bytes, a scan of them ends. It finds segments that lie one behind the other from
the first byte on, and nothing behind an error. Without an error they tile all bytes. -/
theorem scan_tiles (content : ByteArray) :
    (scan (.ofBytes content)).Tiling content := by
  have trail := trail_scanFrom (.ofBytes content) 0 0
  have inside : (scanFrom (.ofBytes content) 0 0).stop ≤ content.size :=
    trail.stop_le (Nat.zero_le _)
  refine ⟨Scanner.item?_eq _ 0 0, ?_, fun position segment found => ?_,
    fun segment => trail.offset_of_zero, fun position before after => trail.offset_of_succ,
    fun segment listed => ?_, inside, fun ended => inside.antisymm (length_le_stop ended),
    fun position => ?_⟩
  · rw [Nat.le_div_iff_mul_le (by decide), Nat.mul_comm]
    have whole := trail.le_stop
    rw [Nat.zero_add] at whole
    exact whole.trans inside
  · exact (trail.scanned.ordinal_of_getElem? found).trans (Nat.zero_add position)
  · exact (trail.reads_of_mem listed).placed
  · have tiled := trail.existsUnique_iff position
    rw [and_iff_right (Nat.zero_le _)] at tiled
    exact tiled

end Tdms
