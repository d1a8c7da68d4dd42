import Mathlib
import Tdms.Proofs.Layout.Visits

/-!
The arithmetic of layouts in 64 bits.

`checkedRuns` lays raw data out as `runs` does, in the order in which a program
with 64-bit numbers works, and has no answer as soon as a sum, a product or a
difference on the way does not fit. `exact_of_fits` is the main result: raw data
that ends below 2^64 is always answered for, and as `runs` does with numbers of
any size.
-/

namespace Tdms

open Metadata (RawIndex)

/-! ## Numbers of 64 bits -/

/-- A number that fits 64 bits. -/
def word? (number : Nat) : Option Nat :=
  if number < UInt64.size then some number else none

theorem word?_of_lt {number : Nat} (fits : number < UInt64.size) : word? number = some number :=
  if_pos fits

theorem word?_eq_some_iff {number found : Nat} :
    word? number = some found ↔ number < UInt64.size ∧ number = found := by
  rw [word?]
  split
  · simp [*]
  · simp [*]

/-- The sum of sizes, if what is added up from left to right fits 64 bits after every step. -/
def checkedSum (sizes : List Nat) : Option Nat :=
  sizes.foldlM (fun sum size => word? (sum + size)) 0

/-- A sum fits after every step if it fits at the end. -/
theorem foldlM_word? {start : Nat} (fits : start < UInt64.size) (sizes : List Nat) :
    sizes.foldlM (fun sum size => word? (sum + size)) start = word? (start + sizes.sum) := by
  induction sizes generalizing start with
  | nil => exact (word?_of_lt fits).symm
  | cons size rest ih =>
    rw [List.foldlM_cons, List.sum_cons, ← Nat.add_assoc]
    by_cases small : start + size < UInt64.size
    · rw [word?_of_lt small]
      exact ih small
    · have large : ¬ start + size + rest.sum < UInt64.size := by omega
      rw [word?, word?, if_neg small, if_neg large]
      rfl

theorem checkedSum_eq (sizes : List Nat) : checkedSum sizes = word? sizes.sum := by
  have whole := foldlM_word? (show 0 < UInt64.size by decide) sizes
  rwa [Nat.zero_add] at whole

/-! ## Layouts -/

namespace Layout

/-- The runs of objects that follow each other, with the place behind each of them checked. -/
def checkedRunsFrom (run : Nat → RawIndex → Option (Option Run)) (size : RawIndex → Nat) :
    (offset : Nat) → List RawIndex → Option (List (Option Run))
  | _, [] => some []
  | offset, index :: rest => do
    let first ← run offset index
    let next ← word? (offset + size index)
    let others ← checkedRunsFrom run size next rest
    some (first :: others)

/-- `contiguousRun`, with every product checked. -/
def checkedContiguousRun (segment : Segment) (size chunks offset : Nat) (index : RawIndex) :
    Option (Option Run) :=
  if 0 < index.size ∧ 0 < index.count then
    let stride := index.type.width
    if 0 < stride ∧ index.size = size then do
      let byteLength ← word? (size * chunks)
      let sampleCount ← word? (index.count * chunks)
      let chunkStride ← word? (size * chunks)
      some <| some
        { segment := segment.ordinal
          offset
          byteLength
          stride
          sampleCount
          chunkCount := 1
          chunkStride
          order := segment.order }
    else
      some <| some
        { segment := segment.ordinal
          offset
          byteLength := index.size
          stride
          sampleCount := index.count
          chunkCount := chunks
          chunkStride := size
          order := segment.order }
  else some none

/-- `contiguousRuns`, with every sum and product checked. -/
def checkedContiguousRuns (segment : Segment) (indexes : List RawIndex) :
    Option (Except Metadata.Fault (List (Option Run))) :=
  match checkedSum (indexes.map RawIndex.size) with
  | none => some (.error .chunkSize)
  | some size =>
    let chunks := segment.dataLength / size
    if size = 0 ∨ chunks = 0 then some (.ok (indexes.map fun _ => none))
    else do
      let runs ← checkedRunsFrom (checkedContiguousRun segment size chunks) RawIndex.size
        segment.dataOffset indexes
      some (.ok runs)

/-- `interleavedRun` for the values that start `field` bytes behind the start of a record, with
all sums, products and differences checked. -/
def checkedInterleavedRun (segment : Segment) (width records field : Nat) (index : RawIndex) :
    Option (Option Run) :=
  if 0 < index.count then do
    let offset ← word? (segment.dataOffset + field)
    let last ← records.ppred
    let before ← word? (last * width)
    let byteLength ← word? (before + index.type.width)
    let chunkStride ← word? (records * width)
    some <| some
      { segment := segment.ordinal
        offset
        byteLength
        stride := width
        sampleCount := records
        chunkCount := 1
        chunkStride
        order := segment.order }
  else some none

/-- `interleavedRuns`, with every sum, product and difference checked. -/
def checkedInterleavedRuns (segment : Segment) (indexes : List RawIndex) :
    Option (Except Metadata.Fault (List (Option Run))) :=
  match indexes.find? fun index => 0 < index.count && index.type.width?.isNone with
  | some index => some (.error (.interleavedWidth index.type))
  | none => do
    let width ← checkedSum (indexes.map fieldWidth)
    let records := segment.dataLength / width
    if width = 0 ∨ records = 0 then some (.ok (indexes.map fun _ => none))
    else do
      let runs ← checkedRunsFrom (checkedInterleavedRun segment width records) fieldWidth 0 indexes
      some (.ok runs)

/-- `runs`, with every sum, product and difference checked. There is no answer if one of them does
not fit 64 bits. -/
def checkedRuns (segment : Segment) (indexes : List RawIndex) :
    Option (Except Metadata.Fault (List (Option Run))) :=
  if segment.isInterleaved then checkedInterleavedRuns segment indexes
  else checkedContiguousRuns segment indexes

/-! ## Nothing overflows -/

section

variable {segment : Segment} {index : RawIndex} {indexes : List RawIndex}

theorem chunkSize_eq_sum (indexes : List RawIndex) :
    chunkSize indexes = (indexes.map RawIndex.size).sum := by
  induction indexes with
  | nil => rfl
  | cons index rest ih => rw [chunkSize, ih, List.map_cons, List.sum_cons]

theorem recordWidth_eq_sum (indexes : List RawIndex) :
    recordWidth indexes = (indexes.map fieldWidth).sum := by
  induction indexes with
  | nil => rfl
  | cons index rest ih => rw [recordWidth, ih, List.map_cons, List.sum_cons]

theorem width_le (type : ScalarType) : type.width ≤ 16 := by
  cases type <;> decide

/-- Records of so few objects that their raw data indexes fit a file are short. -/
theorem recordWidth_lt (few : indexes.length < 2 ^ 59) : recordWidth indexes < UInt64.size := by
  have each : ∀ width ∈ indexes.map fieldWidth, width ≤ 16 := by
    intro width listed
    rcases List.mem_map.1 listed with ⟨index, -, rfl⟩
    rw [fieldWidth]
    split
    · exact width_le index.type
    · exact Nat.zero_le 16
  have total := List.sum_le_card_nsmul _ 16 each
  rw [List.length_map, smul_eq_mul] at total
  rw [recordWidth_eq_sum]
  exact total.trans_lt (by norm_num; omega)

/-- The place behind every object fits if the place behind the last one does. -/
theorem checkedRunsFrom_eq (run : Nat → RawIndex → Option (Option Run))
    (plain : Nat → RawIndex → Option Run) {size : RawIndex → Nat} {offset stop : Nat}
    (stops : offset + (indexes.map size).sum = stop) (fits : stop < UInt64.size)
    (each : ∀ index ∈ indexes, ∀ place, place + size index ≤ stop →
      run place index = some (plain place index)) :
    checkedRunsFrom run size offset indexes = some (slotsFrom plain size offset indexes) := by
  induction indexes generalizing offset with
  | nil => rfl
  | cons index rest ih =>
    rcases List.forall_mem_cons.1 each with ⟨first, later⟩
    rw [List.map_cons, List.sum_cons, ← Nat.add_assoc] at stops
    rw [checkedRunsFrom, first offset (by omega), word?_of_lt (by omega)]
    simp only [Option.bind_eq_bind, Option.bind_some]
    rw [ih stops later]
    rfl

theorem checkedContiguousRun_eq (well : index.WellFormed) {size chunks : Nat}
    (fits : size * chunks < UInt64.size) (offset : Nat) :
    checkedContiguousRun segment size chunks offset index =
      some (contiguousRun segment size chunks offset index) := by
  unfold checkedContiguousRun contiguousRun
  split
  · dsimp only
    split
    · rename_i whole
      have counted : index.count * chunks ≤ size * chunks :=
        Nat.mul_le_mul_right chunks (whole.2 ▸ well.count_le)
      rw [word?_of_lt fits, word?_of_lt (counted.trans_lt fits)]
      rfl
    · rfl
  · rfl

theorem checkedInterleavedRun_eq {width records field : Nat} (turned : 0 < records)
    (rounds : records * width ≤ segment.dataLength) (room : field + fieldWidth index ≤ width)
    (fits : segment.endOffset < UInt64.size) :
    checkedInterleavedRun segment width records field index =
      some (interleavedRun segment width records (segment.dataOffset + field) index) := by
  unfold checkedInterleavedRun interleavedRun
  split
  · rename_i values
    rcases Nat.exists_eq_succ_of_ne_zero turned.ne' with ⟨last, rfl⟩
    rw [Nat.succ_mul] at rounds
    rw [fieldWidth, if_pos values] at room
    unfold Segment.endOffset at fits
    rw [Nat.ppred_succ, word?_of_lt (by omega), Nat.succ_mul]
    simp only [Option.bind_eq_bind, Option.bind_some]
    rw [word?_of_lt (by omega)]
    simp only [Option.bind_some]
    rw [word?_of_lt (by omega), word?_of_lt (by omega)]
    rfl
  · rfl

theorem checkedContiguousRuns_eq (fits : segment.endOffset < UInt64.size)
    (wellFormed : ∀ index ∈ indexes, index.WellFormed) :
    checkedContiguousRuns segment indexes = some (contiguousRuns segment indexes) := by
  have short : segment.dataOffset + segment.dataLength < UInt64.size := fits
  simp only [checkedContiguousRuns, contiguousRuns]
  rw [checkedSum_eq, ← chunkSize_eq_sum]
  by_cases small : chunkSize indexes < UInt64.size
  · rw [word?_of_lt small, if_neg (not_le.2 small)]
    dsimp only
    by_cases none : segment.dataLength / chunkSize indexes = 0
    · rw [if_pos (.inr none), if_pos none]
    · have some : chunkSize indexes ≠ 0 := fun empty => none (by rw [empty, Nat.div_zero])
      have rounds := Nat.mul_div_le segment.dataLength (chunkSize indexes)
      have first : chunkSize indexes ≤ segment.dataLength := by
        by_contra long
        exact none (Nat.div_eq_of_lt (not_le.1 long))
      rw [if_neg (not_or.2 ⟨some, none⟩), if_neg none, contiguousRunsFrom_eq,
        checkedRunsFrom_eq _ _ rfl (by rw [← chunkSize_eq_sum]; omega) fun index listed place _ =>
          checkedContiguousRun_eq (wellFormed index listed) (by omega) place]
      rfl
  · rw [word?, if_neg small, if_pos (not_lt.1 small)]

/-- Slots that are counted from the first of them lie behind where it lies. -/
theorem slotsFrom_add (slot : Nat → RawIndex → Option Run) (size : RawIndex → Nat)
    (base offset : Nat) (indexes : List RawIndex) :
    slotsFrom (fun place => slot (base + place)) size offset indexes =
      slotsFrom slot size (base + offset) indexes := by
  induction indexes generalizing offset with
  | nil => rfl
  | cons index rest ih => rw [slotsFrom, slotsFrom, ih, Nat.add_assoc]

theorem checkedInterleavedRuns_eq (fits : segment.endOffset < UInt64.size)
    (few : indexes.length < 2 ^ 59) :
    checkedInterleavedRuns segment indexes = some (interleavedRuns segment indexes) := by
  have narrow := recordWidth_lt few
  simp only [checkedInterleavedRuns, interleavedRuns]
  cases indexes.find? fun index => 0 < index.count && index.type.width?.isNone with
  | some index => rfl
  | none =>
    rw [checkedSum_eq, ← recordWidth_eq_sum, word?_of_lt narrow]
    simp only [Option.bind_eq_bind, Option.bind_some]
    by_cases none : segment.dataLength / recordWidth indexes = 0
    · rw [if_pos (.inr none), if_pos none]
    · have some : recordWidth indexes ≠ 0 := fun empty => none (by rw [empty, Nat.div_zero])
      have rounds := Nat.div_mul_le_self segment.dataLength (recordWidth indexes)
      have laidOut := checkedRunsFrom_eq
        (checkedInterleavedRun segment (recordWidth indexes)
          (segment.dataLength / recordWidth indexes))
        (fun field => interleavedRun segment (recordWidth indexes)
          (segment.dataLength / recordWidth indexes) (segment.dataOffset + field))
        (Nat.zero_add _) (recordWidth_eq_sum indexes ▸ narrow) fun index _ field room =>
          checkedInterleavedRun_eq (Nat.pos_of_ne_zero none) rounds
            (room.trans_eq (recordWidth_eq_sum indexes).symm) fits
      rw [if_neg (not_or.2 ⟨some, none⟩), if_neg none, interleavedRunsFrom_eq, laidOut,
        slotsFrom_add (interleavedRun segment _ _), Nat.add_zero]
      rfl

/-- Raw data that ends below 2^64 is laid out without a number that does not fit 64 bits. -/
theorem checkedRuns_eq (fits : segment.endOffset < UInt64.size) (few : indexes.length < 2 ^ 59)
    (wellFormed : ∀ index ∈ indexes, index.WellFormed) :
    checkedRuns segment indexes = some (runs segment indexes) := by
  unfold checkedRuns runs
  split
  · exact checkedInterleavedRuns_eq fits few
  · exact checkedContiguousRuns_eq fits wellFormed

/-! ## When raw data is refused -/

theorem contiguousRuns_refuses :
    (∃ fault, contiguousRuns segment indexes = .error fault) ↔
      UInt64.size ≤ (indexes.map RawIndex.size).sum := by
  rw [← chunkSize_eq_sum]
  simp only [contiguousRuns]
  split
  · simp [*]
  · split
    · simp [*]
    · simp [*]

theorem interleavedRuns_refuses :
    (∃ fault, interleavedRuns segment indexes = .error fault) ↔
      ∃ index ∈ indexes, 0 < index.count ∧ index.type = .string := by
  have broken : ∀ index : RawIndex,
      (decide (0 < index.count) && index.type.width?.isNone) = true ↔
        0 < index.count ∧ index.type = .string := by
    intro index
    rw [Bool.and_eq_true, decide_eq_true_eq, Option.isNone_iff_eq_none,
      ScalarType.width?_eq_none_iff]
  simp only [interleavedRuns]
  split
  · rename_i index found
    have held := List.find?_some found
    simp only [Except.error.injEq, exists_eq', true_iff]
    exact ⟨index, List.mem_of_find?_eq_some found, (broken index).1 held⟩
  · rename_i passed
    have kept : ¬ ∃ index ∈ indexes, 0 < index.count ∧ index.type = .string := by
      rintro ⟨index, listed, held⟩
      exact List.find?_eq_none.1 passed index listed ((broken index).2 held)
    simp only [kept, iff_false]
    split
    · simp
    · simp

end

end Layout

/-! ## Runs -/

/-- All samples of a run are counted in 64 bits, and so are the places of its chunks and what
packed samples would take. Samples of `type` take no more bytes than the raw data has. -/
structure Run.Exact (segment : Segment) (type : ScalarType) (run : Run) : Prop where
  total_lt : run.sampleCount * run.chunkCount < UInt64.size
  total_eq : run.totalSamples = run.sampleCount * run.chunkCount
  /-- A string takes at least its end offset. -/
  held_le : run.totalSamples * type.width?.getD 4 ≤ segment.dataLength
  packed_lt : run.sampleCount * run.stride < UInt64.size
  chunk_lt : ∀ chunk < run.chunkCount, run.chunkOffset chunk + run.byteLength < UInt64.size

section

variable {segment : Segment} {type : ScalarType} {run : Run}

/-- The samples of a run take no more bytes than its chunks. -/
theorem Run.Shaped.held_le (shaped : run.Shaped type) :
    run.totalSamples * type.width?.getD 4 ≤ run.chunkCount * run.byteLength := by
  have chunk : run.sampleCount * type.width?.getD 4 ≤ run.byteLength := by
    cases fixed : type.width? with
    | none =>
      have texts := (shaped.texts fixed).2
      rwa [Option.getD_none, Nat.mul_comm]
    | some width =>
      rw [Option.getD_some]
      rcases shaped.spaced width fixed with ⟨-, packed⟩ | ⟨-, apart, spaced⟩
      · exact packed.ge
      · rcases Nat.exists_eq_succ_of_ne_zero shaped.samples_pos.ne' with ⟨last, counted⟩
        have each : last * width ≤ last * run.stride := Nat.mul_le_mul_left last apart.le
        rw [counted, Nat.succ_sub_one] at spaced
        rw [counted, Nat.succ_mul, spaced]
        exact Nat.add_le_add_right each width
  rw [shaped.total_eq, Nat.mul_comm run.sampleCount, Nat.mul_assoc]
  exact Nat.mul_le_mul_left _ chunk

/-- The chunks of a run take no more bytes than the raw data has. -/
theorem Run.Shaped.bytes_le (shaped : run.Shaped type) (within : run.Within segment) :
    run.chunkCount * run.byteLength ≤ segment.dataLength := by
  rcases Nat.exists_eq_succ_of_ne_zero shaped.chunks_pos.ne' with ⟨last, counted⟩
  have first := (within.inside 0 shaped.chunks_pos).1
  have final := (within.inside last (by omega)).2
  have each : last * run.byteLength ≤ last * run.chunkStride :=
    Nat.mul_le_mul_left last shaped.length_le
  rw [Run.chunkOffset, Nat.zero_mul, Nat.add_zero] at first
  unfold Run.chunkOffset Segment.endOffset at final
  rw [counted, Nat.succ_mul]
  omega

end

namespace Layout

section

variable {segment : Segment} {index : RawIndex} {indexes : List RawIndex}
  {size turns offset : Nat} {run : Run}

/-- Packed samples would take no more bytes than all rounds. -/
theorem packed_le (well : index.WellFormed) (turned : 0 < turns)
    (room : advance segment.isInterleaved index ≤ size)
    (found : slot segment size turns offset index = some run) :
    run.sampleCount * run.stride ≤ turns * size := by
  unfold slot at found
  unfold advance at room
  cases interleaved : segment.isInterleaved with
  | true =>
    rw [if_pos interleaved, interleavedRun] at found
    split at found
    · cases found
      exact le_rfl
    · cases found
  | false =>
    rw [interleaved, if_neg Bool.false_ne_true] at found room
    have filled : index.count * index.type.width ≤ index.size := by
      cases fixed : index.type.width? with
      | none => simp [ScalarType.width, fixed]
      | some width => rw [(ScalarType.width_of_width? fixed).1, well.size_eq fixed]
    have one : size ≤ turns * size := Nat.le_mul_of_pos_left size turned
    simp only [contiguousRun] at found
    split at found
    · split at found
      · cases found
        dsimp only
        rw [Nat.mul_comm index.count, Nat.mul_assoc]
        exact Nat.mul_le_mul_left turns (filled.trans room)
      · cases found
        exact (filled.trans room).trans one
    · cases found

/-- The runs of a layout take numbers of 64 bits. -/
theorem exact_of_runs (fits : segment.endOffset < UInt64.size)
    (wellFormed : ∀ index ∈ indexes, index.WellFormed) {laid : List (Option Run)}
    (found : runs segment indexes = .ok laid) {number : Nat}
    (listed : indexes[number]? = some index) (placed : laid[number]? = some (some run)) :
    run.Exact segment index.type := by
  have well := wellFormed index (List.mem_of_getElem? listed)
  have short : segment.dataLength < UInt64.size := by
    unfold Segment.endOffset at fits
    omega
  rcases slot_of_runs found listed placed with
    ⟨-, none⟩ | ⟨turned, fixed, before, after, split, -, here⟩
  · cases none
  · have room : roundBytes segment before + advance segment.isInterleaved index ≤
        roundBytes segment indexes := by
      rw [roundBytes, roundBytes, split, List.map_append, List.sum_append, List.map_cons,
        List.sum_cons]
      omega
    have rounds := Nat.div_mul_le_self segment.dataLength (roundBytes segment indexes)
    rcases shaped_slot well fixed (Nat.pos_of_ne_zero turned) room rounds short here.symm with
      ⟨shaped, within⟩
    have held := shaped.held_le.trans (shaped.bytes_le within)
    have packed := packed_le well (Nat.pos_of_ne_zero turned) (by omega) here.symm
    refine ⟨?_, shaped.total_eq, held, (packed.trans rounds).trans_lt short, ?_⟩
    · rw [← shaped.total_eq]
      unfold Run.totalSamples
      omega
    · intro chunk counted
      exact (within.inside chunk counted).2.trans_lt fits

/-- How the raw data of a segment is laid out in 64 bits. -/
structure Exact (segment : Segment) (indexes : List RawIndex) : Prop where
  refused_iff : (∃ fault, runs segment indexes = .error fault) ↔
    if segment.isInterleaved then ∃ index ∈ indexes, 0 < index.count ∧ index.type = .string
    else UInt64.size ≤ (indexes.map RawIndex.size).sum
  /-- Nothing that is worked out on the way takes more than 64 bits. -/
  checked_eq : checkedRuns segment indexes = some (runs segment indexes)
  runs_exact : ∀ laid, runs segment indexes = .ok laid →
    ∀ (number : Nat) (index : RawIndex) (run : Run), indexes[number]? = some index →
      laid[number]? = some (some run) → run.Exact segment index.type

theorem exact_of_fits (fits : segment.endOffset < UInt64.size) (few : indexes.length < 2 ^ 59)
    (wellFormed : ∀ index ∈ indexes, index.WellFormed) : Exact segment indexes where
  refused_iff := by
    unfold runs
    split
    · exact interleavedRuns_refuses
    · exact contiguousRuns_refuses
  checked_eq := checkedRuns_eq fits few wellFormed
  runs_exact _ found _ _ _ := exact_of_runs fits wellFormed found

end

end Layout

end Tdms
