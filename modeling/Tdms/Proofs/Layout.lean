import Mathlib
import Tdms.Proofs.Walk

/-!
The layout of raw data, object by object.

`Layout.slot` is the run of one object for either kind of layout; a layout is
a row of slots, one for each object with raw data. `pieces_slot` says which
pieces a slot holds, and `shaped_slot` what its run looks like and where it
lies.
-/

namespace Tdms

open Metadata (RawIndex)

/-- The pieces of a run of samples of `type`, chunk by chunk. -/
def Run.pieces (type : ScalarType) (run : Run) : List Piece :=
  (List.range run.chunkCount).flatMap fun chunk =>
    Piece.row type run.order (run.chunkOffset chunk) run.byteLength run.stride run.sampleCount

theorem Run.pieces_of_one {type : ScalarType} {run : Run} (single : run.chunkCount = 1) :
    run.pieces type =
      Piece.row type run.order run.offset run.byteLength run.stride run.sampleCount := by
  rw [Run.pieces, single, List.range_one, List.flatMap_singleton, Run.chunkOffset, Nat.zero_mul,
    Nat.add_zero]

/-! ## Rows of pieces -/

/-- Counting through `n` groups of `m` is counting to `m * n`. -/
theorem map_range_mul {α : Type} (f : Nat → α) (m n : Nat) :
    (List.range (m * n)).map f =
      (List.range n).flatMap fun k => (List.range m).map fun i => f (k * m + i) := by
  induction n with
  | zero => rfl
  | succ n ih =>
    rw [Nat.mul_succ, List.range_add, List.map_append, ih, List.range_succ, List.flatMap_append,
      List.flatMap_singleton, List.map_map]
    congr 1
    apply List.map_congr_left
    intro i _
    rw [Function.comp, Nat.mul_comm m n]

namespace Piece

variable {type : ScalarType} {order : ByteOrder} {offset length stride count width : Nat}

theorem row_of_width (fixed : type.width? = some width) :
    row type order offset length stride count =
      (List.range count).map fun sample => ⟨offset + sample * stride, width, 1, order⟩ := by
  rw [row, fixed]

theorem row_of_string (varying : type.width? = none) :
    row type order offset length stride count = [⟨offset, length, count, order⟩] := by
  rw [row, varying]

/-- The pieces of a row hold samples exactly if the row does. -/
theorem filter_row :
    ((row type order offset length stride count).filter fun piece => 0 < piece.count) =
      if 0 < count then row type order offset length stride count else [] := by
  cases fixed : type.width? with
  | none =>
    rw [row_of_string fixed]
    by_cases some : 0 < count
    · simp [some]
    · simp [some]
  | some width =>
    rw [row_of_width fixed]
    by_cases some : 0 < count
    · simp [some]
    · obtain rfl : count = 0 := by omega
      rfl

end Piece

theorem ScalarType.exists_width {type : ScalarType} (notString : type ≠ .string) :
    ∃ width, type.width? = some width := by
  cases fixed : type.width? with
  | none => exact absurd (width?_eq_none_iff.1 fixed) notString
  | some width => exact ⟨width, rfl⟩

theorem ScalarType.width_of_width? {type : ScalarType} {width : Nat}
    (fixed : type.width? = some width) : type.width = width ∧ 0 < width := by
  have same : type.width = width := by rw [ScalarType.width, fixed, Option.getD_some]
  have notString : type ≠ .string := by
    rintro rfl
    cases fixed
  exact ⟨same, same ▸ ScalarType.width_pos notString⟩

namespace Metadata.RawIndex.WellFormed

variable {index : RawIndex} {width : Nat}

theorem size_eq (well : index.WellFormed) (fixed : index.type.width? = some width) :
    index.size = index.count * width := by
  obtain ⟨-, -, room⟩ := well
  rwa [fixed] at room

theorem table_le (well : index.WellFormed) (varying : index.type.width? = none) :
    4 * index.count ≤ index.size := by
  obtain ⟨-, -, room⟩ := well
  rwa [varying] at room

/-- A well-formed index declares at least one byte for each value. -/
theorem count_le (well : index.WellFormed) : index.count ≤ index.size := by
  cases fixed : index.type.width? with
  | none =>
    have table := well.table_le fixed
    omega
  | some width =>
    rw [well.size_eq fixed]
    exact Nat.le_mul_of_pos_right _ (ScalarType.width_of_width? fixed).2

theorem size_pos (well : index.WellFormed) (values : 0 < index.count) : 0 < index.size :=
  values.trans_le well.count_le

end Metadata.RawIndex.WellFormed

namespace Layout

/-! ## A layout is a row of slots -/

/-- The slots of indexes that follow each other, the first of them at `offset`. -/
def slotsFrom (slot : Nat → RawIndex → Option Run) (advance : RawIndex → Nat) :
    (offset : Nat) → List RawIndex → List (Option Run)
  | _, [] => []
  | offset, index :: rest =>
    slot offset index :: slotsFrom slot advance (offset + advance index) rest

theorem contiguousRunsFrom_eq (segment : Segment) (size chunks offset : Nat)
    (indexes : List RawIndex) :
    contiguousRunsFrom segment size chunks offset indexes =
      slotsFrom (contiguousRun segment size chunks) RawIndex.size offset indexes := by
  induction indexes generalizing offset with
  | nil => rfl
  | cons index rest ih => rw [contiguousRunsFrom, slotsFrom, ih]

theorem interleavedRunsFrom_eq (segment : Segment) (width records offset : Nat)
    (indexes : List RawIndex) :
    interleavedRunsFrom segment width records offset indexes =
      slotsFrom (interleavedRun segment width records) fieldWidth offset indexes := by
  induction indexes generalizing offset with
  | nil => rfl
  | cons index rest ih => rw [interleavedRunsFrom, slotsFrom, ih]

/-- The run of an object whose bytes start at `offset` in the first of `turns` rounds of `size`
bytes. -/
def slot (segment : Segment) (size turns offset : Nat) (index : RawIndex) : Option Run :=
  if segment.isInterleaved then interleavedRun segment size turns offset index
  else contiguousRun segment size turns offset index

/-- Bytes of an object in every round. -/
def advance (interleaved : Bool) (index : RawIndex) : Nat :=
  if interleaved then fieldWidth index else index.size

theorem roundSize_shares_cons (interleaved : Bool) (owner : ObjectPath × RawIndex)
    (owners : List (ObjectPath × RawIndex)) :
    Walk.roundSize (Walk.shares interleaved (owner :: owners)) =
      advance interleaved owner.2 + Walk.roundSize (Walk.shares interleaved owners) := by
  rw [Walk.shares, List.filterMap_cons, Walk.share?, advance]
  cases interleaved with
  | false => rfl
  | true =>
    by_cases values : 0 < owner.2.count
    · simp [values, fieldWidth, Walk.roundSize, Walk.shares]
    · simp [values, fieldWidth, Walk.shares]

theorem roundSize_contiguous (owners : List (ObjectPath × RawIndex)) :
    Walk.roundSize (Walk.shares false owners) = chunkSize (owners.map Prod.snd) := by
  induction owners with
  | nil => rfl
  | cons owner rest ih =>
    rw [roundSize_shares_cons, ih]
    rfl

theorem roundSize_interleaved (owners : List (ObjectPath × RawIndex)) :
    Walk.roundSize (Walk.shares true owners) = recordWidth (owners.map Prod.snd) := by
  induction owners with
  | nil => rfl
  | cons owner rest ih =>
    rw [roundSize_shares_cons, ih]
    rfl

theorem contiguousRuns_eq_ok {segment : Segment} {indexes : List RawIndex}
    {runs : List (Option Run)} :
    contiguousRuns segment indexes = .ok runs ↔
      chunkSize indexes < UInt64.size ∧
        runs = if segment.dataLength / chunkSize indexes = 0 then indexes.map fun _ => none
          else contiguousRunsFrom segment (chunkSize indexes)
            (segment.dataLength / chunkSize indexes) segment.dataOffset indexes := by
  simp only [contiguousRuns]
  split
  · rename_i large
    simp only [reduceCtorEq, false_iff]
    rintro ⟨small, -⟩
    omega
  · rename_i small
    split
    · simp only [Except.ok.injEq, not_le.1 small, true_and]
      exact eq_comm
    · simp only [Except.ok.injEq, not_le.1 small, true_and]
      exact eq_comm

theorem interleavedRuns_eq_ok {segment : Segment} {indexes : List RawIndex}
    {runs : List (Option Run)} :
    interleavedRuns segment indexes = .ok runs ↔
      (∀ index ∈ indexes, 0 < index.count → index.type.width?.isSome) ∧
        runs = if segment.dataLength / recordWidth indexes = 0 then indexes.map fun _ => none
          else interleavedRunsFrom segment (recordWidth indexes)
            (segment.dataLength / recordWidth indexes) segment.dataOffset indexes := by
  simp only [interleavedRuns]
  split
  · rename_i index varying
    simp only [reduceCtorEq, false_iff]
    rintro ⟨fixed, -⟩
    have broken := List.find?_some varying
    simp only [Bool.and_eq_true, decide_eq_true_eq, Option.isNone_iff_eq_none] at broken
    have width := fixed index (List.mem_of_find?_eq_some varying) broken.1
    rw [broken.2] at width
    cases width
  · rename_i passed
    have fixed : ∀ index ∈ indexes, 0 < index.count → index.type.width?.isSome := by
      intro index listed values
      have kept := List.find?_eq_none.1 passed index listed
      cases width : index.type.width? with
      | none => simp [values, width] at kept
      | some width => rfl
    split
    · rw [Except.ok.injEq, and_iff_right fixed]
      exact eq_comm
    · rw [Except.ok.injEq, and_iff_right fixed]
      exact eq_comm

/-! ## The bytes of a slot -/

/-- The pieces in the blocks of one object, `turns` blocks that are `size` bytes apart. Blocks of
strings without a string in them have none. -/
def blockPieces (segment : Segment) (size turns offset : Nat) (owner : ObjectPath × RawIndex) :
    List Piece :=
  (List.range turns).flatMap fun turn =>
    ((Walk.share? segment.isInterleaved owner).toList.flatMap fun share =>
      Walk.Block.pieces ⟨share, offset + turn * size, segment.order⟩).filter
        fun piece => 0 < piece.count

section

variable {segment : Segment} {path : ObjectPath} {index : RawIndex} {size turns offset : Nat}

theorem pieces_interleavedRun {width : Nat} (known : index.type.width? = some width)
    (interleaved : segment.isInterleaved = true) :
    (interleavedRun segment size turns offset index).toList.flatMap (Run.pieces index.type) =
      blockPieces segment size turns offset (path, index) := by
  rw [blockPieces, interleavedRun, Walk.share?, if_pos interleaved]
  by_cases values : 0 < index.count
  · have one : ∀ turn,
        ((some (Walk.Share.mk path index.type 1 index.type.width)).toList.flatMap fun share =>
          Walk.Block.pieces ⟨share, offset + turn * size, segment.order⟩).filter
            (fun piece => 0 < piece.count) =
          [⟨offset + turn * size, width, 1, segment.order⟩] := by
      intro turn
      rw [Option.toList_some, List.flatMap_singleton, Walk.Block.pieces, Piece.filter_row,
        if_pos Nat.one_pos, Piece.row_of_width known]
      simp
    rw [if_pos values, Option.toList_some, List.flatMap_singleton, Run.pieces_of_one rfl,
      Piece.row_of_width known]
    simp only [if_pos values, one]
    rw [List.map_eq_flatMap]
  · simp [values]

theorem pieces_contiguousRun (well : index.WellFormed)
    (contiguous : segment.isInterleaved = false) :
    (contiguousRun segment size turns offset index).toList.flatMap (Run.pieces index.type) =
      blockPieces segment size turns offset (path, index) := by
  have chunk : ∀ turn,
      ((some (Walk.Share.mk path index.type index.count index.size)).toList.flatMap fun share =>
        Walk.Block.pieces ⟨share, offset + turn * size, segment.order⟩).filter
          (fun piece => 0 < piece.count) =
        if 0 < index.count then
          Piece.row index.type segment.order (offset + turn * size) index.size index.type.width
            index.count
        else [] := by
    intro turn
    rw [Option.toList_some, List.flatMap_singleton, Walk.Block.pieces, Piece.filter_row]
  rw [blockPieces, contiguousRun, Walk.share?, contiguous, if_neg Bool.false_ne_true]
  simp only [chunk]
  by_cases values : 0 < index.count
  · rw [if_pos ⟨well.size_pos values, values⟩]
    simp only [if_pos values]
    split
    · rename_i whole
      obtain ⟨width, known⟩ : ∃ width, index.type.width? = some width := by
        cases known : index.type.width? with
        | none =>
          rw [ScalarType.width, known] at whole
          exact absurd whole.1 (Nat.lt_irrefl 0)
        | some width => exact ⟨width, rfl⟩
      have same := (ScalarType.width_of_width? known).1
      have filled : size = index.count * width := whole.2.symm.trans (well.size_eq known)
      rw [Option.toList_some, List.flatMap_singleton, Run.pieces_of_one rfl,
        Piece.row_of_width known, map_range_mul]
      simp only [Piece.row_of_width known, same, filled]
      congr 1
      funext turn
      apply List.map_congr_left
      intro sample _
      have place : offset + (turn * index.count + sample) * width =
          offset + turn * (index.count * width) + sample * width := by ring
      rw [place]
    · rw [Option.toList_some, List.flatMap_singleton, Run.pieces]
      rfl
  · rw [if_neg fun both => values both.2]
    simp [values]

/-- A slot holds the pieces in the blocks of its object. -/
theorem pieces_slot (well : index.WellFormed)
    (fixed : segment.isInterleaved = true → 0 < index.count → index.type.width?.isSome) :
    (slot segment size turns offset index).toList.flatMap (Run.pieces index.type) =
      blockPieces segment size turns offset (path, index) := by
  unfold slot
  cases interleaved : segment.isInterleaved with
  | true =>
    rw [if_pos rfl]
    by_cases values : 0 < index.count
    · obtain ⟨width, known⟩ := Option.isSome_iff_exists.1 (fixed interleaved values)
      exact pieces_interleavedRun known interleaved
    · rw [interleavedRun, blockPieces, Walk.share?, if_pos interleaved]
      simp [values]
  | false => exact pieces_contiguousRun well interleaved

end

end Layout

/-! ## The shape of runs -/

/-- The shape of a run of samples of `type` that a layout makes. Samples of a fixed width either
follow each other or lie in one chunk with gaps between them. -/
structure Run.Shaped (type : ScalarType) (run : Run) : Prop where
  samples_pos : 0 < run.sampleCount
  chunks_pos : 0 < run.chunkCount
  length_le : run.byteLength ≤ run.chunkStride
  total_eq : run.totalSamples = run.sampleCount * run.chunkCount
  spaced : ∀ width, type.width? = some width →
    (run.stride = width ∧ run.byteLength = run.sampleCount * width) ∨
      (run.chunkCount = 1 ∧ width < run.stride ∧
        run.byteLength = (run.sampleCount - 1) * run.stride + width)
  texts : type.width? = none → run.stride = 0 ∧ 4 * run.sampleCount ≤ run.byteLength

/-- All chunks of a run lie in the raw data of `segment`. -/
structure Run.Within (segment : Segment) (run : Run) : Prop where
  segment_eq : run.segment = segment.ordinal
  order_eq : run.order = segment.order
  inside : ∀ chunk < run.chunkCount, segment.dataOffset ≤ run.chunkOffset chunk ∧
    run.chunkOffset chunk + run.byteLength ≤ segment.endOffset

namespace Layout

section

variable {segment : Segment} {index : RawIndex} {size turns before : Nat} {run : Run}

/-- Of rounds that fit the raw data, each ends inside it. -/
theorem round_le (rounds : turns * size ≤ segment.dataLength) {turn : Nat}
    (counted : turn < turns) :
    segment.dataOffset + turn * size + size ≤ segment.endOffset := by
  have step : (turn + 1) * size ≤ turns * size := Nat.mul_le_mul_right size counted
  rw [Nat.succ_mul] at step
  unfold Segment.endOffset
  omega

theorem totalSamples_of_lt (small : run.sampleCount * run.chunkCount < UInt64.size) :
    run.totalSamples = run.sampleCount * run.chunkCount := by
  unfold Run.totalSamples
  omega

theorem shaped_interleavedRun {width : Nat} (known : index.type.width? = some width)
    (turned : 0 < turns) (room : before + fieldWidth index ≤ size)
    (rounds : turns * size ≤ segment.dataLength) (short : segment.dataLength < UInt64.size)
    (found : interleavedRun segment size turns (segment.dataOffset + before) index = some run) :
    run.Shaped index.type ∧ run.Within segment := by
  obtain ⟨same, positive⟩ := ScalarType.width_of_width? known
  rw [interleavedRun, same] at found
  split at found
  · rename_i values
    rw [fieldWidth, if_pos values, same] at room
    have some : turns ≤ turns * size := Nat.le_mul_of_pos_right turns (by omega)
    have whole : (turns - 1) * size + size = turns * size := by
      rw [← Nat.succ_mul, Nat.succ_eq_add_one, Nat.sub_add_cancel turned]
    have last := round_le rounds (Nat.sub_lt turned Nat.one_pos)
    cases found
    constructor
    · refine ⟨turned, Nat.one_pos, ?_, totalSamples_of_lt ?_, fun other fixed => ?_, ?_⟩
      · dsimp only
        omega
      · dsimp only
        omega
      · cases known.symm.trans fixed
        rcases (show width ≤ size by omega).eq_or_lt with packed | apart
        · left
          dsimp only
          rw [packed, whole]
          exact ⟨rfl, rfl⟩
        · right
          exact ⟨rfl, apart, rfl⟩
      · intro varying
        rw [known] at varying
        cases varying
    · refine ⟨rfl, rfl, fun chunk counted => ?_⟩
      obtain rfl : chunk = 0 := Nat.lt_one_iff.1 counted
      unfold Run.chunkOffset
      dsimp only
      omega
  · cases found

theorem shaped_contiguousRun (well : index.WellFormed)
    (turned : 0 < turns) (room : before + index.size ≤ size)
    (rounds : turns * size ≤ segment.dataLength) (short : segment.dataLength < UInt64.size)
    (found : contiguousRun segment size turns (segment.dataOffset + before) index = some run) :
    run.Shaped index.type ∧ run.Within segment := by
  have enough : index.count * turns ≤ turns * size := by
    rw [Nat.mul_comm]
    exact Nat.mul_le_mul_left turns (well.count_le.trans (by omega))
  simp only [contiguousRun] at found
  split at found
  · rename_i owns
    split at found
    · rename_i whole
      cases found
      constructor
      · refine ⟨Nat.mul_pos owns.2 turned, Nat.one_pos, le_rfl, totalSamples_of_lt ?_,
          fun width fixed => .inl ?_, fun varying => ?_⟩
        · dsimp only
          omega
        · have filled := well.size_eq fixed
          obtain ⟨same, -⟩ := ScalarType.width_of_width? fixed
          dsimp only
          rw [← whole.2, filled]
          exact ⟨same, by ring⟩
        · rw [ScalarType.width, varying] at whole
          exact absurd whole.1 (Nat.lt_irrefl 0)
      · refine ⟨rfl, rfl, fun chunk counted => ?_⟩
        obtain rfl : chunk = 0 := Nat.lt_one_iff.1 counted
        rw [Run.chunkOffset, Segment.endOffset]
        dsimp only
        rw [Nat.mul_comm size]
        omega
    · cases found
      constructor
      · refine ⟨owns.2, turned, ?_, totalSamples_of_lt ?_, fun width fixed => .inl ?_,
          fun varying => ?_⟩
        · dsimp only
          omega
        · dsimp only
          omega
        · exact ⟨(ScalarType.width_of_width? fixed).1, well.size_eq fixed⟩
        · dsimp only
          rw [ScalarType.width, varying]
          exact ⟨rfl, well.table_le varying⟩
      · refine ⟨rfl, rfl, fun chunk counted => ?_⟩
        have inside := round_le rounds counted
        unfold Run.chunkOffset
        dsimp only
        omega
  · cases found

/-- A run lies in the raw data of its segment and has the shape of its type. -/
theorem shaped_slot (well : index.WellFormed)
    (fixed : segment.isInterleaved = true → 0 < index.count → index.type.width?.isSome)
    (turned : 0 < turns) (room : before + advance segment.isInterleaved index ≤ size)
    (rounds : turns * size ≤ segment.dataLength) (short : segment.dataLength < UInt64.size)
    (found : slot segment size turns (segment.dataOffset + before) index = some run) :
    run.Shaped index.type ∧ run.Within segment := by
  unfold slot at found
  unfold advance at room
  cases interleaved : segment.isInterleaved with
  | true =>
    rw [if_pos interleaved] at found room
    have values : 0 < index.count := by
      by_contra none
      rw [interleavedRun, if_neg none] at found
      cases found
    obtain ⟨width, known⟩ := Option.isSome_iff_exists.1 (fixed interleaved values)
    exact shaped_interleavedRun known turned room rounds short found
  | false =>
    rw [interleaved] at found room
    exact shaped_contiguousRun well turned room rounds short found

end

/-! ## Slots before and after an object -/

theorem slotsFrom_append (slot : Nat → RawIndex → Option Run) (advance : RawIndex → Nat)
    (offset : Nat) (before after : List RawIndex) :
    slotsFrom slot advance offset (before ++ after) =
      slotsFrom slot advance offset before ++
        slotsFrom slot advance (offset + (before.map advance).sum) after := by
  induction before generalizing offset with
  | nil => rfl
  | cons index rest ih =>
    rw [List.cons_append, slotsFrom, slotsFrom, ih, List.cons_append, List.map_cons, List.sum_cons,
      Nat.add_assoc]

theorem length_slotsFrom (slot : Nat → RawIndex → Option Run) (advance : RawIndex → Nat)
    (offset : Nat) (indexes : List RawIndex) :
    (slotsFrom slot advance offset indexes).length = indexes.length := by
  induction indexes generalizing offset with
  | nil => rfl
  | cons index rest ih => rw [slotsFrom, List.length_cons, List.length_cons, ih]

theorem sum_advance (interleaved : Bool) (owners : List (ObjectPath × RawIndex)) :
    ((owners.map Prod.snd).map (advance interleaved)).sum =
      Walk.roundSize (Walk.shares interleaved owners) := by
  induction owners with
  | nil => rfl
  | cons owner rest ih => rw [roundSize_shares_cons, ← ih, List.map_cons, List.map_cons,
      List.sum_cons]

end Layout

end Tdms
