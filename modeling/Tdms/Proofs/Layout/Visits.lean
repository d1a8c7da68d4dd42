import Mathlib
import Tdms.Proofs.Stage

/-!
Layouts against a plain walk through the raw data.

The plain walk goes through the raw data round by round, a round being a chunk
or a record, and in each round object by object. It carries nothing but the
place that it has come to, and lists every piece that it passes with the slot
of the object that owns it. `runs_expand` is the main result: the run in a slot
expands to the pieces that the walk lists for that slot, in the same order.
-/

namespace Tdms.Layout

open Metadata (RawIndex)

/-! ## The plain walk -/

/-- The pieces of an object in a round, where its bytes start at `offset`: all its values in a
chunk, one value in a record. Strings of a chunk are one piece. -/
def roundPieces (segment : Segment) (offset : Nat) (index : RawIndex) : List Piece :=
  if index.count = 0 then []
  else if segment.isInterleaved then
    Piece.row index.type segment.order offset index.type.width index.type.width 1
  else Piece.row index.type segment.order offset index.size index.type.width index.count

/-- One round that starts at `offset`, object after object. -/
def visitRound (segment : Segment) : (slot offset : Nat) → List RawIndex → List (Nat × Piece)
  | _, _, [] => []
  | slot, offset, index :: rest =>
    (roundPieces segment offset index).map (Prod.mk slot) ++
      visitRound segment (slot + 1) (offset + advance segment.isInterleaved index) rest

/-- Bytes of a round. -/
def roundBytes (segment : Segment) (indexes : List RawIndex) : Nat :=
  (indexes.map (advance segment.isInterleaved)).sum

/-- Whole rounds in the raw data. -/
def wholeRounds (segment : Segment) (indexes : List RawIndex) : Nat :=
  segment.dataLength / roundBytes segment indexes

/-- Some rounds, one after another, the first of them at `offset`. -/
def visitRounds (segment : Segment) (indexes : List RawIndex) :
    (rounds offset : Nat) → List (Nat × Piece)
  | 0, _ => []
  | rounds + 1, offset =>
    visitRound segment 0 offset indexes ++
      visitRounds segment indexes rounds (offset + roundBytes segment indexes)

/-- All pieces of the raw data of a segment, each with the slot of its object. -/
def visits (segment : Segment) (indexes : List RawIndex) : List (Nat × Piece) :=
  visitRounds segment indexes (wholeRounds segment indexes) segment.dataOffset

/-- The pieces that are listed for a slot. -/
def visitsAt (slot : Nat) (visits : List (Nat × Piece)) : List Piece :=
  (visits.filter fun visit => visit.1 = slot).map Prod.snd

/-- The run of an object of a contiguous segment that repeats over all chunks, even if the object
owns whole chunks. -/
def repeatedRun (segment : Segment) (indexes : List RawIndex) (offset : Nat) (index : RawIndex) :
    Run where
  segment := segment.ordinal
  offset
  byteLength := index.size
  stride := index.type.width
  sampleCount := index.count
  chunkCount := wholeRounds segment indexes
  chunkStride := roundBytes segment indexes
  order := segment.order

/-- The run in a slot stands for what the plain walk lists for the slot. -/
structure Expands (segment : Segment) (indexes : List RawIndex) (slot : Nat) (index : RawIndex)
    (run? : Option Run) : Prop where
  pieces_eq : run?.toList.flatMap (Run.pieces index.type) = visitsAt slot (visits segment indexes)
  /-- Objects with values have a run exactly if there is a whole round, and other objects never. -/
  isSome_iff : run?.isSome ↔ 0 < index.count ∧ 0 < wholeRounds segment indexes
  /-- Whether or not the chunks of an object are taken as one, its run has the same pieces. -/
  repeated : segment.isInterleaved = false → ∀ run, run? = some run →
    run.pieces index.type = (repeatedRun segment indexes run.offset index).pieces index.type
  /-- The chunks of an object of fixed width that owns them whole are taken as one. -/
  collapsed : segment.isInterleaved = false → index.type ≠ .string →
    index.size = roundBytes segment indexes → ∀ run, run? = some run →
      run.chunkCount = 1 ∧ run.isPacked = true

/-! ## What the walk lists for a slot -/

section

variable {segment : Segment} {number first offset : Nat} {index : RawIndex}
  {before after indexes : List RawIndex}

theorem visitsAt_append (number : Nat) (visits others : List (Nat × Piece)) :
    visitsAt number (visits ++ others) = visitsAt number visits ++ visitsAt number others := by
  simp [visitsAt]

theorem visitsAt_map_self (number : Nat) (pieces : List Piece) :
    visitsAt number (pieces.map (Prod.mk number)) = pieces := by
  simp [visitsAt, List.filter_map, Function.comp_def]

theorem visitsAt_map_of_ne {other : Nat} (different : other ≠ number) (pieces : List Piece) :
    visitsAt number (pieces.map (Prod.mk other)) = [] := by
  simp [visitsAt, List.filter_map, Function.comp_def, different]

/-- A round lists nothing for slots before its first. -/
theorem visitsAt_visitRound_of_lt (segment : Segment) (early : number < first) (offset : Nat)
    (indexes : List RawIndex) : visitsAt number (visitRound segment first offset indexes) = [] := by
  induction indexes generalizing first offset with
  | nil => rfl
  | cons index rest ih =>
    rw [visitRound, visitsAt_append, visitsAt_map_of_ne early.ne', ih (early.trans_le (by omega))]
    rfl

/-- A round lists for an object its pieces behind the bytes of all objects before it. -/
theorem visitsAt_visitRound (segment : Segment) (first offset : Nat) (before : List RawIndex)
    (index : RawIndex) (after : List RawIndex) :
    visitsAt (first + before.length)
        (visitRound segment first offset (before ++ index :: after)) =
      roundPieces segment (offset + roundBytes segment before) index := by
  induction before generalizing first offset with
  | nil =>
    have later := visitsAt_visitRound_of_lt segment (Nat.lt_succ_self first)
      (offset + advance segment.isInterleaved index) after
    simp only [List.nil_append, List.length_nil, Nat.add_zero, visitRound, visitsAt_append,
      visitsAt_map_self, roundBytes, List.map_nil, List.sum_nil]
    rw [later, List.append_nil]
  | cons head rest ih =>
    have next := ih (first + 1) (offset + advance segment.isInterleaved head)
    have other : first ≠ first + (rest.length + 1) := by omega
    simp only [List.cons_append, List.length_cons, visitRound, visitsAt_append,
      visitsAt_map_of_ne other, List.nil_append]
    rw [show first + (rest.length + 1) = first + 1 + rest.length by omega, next]
    simp [roundBytes, Nat.add_assoc]

/-- All rounds list the same object at the same place of each round. -/
theorem visitsAt_visitRounds (split : indexes = before ++ index :: after) (rounds offset : Nat) :
    visitsAt before.length (visitRounds segment indexes rounds offset) =
      (List.range rounds).flatMap fun round =>
        roundPieces segment
          (offset + roundBytes segment before + round * roundBytes segment indexes) index := by
  induction rounds generalizing offset with
  | zero => rfl
  | succ rounds ih =>
    have here := visitsAt_visitRound segment 0 offset before index after
    rw [Nat.zero_add, ← split] at here
    rw [visitRounds, visitsAt_append, here, ih, List.range_succ_eq_map, List.flatMap_cons,
      List.flatMap_map, Nat.zero_mul, Nat.add_zero]
    congr 2
    funext round
    congr 1
    rw [Nat.succ_mul]
    omega

/-- The pieces in the blocks of an object are those of all rounds. -/
theorem blockPieces_eq (segment : Segment) (size rounds offset : Nat) (path : ObjectPath)
    (index : RawIndex) :
    blockPieces segment size rounds offset (path, index) =
      (List.range rounds).flatMap fun round =>
        roundPieces segment (offset + round * size) index := by
  rw [blockPieces]
  congr 1
  funext round
  rw [roundPieces, Walk.share?]
  rcases Nat.eq_zero_or_pos index.count with none | values
  · cases segment.isInterleaved with
    | true => simp [none]
    | false => simp [none, Walk.Block.pieces, Piece.filter_row]
  · cases segment.isInterleaved with
    | true => simp [values, values.ne', Walk.Block.pieces, Piece.filter_row]
    | false => simp [values, values.ne', Walk.Block.pieces, Piece.filter_row]

/-! ## Layouts as rows of slots -/

/-- A layout that is answered with holds only values of fixed widths in records, and is a row of
slots unless there is no whole round. -/
theorem slots_of_runs {runs : List (Option Run)} (found : Layout.runs segment indexes = .ok runs) :
    (segment.isInterleaved = true → ∀ index ∈ indexes, 0 < index.count →
      index.type.width?.isSome) ∧
    runs = if wholeRounds segment indexes = 0 then indexes.map fun _ => none
      else slotsFrom (slot segment (roundBytes segment indexes) (wholeRounds segment indexes))
        (advance segment.isInterleaved) segment.dataOffset indexes := by
  have all : (indexes.map (Prod.mk ObjectPath.root)).map Prod.snd = indexes := by
    simp [Function.comp_def]
  have answers := @runs_eq_ok ⟨segment, indexes.map (Prod.mk .root)⟩ runs
  have size : Walk.roundSize (Walk.shares segment.isInterleaved
      (indexes.map (Prod.mk .root))) = roundBytes segment indexes := by
    rw [← sum_advance, all, roundBytes]
  rw [Walk.Stage.LaidOut, Walk.Stage.slots, Walk.Stage.rounds, Walk.Stage.shares] at answers
  dsimp only at answers
  rw [all, size, List.map_map] at answers
  obtain ⟨laidOut, rfl⟩ := answers.1 found
  refine ⟨fun interleaved index listed values => ?_, rfl⟩
  rw [if_pos interleaved] at laidOut
  exact laidOut (.root, index) (List.mem_map_of_mem listed) values

theorem getElem?_slotsFrom (run : Nat → RawIndex → Option Run) (size : RawIndex → Nat)
    (offset : Nat) (before : List RawIndex) (index : RawIndex) (after : List RawIndex) :
    (slotsFrom run size offset (before ++ index :: after))[before.length]? =
      some (run (offset + (before.map size).sum) index) := by
  rw [slotsFrom_append, List.getElem?_append_right (length_slotsFrom .. ▸ le_rfl),
    length_slotsFrom, Nat.sub_self, slotsFrom]
  rfl

/-- What stands in a slot: nothing if there is no whole round, and otherwise the run of its object
behind the bytes of all objects before it. -/
theorem slot_of_runs {runs : List (Option Run)} (found : Layout.runs segment indexes = .ok runs)
    {run? : Option Run} (listed : indexes[number]? = some index)
    (placed : runs[number]? = some run?) :
    (wholeRounds segment indexes = 0 ∧ run? = none) ∨
      (wholeRounds segment indexes ≠ 0 ∧
        (segment.isInterleaved = true → 0 < index.count → index.type.width?.isSome) ∧
        ∃ before after, indexes = before ++ index :: after ∧ before.length = number ∧
          run? = slot segment (roundBytes segment indexes) (wholeRounds segment indexes)
            (segment.dataOffset + roundBytes segment before) index) := by
  rcases slots_of_runs found with ⟨fixed, rfl⟩
  by_cases turned : wholeRounds segment indexes = 0
  · rw [if_pos turned, List.getElem?_map, listed] at placed
    cases placed
    exact .inl ⟨turned, rfl⟩
  · rw [if_neg turned] at placed
    rcases List.getElem?_eq_some_iff.1 listed with ⟨inside, here⟩
    have split : indexes = indexes.take number ++ index :: indexes.drop (number + 1) := by
      rw [← here, List.getElem_cons_drop, List.take_append_drop]
    have length : (indexes.take number).length = number := List.length_take_of_le inside.le
    have held := getElem?_slotsFrom
      (slot segment (roundBytes segment indexes) (wholeRounds segment indexes))
      (advance segment.isInterleaved) segment.dataOffset (indexes.take number) index
      (indexes.drop (number + 1))
    rw [← split, length] at held
    cases placed.symm.trans held
    exact .inr ⟨turned, fun interleaved => fixed interleaved index (List.mem_of_getElem? listed),
      _, _, split, length, rfl⟩

/-! ## Runs and visits -/

theorem pieces_repeatedRun (contiguous : segment.isInterleaved = false) (values : 0 < index.count)
    (indexes : List RawIndex) (offset : Nat) :
    (repeatedRun segment indexes offset index).pieces index.type =
      (List.range (wholeRounds segment indexes)).flatMap fun round =>
        roundPieces segment (offset + round * roundBytes segment indexes) index := by
  rw [Run.pieces, repeatedRun]
  congr 1
  funext round
  simp [roundPieces, values.ne', contiguous, Run.chunkOffset]

theorem slot_isSome_iff (segment : Segment) (well : index.WellFormed) (size rounds offset : Nat) :
    (slot segment size rounds offset index).isSome ↔ 0 < index.count := by
  unfold slot
  cases segment.isInterleaved with
  | true =>
    simp only [if_true, interleavedRun]
    split
    · simp [*]
    · simp [*]
  | false =>
    simp only [Bool.false_eq_true, if_false, contiguousRun]
    by_cases values : 0 < index.count
    · rw [if_pos ⟨well.size_pos values, values⟩]
      split
      · simp [values]
      · simp [values]
    · rw [if_neg fun both => values both.2]
      simp [values]

theorem offset_of_contiguousRun {size rounds : Nat} {run : Run}
    (found : contiguousRun segment size rounds offset index = some run) : run.offset = offset := by
  simp only [contiguousRun] at found
  split at found
  · split at found
    · cases found
      rfl
    · cases found
      rfl
  · cases found

/-- An object of fixed width that owns whole chunks has one packed run in all of them. -/
theorem collapsed_of_contiguousRun (well : index.WellFormed) (notString : index.type ≠ .string)
    {size rounds : Nat} (whole : index.size = size) {run : Run}
    (found : contiguousRun segment size rounds offset index = some run) :
    run.chunkCount = 1 ∧ run.isPacked = true := by
  rcases ScalarType.exists_width notString with ⟨width, fixed⟩
  rcases ScalarType.width_of_width? fixed with ⟨same, positive⟩
  have filled := well.size_eq fixed
  simp only [contiguousRun, same] at found
  split at found
  · rw [if_pos ⟨positive, whole⟩] at found
    cases found
    refine ⟨rfl, ?_⟩
    rw [Run.isPacked]
    have length : size * rounds = index.count * rounds * width := by
      rw [← whole, filled]
      ring
    simp [positive.ne', length]
  · cases found

/-- The run of a slot stands for what the walk lists for it. -/
theorem expands_slot (well : index.WellFormed) (split : indexes = before ++ index :: after)
    (fixed : segment.isInterleaved = true → 0 < index.count → index.type.width?.isSome)
    (turned : wholeRounds segment indexes ≠ 0) :
    Expands segment indexes before.length index
      (slot segment (roundBytes segment indexes) (wholeRounds segment indexes)
        (segment.dataOffset + roundBytes segment before) index) := by
  have some := slot_isSome_iff segment well (roundBytes segment indexes)
    (wholeRounds segment indexes) (segment.dataOffset + roundBytes segment before)
  refine ⟨?_, ?_, ?_, ?_⟩
  · rw [@pieces_slot segment .root index _ _ _ well fixed, blockPieces_eq, visits,
      visitsAt_visitRounds split]
  · rw [some]
    exact ⟨fun values => ⟨values, Nat.pos_of_ne_zero turned⟩, fun both => both.1⟩
  · intro contiguous run found
    have values : 0 < index.count := by
      rw [← some, found]
      rfl
    have plain := found
    rw [slot, contiguous, if_neg Bool.false_ne_true] at plain
    have expanded := @pieces_contiguousRun segment .root index (roundBytes segment indexes)
      (wholeRounds segment indexes) (segment.dataOffset + roundBytes segment before) well contiguous
    rw [plain, Option.toList_some, List.flatMap_singleton, blockPieces_eq] at expanded
    rw [expanded, pieces_repeatedRun contiguous values, offset_of_contiguousRun plain]
  · intro contiguous notString whole run found
    rw [slot, contiguous, if_neg Bool.false_ne_true] at found
    exact collapsed_of_contiguousRun well notString whole found

theorem expands_none (turned : wholeRounds segment indexes = 0) (number : Nat)
    (index : RawIndex) : Expands segment indexes number index none where
  pieces_eq := by
    rw [visits, turned]
    rfl
  isSome_iff := by simp [turned]
  repeated _ _ found := by cases found
  collapsed _ _ _ _ found := by cases found

end

/-- A layout has one slot for each object with raw data, and the run in every slot stands for what
the plain walk lists for it. -/
theorem runs_expand {segment : Segment} {indexes : List RawIndex} {runs : List (Option Run)}
    (wellFormed : ∀ index ∈ indexes, index.WellFormed)
    (found : Layout.runs segment indexes = .ok runs) :
    runs.length = indexes.length ∧
      ∀ number index run?, indexes[number]? = some index → runs[number]? = some run? →
        Expands segment indexes number index run? := by
  constructor
  · rcases slots_of_runs found with ⟨-, rfl⟩
    split
    · exact List.length_map _
    · exact length_slotsFrom _ _ _ _
  · intro number index run? listed placed
    rcases slot_of_runs found listed placed with
      ⟨turned, rfl⟩ | ⟨turned, fixed, before, after, split, rfl, rfl⟩
    · exact expands_none turned number index
    · exact expands_slot (wellFormed index (List.mem_of_getElem? listed)) split fixed turned

/-- A contiguous segment with two whole chunks of nine bytes, and one byte of a third. -/
def sampleSegment : Segment where
  ordinal := 3
  offset := 100
  leadIn := ⟨⟨0x0E⟩, 4713, 91, 72⟩
  metadataOffset := 128
  metadata := none
  dataOffset := 200
  dataLength := 19

/-- Two numbers and a text in each chunk. -/
def sampleIndexes : List RawIndex :=
  [⟨.int16, 2, 4⟩, ⟨.string, 1, 5⟩]

theorem wellFormed_sampleIndexes : ∀ index ∈ sampleIndexes, index.WellFormed := by
  intro index listed
  rcases List.mem_cons.1 listed with rfl | later
  · exact ⟨by decide, by decide, rfl⟩
  · rcases List.mem_singleton.1 later with rfl
    exact ⟨by decide, by decide, show 4 * 1 ≤ 5 by decide⟩

theorem runs_expand_sample :
    ∃ numbers texts, Layout.runs sampleSegment sampleIndexes = .ok [some numbers, some texts] ∧
      Expands sampleSegment sampleIndexes 0 ⟨.int16, 2, 4⟩ (some numbers) ∧
      Expands sampleSegment sampleIndexes 1 ⟨.string, 1, 5⟩ (some texts) := by
  have found : Layout.runs sampleSegment sampleIndexes =
      .ok [some ⟨3, 200, 4, 2, 2, 2, 9, .little⟩, some ⟨3, 204, 5, 0, 1, 2, 9, .little⟩] := by
    decide
  have expands := (runs_expand wellFormed_sampleIndexes found).2
  exact ⟨_, _, found, expands 0 _ _ rfl rfl, expands 1 _ _ rfl rfl⟩

/-- The walk lists two numbers and a text in each of the two chunks. -/
example : visits sampleSegment sampleIndexes =
    [(0, ⟨200, 2, 1, .little⟩), (0, ⟨202, 2, 1, .little⟩), (1, ⟨204, 5, 1, .little⟩),
      (0, ⟨209, 2, 1, .little⟩), (0, ⟨211, 2, 1, .little⟩), (1, ⟨213, 5, 1, .little⟩)] := by
  decide

end Tdms.Layout
