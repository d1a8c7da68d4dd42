import Mathlib
import Tdms.Proofs.Reading
import Tdms.Proofs.Segment.Append

/-!
Raw data that is moved behind other bytes.

The runs, the blocks and the pieces of a segment move with it, and a block that
is decoded holds the same samples where it is moved to. Blocks of the bytes in
front are decoded as before.
-/

namespace Tdms

open Metadata (RawIndex)

variable {left right : ByteArray}

/-- The run behind `count` segments that take `bytes` bytes together. -/
def Run.shift (bytes count : Nat) (run : Run) : Run :=
  { run with segment := count + run.segment, offset := bytes + run.offset }

/-- The piece behind so many bytes. -/
def Piece.shift (bytes : Nat) (piece : Piece) : Piece :=
  { piece with offset := bytes + piece.offset }

theorem Piece.row_shift (type : ScalarType) (order : ByteOrder)
    (bytes offset length stride count : Nat) :
    row type order (bytes + offset) length stride count =
      (row type order offset length stride count).map (shift bytes) := by
  cases fixed : type.width? with
  | none =>
    rw [row_of_string fixed, row_of_string fixed]
    rfl
  | some width =>
    rw [row_of_width fixed, row_of_width fixed, List.map_map]
    apply List.map_congr_left
    intro sample _
    simp [shift, Nat.add_assoc]

namespace Layout

theorem slot_shift (segment : Segment) (bytes count size turns offset : Nat) (index : RawIndex) :
    slot (segment.shift bytes count) size turns (bytes + offset) index =
      (slot segment size turns offset index).map (Run.shift bytes count) := by
  have same : (segment.shift bytes count).isInterleaved = segment.isInterleaved := rfl
  have order : (segment.shift bytes count).order = segment.order := rfl
  unfold slot interleavedRun contiguousRun
  rw [same, order]
  split
  · split
    · rfl
    · rfl
  · dsimp only
    split
    · split
      · rfl
      · rfl
    · rfl

theorem slotsFrom_map {slot other : Nat → RawIndex → Option Run} {change : Run → Run} {bytes : Nat}
    (moved : ∀ offset index, other (bytes + offset) index = (slot offset index).map change)
    (advance : RawIndex → Nat) (offset : Nat) (indexes : List RawIndex) :
    slotsFrom other advance (bytes + offset) indexes =
      (slotsFrom slot advance offset indexes).map (Option.map change) := by
  induction indexes generalizing offset with
  | nil => rfl
  | cons index rest ih =>
    rw [slotsFrom, slotsFrom, List.map_cons, moved, Nat.add_assoc, ih]

end Layout

namespace Walk

/-- The block behind so many bytes. -/
def Block.shift (bytes : Nat) (block : Block) : Block :=
  { block with offset := bytes + block.offset }

/-- The stage of a segment that is moved, with the same owners. -/
def Stage.shift (bytes count : Nat) (stage : Stage) : Stage :=
  ⟨stage.segment.shift bytes count, stage.owners⟩

variable {bytes count : Nat}

/-! ## Runs -/

theorem Stage.runs_shift (stage : Stage) :
    (stage.shift bytes count).runs = stage.runs.map (Option.map (Run.shift bytes count)) := by
  have rounds : (stage.shift bytes count).rounds = stage.rounds := rfl
  rw [runs, runs, rounds]
  split
  · rw [List.map_map]
    rfl
  · exact Layout.slotsFrom_map (Layout.slot_shift stage.segment bytes count _ _) _ _ _

/-- Moving a segment moves the run of every object. -/
theorem Stage.runsAt_shift (stage : Stage) (path : ObjectPath) :
    (stage.shift bytes count).runsAt path = (stage.runsAt path).map (Run.shift bytes count) := by
  rw [runsAt, runsAt, runs_shift, List.map_filterMap]
  change (stage.owners.zip _).filterMap _ = _
  rw [List.zip_map_right, List.filterMap_map]
  congr 1
  funext slot
  dsimp only [Function.comp, Prod.map, id]
  split
  · rfl
  · rfl

/-! ## Blocks -/

theorem round_shift (order : ByteOrder) (offset : Nat) (shares : List Share) :
    round order (bytes + offset) shares = (round order offset shares).map (Block.shift bytes) := by
  induction shares generalizing offset with
  | nil => rfl
  | cons share rest ih =>
    rw [round, round, List.map_cons, Nat.add_assoc, ih]
    rfl

theorem Stage.blocks_shift (stage : Stage) :
    (stage.shift bytes count).blocks = stage.blocks.map (Block.shift bytes) := by
  rw [blocks, blocks, List.map_flatMap]
  congr 1
  funext turn
  rw [← round_shift, ← Nat.add_assoc]
  rfl

theorem blocks_map_shift (stages : List Stage) (bytes count : Nat) :
    (stages.map (Stage.shift bytes count)).flatMap Stage.blocks =
      (stages.flatMap Stage.blocks).map (Block.shift bytes) := by
  rw [List.flatMap_map, List.map_flatMap]
  congr 1
  funext stage
  exact stage.blocks_shift

theorem Block.pieces_shift (block : Block) :
    (block.shift bytes).pieces = block.pieces.map (Piece.shift bytes) :=
  Piece.row_shift block.type block.order bytes block.offset block.size block.type.width block.count

/-! ## Samples -/

theorem Block.decode_eq_ok {content : ByteArray} {block : Block} {samples : List Property} :
    block.decode content = .ok samples ↔
      Outcome.collect (decodePiece content block.type) block.pieces = .ok samples := by
  rw [decode_eq_collect]
  cases Outcome.collect (decodePiece content block.type) block.pieces with
  | error fault => simp
  | ok found => simp

/-- A block of the second bytes holds the same samples behind the first ones. -/
theorem Block.decode_append_right {block : Block} {samples : List Property} (left : ByteArray)
    (decoded : block.decode right = .ok samples) :
    (block.shift left.size).decode (left ++ right) = .ok samples := by
  rw [decode_eq_ok] at decoded ⊢
  have moved : (block.shift left.size).pieces.map (decodePiece (left ++ right) block.type) =
      block.pieces.map (decodePiece right block.type) := by
    rw [pieces_shift, List.map_map]
    apply List.map_congr_left
    intro piece _
    unfold Function.comp decodePiece Piece.shift
    rw [window_append_right rfl]
  exact (Outcome.collect_map_eq moved).trans decoded

/-- A block of the first bytes holds the same samples with others behind it. -/
theorem Block.decode_append_left {block : Block} (filled : block.Filled)
    (inside : block.offset + block.size ≤ left.size) (right : ByteArray) :
    block.decode (left ++ right) = block.decode left := by
  have kept : block.pieces.map (decodePiece (left ++ right) block.type) =
      block.pieces.map (decodePiece left block.type) := by
    apply List.map_congr_left
    intro piece listed
    have bound := bounds_of_mem filled listed
    unfold decodePiece
    rw [window_append_left (by omega)]
  rw [decode_eq_collect, decode_eq_collect, Outcome.collect_map_eq kept]

end Walk

end Tdms
