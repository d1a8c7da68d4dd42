import Mathlib
import Tdms.Proofs.Stage

/-!
The bytes of blocks and pieces.

The blocks of a stage tile the whole rounds of its raw data: each starts where
the one before it ends. The pieces of a block of a sound stage tile the block.
So no two blocks and no two pieces share a byte, and none of the bytes in
between is left out.
-/

namespace Tdms

open Metadata (RawIndex)

/-- Of two different items of a list that a relation orders, one comes before the other. -/
theorem related_of_pairwise {α : Type} {relation : α → α → Prop} {items : List α}
    (ordered : items.Pairwise relation) {first second : α} (early : first ∈ items)
    (late : second ∈ items) (other : first ≠ second) :
    relation first second ∨ relation second first := by
  have : Std.Symm fun one two => relation one two ∨ relation two one := ⟨fun _ _ => Or.symm⟩
  have either : items.Pairwise fun one two => relation one two ∨ relation two one :=
    ordered.imp Or.inl
  exact either.forall early late other

/-- The byte at `position` belongs to the piece. -/
def Piece.Holds (piece : Piece) (position : Nat) : Prop :=
  piece.offset ≤ position ∧ position < piece.offset + piece.length

/-- Two pieces share no byte. -/
def Piece.Apart (first second : Piece) : Prop :=
  first.offset + first.length ≤ second.offset ∨ second.offset + second.length ≤ first.offset

namespace Walk

/-- The byte at `position` belongs to the block. -/
def Block.Holds (block : Block) (position : Nat) : Prop :=
  block.offset ≤ position ∧ position < block.offset + block.size

/-- Blocks that follow each other from `start` to `stop`. -/
inductive Tiles : (start : Nat) → List Block → (stop : Nat) → Prop
  | done {start : Nat} : Tiles start [] start
  | more {block : Block} {rest : List Block} {stop : Nat} :
    Tiles (block.offset + block.size) rest stop → Tiles block.offset (block :: rest) stop

namespace Tiles

variable {start middle stop : Nat} {blocks others : List Block}

theorem append (early : Tiles start blocks middle) (late : Tiles middle others stop) :
    Tiles start (blocks ++ others) stop := by
  induction early with
  | done => exact late
  | more _ ih => exact .more (ih late)

theorem le (tiles : Tiles start blocks stop) : start ≤ stop := by
  induction tiles with
  | done => exact le_rfl
  | more _ ih => omega

theorem bounds (tiles : Tiles start blocks stop) {block : Block} (listed : block ∈ blocks) :
    start ≤ block.offset ∧ block.offset + block.size ≤ stop := by
  induction tiles with
  | done => cases listed
  | more rest ih =>
    rcases List.mem_cons.1 listed with rfl | later
    · exact ⟨le_rfl, rest.le⟩
    · have inside := ih later
      omega

theorem pairwise (tiles : Tiles start blocks stop) :
    blocks.Pairwise fun before after => before.offset + before.size ≤ after.offset := by
  induction tiles with
  | done => exact .nil
  | more rest ih => exact List.pairwise_cons.2 ⟨fun other listed => (rest.bounds listed).1, ih⟩

/-- A byte belongs to at most one of the blocks. -/
theorem eq_of_holds (tiles : Tiles start blocks stop) {first second : Block} {position : Nat}
    (early : first ∈ blocks) (late : second ∈ blocks) (one : first.Holds position)
    (two : second.Holds position) : first = second := by
  by_contra other
  have apart := related_of_pairwise tiles.pairwise early late other
  unfold Block.Holds at one two
  omega

theorem holds_iff (tiles : Tiles start blocks stop) (position : Nat) :
    (∃ block ∈ blocks, block.Holds position) ↔ start ≤ position ∧ position < stop := by
  induction tiles with
  | done => simp
  | @more block rest stop tiles ih =>
    have order := tiles.le
    rw [List.exists_mem_cons_iff, ih, Block.Holds]
    omega

end Tiles

theorem tiles_round (order : ByteOrder) (offset : Nat) (shares : List Share) :
    Tiles offset (round order offset shares) (offset + roundSize shares) := by
  induction shares generalizing offset with
  | nil => exact .done
  | cons share rest ih =>
    have later := ih (offset + share.size)
    rw [Nat.add_assoc] at later
    exact @Tiles.more ⟨share, offset, order⟩ _ _ later

/-- The blocks of a stage tile its whole rounds. -/
theorem Stage.tiles (stage : Stage) :
    Tiles stage.segment.dataOffset stage.blocks
      (stage.segment.dataOffset + stage.rounds * roundSize stage.shares) := by
  unfold blocks
  induction stage.rounds with
  | zero =>
    rw [Nat.zero_mul]
    exact .done
  | succ turn ih =>
    rw [List.range_succ, List.flatMap_append, List.flatMap_singleton, Nat.succ_mul, ← Nat.add_assoc]
    exact ih.append (tiles_round _ _ _)

/-- Whole rounds lie inside the raw data. -/
theorem Stage.rounds_le (stage : Stage) :
    stage.segment.dataOffset + stage.rounds * roundSize stage.shares ≤
      stage.segment.endOffset :=
  Nat.add_le_add_left (Nat.div_mul_le_self _ _) _

/-- Blocks lie in the raw data of their segment. -/
theorem Stage.bounds_of_mem {stage : Stage} {block : Block} (listed : block ∈ stage.blocks) :
    stage.segment.dataOffset ≤ block.offset ∧
      block.offset + block.size ≤ stage.segment.endOffset := by
  have inside := stage.tiles.bounds listed
  exact ⟨inside.1, inside.2.trans stage.rounds_le⟩

/-! ## Pieces of blocks -/

/-- The values of a share fill its bytes, unless they are strings. -/
def Share.Filled (share : Share) : Prop :=
  ∀ width, share.type.width? = some width → share.size = share.count * width

theorem Stage.Sound.filled {stage : Stage} (sound : stage.Sound) {share : Share}
    (listed : share ∈ stage.shares) : share.Filled := by
  obtain ⟨owner, member, owned⟩ := List.mem_filterMap.1 listed
  have well := sound.wellFormed owner member
  intro width fixed
  unfold share? at owned
  split at owned
  · split at owned
    · cases owned
      rw [Nat.one_mul]
      exact (ScalarType.width_of_width? fixed).1
    · cases owned
  · cases owned
    exact well.size_eq fixed

theorem Stage.share_of_mem_blocks {stage : Stage} {block : Block}
    (listed : block ∈ stage.blocks) : block.toShare ∈ stage.shares := by
  obtain ⟨turn, -, inside⟩ := List.mem_flatMap.1 listed
  exact share_of_mem_round inside

section

variable {block : Block} {piece : Piece}

theorem Block.pieces_of_width {width : Nat} (fixed : block.type.width? = some width) :
    block.pieces = (List.range block.count).map fun sample =>
      ⟨block.offset + sample * width, width, 1, block.order⟩ := by
  rw [pieces, Piece.row_of_width fixed, (ScalarType.width_of_width? fixed).1]

theorem Block.pieces_of_string (varying : block.type.width? = none) :
    block.pieces = [⟨block.offset, block.size, block.count, block.order⟩] :=
  Piece.row_of_string varying

/-- Pieces lie inside their block. -/
theorem Block.bounds_of_mem (filled : block.Filled) (listed : piece ∈ block.pieces) :
    block.offset ≤ piece.offset ∧ piece.offset + piece.length ≤ block.offset + block.size := by
  cases fixed : block.type.width? with
  | none =>
    rw [pieces_of_string fixed, List.mem_singleton] at listed
    subst listed
    exact ⟨le_rfl, le_rfl⟩
  | some width =>
    rw [pieces_of_width fixed] at listed
    obtain ⟨sample, counted, rfl⟩ := List.mem_map.1 listed
    have step : (sample + 1) * width ≤ block.count * width :=
      Nat.mul_le_mul_right width (List.mem_range.1 counted)
    rw [Nat.succ_mul, ← filled width fixed] at step
    dsimp only
    omega

theorem Block.pieces_pairwise (block : Block) : block.pieces.Pairwise Piece.Apart := by
  cases fixed : block.type.width? with
  | none =>
    rw [pieces_of_string fixed]
    exact List.pairwise_singleton _ _
  | some width =>
    rw [pieces_of_width fixed, List.pairwise_map]
    refine List.pairwise_lt_range.imp fun {early late} order => .inl ?_
    have step : (early + 1) * width ≤ late * width := Nat.mul_le_mul_right width order
    rw [Nat.succ_mul] at step
    dsimp only
    omega

/-- Pieces of different blocks share no byte. -/
theorem Block.pieces_apart {first second : Block} (early : first.Filled) (late : second.Filled)
    (before : first.offset + first.size ≤ second.offset) :
    ∀ one ∈ first.pieces, ∀ two ∈ second.pieces, Piece.Apart one two := by
  intro one inside two within
  have stop := bounds_of_mem early inside
  have start := bounds_of_mem late within
  exact .inl (by omega)

/-- The pieces of a block that hold samples cover it, unless it is a block of strings without a
string in it. -/
theorem Block.holds_pieces_iff (filled : block.Filled) (position : Nat) :
    (∃ piece ∈ block.pieces, 0 < piece.count ∧ piece.Holds position) ↔
      block.Holds position ∧ ¬ (block.type = .string ∧ block.count = 0) := by
  cases fixed : block.type.width? with
  | none =>
    have text := ScalarType.width?_eq_none_iff.1 fixed
    simp only [pieces_of_string fixed, List.mem_singleton, exists_eq_left, Piece.Holds, Holds,
      text, true_and]
    omega
  | some width =>
    have size := filled width fixed
    have notString : block.type ≠ .string := by
      intro text
      rw [text] at fixed
      cases fixed
    have positive := (ScalarType.width_of_width? fixed).2
    rw [pieces_of_width fixed, and_iff_left fun both => notString both.1, Holds, size]
    constructor
    · rintro ⟨piece, listed, -, low, high⟩
      obtain ⟨sample, counted, rfl⟩ := List.mem_map.1 listed
      have step : (sample + 1) * width ≤ block.count * width :=
        Nat.mul_le_mul_right width (List.mem_range.1 counted)
      rw [Nat.succ_mul] at step
      dsimp only at low high
      omega
    · rintro ⟨low, high⟩
      -- The sample that the byte belongs to is found by division.
      have whole := Nat.div_add_mod (position - block.offset) width
      have part := Nat.mod_lt (position - block.offset) positive
      have counted : (position - block.offset) / width < block.count := by
        rw [Nat.div_lt_iff_lt_mul positive]
        omega
      refine ⟨_, List.mem_map.2 ⟨_, List.mem_range.2 counted, rfl⟩, Nat.one_pos, ?_, ?_⟩
      · rw [Nat.mul_comm] at whole
        dsimp only
        omega
      · rw [Nat.mul_comm] at whole
        dsimp only
        omega

end

end Walk

end Tdms
