import Mathlib
import Tdms.File

/-!
A plain reader to measure the real one against.

The plain reader walks the segments in file order. It remembers the active
objects and the raw data index that each object declared last, and nothing
else. It visits the raw data block by block, in the order in which the bytes
lie in the file, and hands the samples of each block to the object that owns
it: there are no runs, and nothing is merged or skipped.

`Walk.read` lists the samples of an object. `Piece` is the smallest stretch of
bytes that is decoded on its own, for the plain reader and the real one alike.
-/

namespace Tdms

open Metadata (RawIndex Record)

/-- A stretch of bytes that is decoded as a whole: one sample of a fixed width, or one chunk of
strings. -/
structure Piece where
  offset : Nat
  length : Nat
  /-- Samples in it. -/
  count : Nat
  order : ByteOrder
  deriving DecidableEq, Repr

/-- The pieces of `count` samples of `type` that start at `offset`, `stride` bytes apart. Strings
are one piece of `length` bytes. -/
def Piece.row (type : ScalarType) (order : ByteOrder) (offset length stride count : Nat) :
    List Piece :=
  match type.width? with
  | some width => (List.range count).map fun sample => ⟨offset + sample * stride, width, 1, order⟩
  | none => [⟨offset, length, count, order⟩]

namespace Walk

/-! ## What is remembered between segments -/

/-- What the plain reader remembers. -/
structure Memory where
  /-- Objects of the last segment with metadata, with their raw data in each chunk. -/
  active : List (ObjectPath × Option RawIndex)
  /-- The raw data index that each object declared last. -/
  latest : ObjectPath → Option RawIndex

/-- What is remembered before the first segment. -/
def Memory.blank : Memory :=
  ⟨[], fun _ => none⟩

/-- Replaces the raw data of an active object in place, or puts the object last. -/
def place (path : ObjectPath) (index? : Option RawIndex)
    (active : List (ObjectPath × Option RawIndex)) : List (ObjectPath × Option RawIndex) :=
  if path ∈ active.map Prod.fst then
    active.map fun entry => if entry.1 = path then (path, index?) else entry
  else active ++ [(path, index?)]

/-- The raw data that `record` gives its object. -/
def Memory.resolve (memory : Memory) (record : Record) : Option RawIndex :=
  match record.declaration with
  | .noData => none
  | .new index => some index
  | .matchesPrevious => memory.latest record.path

/-- What is remembered after `record`. -/
def Memory.note (memory : Memory) (record : Record) : Memory where
  active := place record.path (memory.resolve record) memory.active
  latest :=
    match record.declaration with
    | .new index => Function.update memory.latest record.path (some index)
    | .noData | .matchesPrevious => memory.latest

/-- The records of a segment, none if it brings no metadata. -/
def records (segment : Segment) : List Record :=
  match segment.metadata with
  | none => []
  | some block =>
    match Metadata.decode segment.order block.data.toList with
    | .ok records => records
    | .error _ => []

/-- What is remembered after the metadata of `segment`, with no active object before it if the
metadata starts a new list of objects. -/
def Memory.enter (memory : Memory) (segment : Segment) : Memory :=
  let start :=
    if segment.metadata.isSome ∧ segment.hasNewObjectList then { memory with active := [] }
    else memory
  (records segment).foldl Memory.note start

/-- The active objects that have raw data, in order. -/
def Memory.owners (memory : Memory) : List (ObjectPath × RawIndex) :=
  memory.active.filterMap fun entry => entry.2.map fun index => (entry.1, index)

/-! ## Raw data block by block -/

/-- What an object owns in every round of raw data, which is a chunk or a record. -/
structure Share where
  path : ObjectPath
  type : ScalarType
  /-- Samples in each round. -/
  count : Nat
  /-- Bytes in each round. -/
  size : Nat
  deriving DecidableEq

/-- What an object with raw data owns in every round: in a chunk of contiguous data all its
declared bytes, and in a record of interleaved data one value, if it declares any. -/
def share? (interleaved : Bool) (owner : ObjectPath × RawIndex) : Option Share :=
  if interleaved then
    if 0 < owner.2.count then some ⟨owner.1, owner.2.type, 1, owner.2.type.width⟩ else none
  else some ⟨owner.1, owner.2.type, owner.2.count, owner.2.size⟩

/-- What the objects with raw data own in every round, in order. -/
def shares (interleaved : Bool) (owners : List (ObjectPath × RawIndex)) : List Share :=
  owners.filterMap (share? interleaved)

/-- Bytes of a round. -/
def roundSize (shares : List Share) : Nat :=
  (shares.map Share.size).sum

/-- A segment with the objects that own its raw data. -/
structure Stage where
  segment : Segment
  owners : List (ObjectPath × RawIndex)

/-- What the objects of a segment own in every round. -/
def Stage.shares (stage : Stage) : List Share :=
  Walk.shares stage.segment.isInterleaved stage.owners

/-- Whole rounds in the raw data. -/
def Stage.rounds (stage : Stage) : Nat :=
  stage.segment.dataLength / roundSize stage.shares

/-- The bytes that an object owns in one round. -/
structure Block extends Share where
  offset : Nat
  order : ByteOrder
  deriving DecidableEq

/-- The blocks of a round that starts at `offset`, one after another. -/
def round (order : ByteOrder) : (offset : Nat) → List Share → List Block
  | _, [] => []
  | offset, share :: rest => ⟨share, offset, order⟩ :: round order (offset + share.size) rest

/-- The blocks of a segment, in the order of their bytes. -/
def Stage.blocks (stage : Stage) : List Block :=
  (List.range stage.rounds).flatMap fun turn =>
    round stage.segment.order (stage.segment.dataOffset + turn * roundSize stage.shares)
      stage.shares

/-- The segments with the objects that own their raw data. -/
def stages : Memory → List Segment → List Stage
  | _, [] => []
  | memory, segment :: rest =>
    let entered := memory.enter segment
    ⟨segment, entered.owners⟩ :: stages entered rest

theorem stages_append (memory : Memory) (segments others : List Segment) :
    stages memory (segments ++ others) =
      stages memory segments ++ stages (segments.foldl Memory.enter memory) others := by
  induction segments generalizing memory with
  | nil => rfl
  | cons segment rest ih =>
    rw [List.cons_append, stages, stages, ih, List.cons_append, List.foldl_cons]

/-- The blocks of all segments, in the order of their bytes. -/
def blocks (segments : List Segment) : List Block :=
  (stages .blank segments).flatMap Stage.blocks

/-! ## Samples -/

/-- The pieces of a block: its samples, which follow each other, or its strings. -/
def Block.pieces (block : Block) : List Piece :=
  Piece.row block.type block.order block.offset block.size block.type.width block.count

/-- The samples of a piece, each with its type. -/
def decodePiece (content : ByteArray) (type : ScalarType) (piece : Piece) :
    Except DataFault (List Property) :=
  let bytes := window content piece.offset piece.length
  match type with
  | .string =>
    (Samples.decodeStrings piece.order piece.count bytes).map (List.map (Property.mk .string))
  | type => .ok [⟨type, type.ofCell piece.order bytes.data.toList⟩]

/-- The samples of a block, one piece after another. Strings that cannot be decoded are reported
with the channel and the place of the block. -/
def Block.decode (content : ByteArray) (block : Block) : Except Error (List Property) :=
  match block.pieces.mapM (decodePiece content block.type) with
  | .ok samples => .ok samples.flatten
  | .error fault => .error (.corruptData block.path.render block.offset fault)

/-- The samples of the object at `path` in some segments. -/
def read (content : ByteArray) (segments : List Segment) (path : ObjectPath) :
    Except Error (List Property) :=
  (((blocks segments).filter fun block => block.path = path).mapM (Block.decode content)).map
    List.flatten

end Walk

/-- Samples as typed values. -/
def Samples.scalars : Samples → List Property
  | void => []
  | column type values => values.map (Property.mk type)

/-- A file of two segments: chunks of numbers and strings in the little order, then records of
numbers in the big order in a segment that was never finished. -/
def sampleFile : ByteArray :=
  ⟨#[84, 68, 83, 109, 14, 0, 0, 0, 105, 18, 0, 0, 98, 0, 0, 0, 0, 0, 0, 0, 84, 0, 0, 0, 0, 0, 0, 0,
    2, 0, 0, 0,
    8, 0, 0, 0, 47, 39, 103, 39, 47, 39, 97, 39, 20, 0, 0, 0, 2, 0, 0, 0, 1, 0, 0, 0,
    1, 0, 0, 0, 0, 0, 0, 0, 0, 0, 0, 0,
    8, 0, 0, 0, 47, 39, 103, 39, 47, 39, 116, 39, 28, 0, 0, 0, 32, 0, 0, 0, 1, 0, 0, 0,
    1, 0, 0, 0, 0, 0, 0, 0, 5, 0, 0, 0, 0, 0, 0, 0, 0, 0, 0, 0,
    1, 0, 1, 0, 0, 0, 120, 2, 0, 1, 0, 0, 0, 121,
    84, 68, 83, 109, 110, 0, 0, 0, 0, 0, 18, 105, 255, 255, 255, 255, 255, 255, 255, 255,
    0, 0, 0, 0, 0, 0, 0, 24, 0, 0, 0, 1,
    0, 0, 0, 8, 47, 39, 103, 39, 47, 39, 97, 39, 0, 0, 0, 0, 0, 0, 0, 0, 0, 3, 0, 4]⟩

end Tdms
