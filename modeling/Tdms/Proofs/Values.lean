import Mathlib
import Tdms.Proofs.Elsewhere
import Tdms.Proofs.Metadata.Codec

/-!
One value, as a property and as a sample.

A metadata block takes the numbers of a property in its own order, and a channel
takes the cells of its samples in the little order, turned around where a run
is of the big one. A `Frame` is a metadata block around the value of one
property, and `Run.Lies` says of a run, packed or spaced out, that its samples
are there. `value_reads_alike` states that the same bytes of a fixed width are
the same value in every such block and at every place of such runs.
-/

namespace Tdms

variable {type : ScalarType} {width : Nat} {content : ByteArray} {channel : Channel} {run : Run}

/-! ## Samples at any distance -/

/-- The samples of a run follow each other or lie, at any distance, within their chunk, and what is
read of each chunk lies in the content. -/
structure Run.Lies (content : ByteArray) (type : ScalarType) (run : Run) : Prop where
  spaced : run.stride = type.width ∨
    ∀ sample < run.sampleCount, sample * run.stride + type.width ≤ run.byteLength
  inside : ∀ chunk < run.chunkCount,
    run.chunkOffset chunk + Channel.chunkLength run type.width ≤ content.size

/-- A chunk is read as far as its samples reach. -/
theorem Run.Lies.reach (lies : run.Lies content type) :
    ∀ sample < run.sampleCount,
      sample * run.stride + type.width ≤ Channel.chunkLength run type.width := by
  intro sample counted
  by_cases packed : run.stride = type.width
  · rw [Channel.chunkLength, if_pos packed, packed, ← Nat.succ_mul]
    exact Nat.mul_le_mul_right _ counted
  · rw [Channel.chunkLength, if_neg packed]
    exact lies.spaced.resolve_left packed sample counted

/-- The samples of a chunk, one in each piece. -/
def Chunk.samples (content : ByteArray) (type : ScalarType) (chunk : Chunk) : List type.Value :=
  (chunk.pieces type).map (Piece.sample content type)

theorem Chunk.length_samples (fixed : type.width? = some width) (chunk : Chunk) :
    (chunk.samples content type).length = chunk.run.sampleCount := by
  rw [samples, List.length_map, pieces, Piece.row_of_width fixed, List.length_map,
    List.length_range]

theorem addChunk_of_lies (lies : run.Lies content type) (fixed : type.width? = some width)
    {filled : Array type.Value} {chunk : Nat} (counted : chunk < run.chunkCount)
    (room : filled.size + run.sampleCount ≤ channel.sampleCount) :
    channel.addChunk (.ofBytes content) type run filled (run.chunkOffset chunk) =
      .ok (filled ++ Chunk.samples content type ⟨run, run.chunkOffset chunk⟩) := by
  have same := (ScalarType.width_of_width? fixed).1
  have reach := lies.reach
  rw [same] at reach
  rw [Channel.addChunk, if_neg (not_lt.2 room), readBytes_ofBytes (lies.inside chunk counted)]
  dsimp only
  rw [same, chunkValues_eq_row fixed reach]
  rfl

namespace Channel

variable (lies : ∀ run ∈ channel.runs, run.Lies content type)
  (counted : channel.sampleCount =
    (channel.runs.map fun run => run.sampleCount * run.chunkCount).sum)
include lies counted

theorem foldChunks_of_lies (fixed : type.width? = some width) :
    channel.foldChunks (channel.addChunk (.ofBytes content) type) #[] =
      .ok ((#[] : Array type.Value) ++ channel.chunks.flatMap (Chunk.samples content type)) := by
  have sized : ∀ chunk ∈ channel.chunks, ∀ values,
      (.ok (chunk.samples content type) : Except Error (List type.Value)) = .ok values →
        values.length = chunk.run.sampleCount := by
    intro chunk _ values same
    cases same
    exact chunk.length_samples fixed
  have adds : ∀ chunk ∈ channel.chunks, ∀ found : Array type.Value,
      found.size + chunk.run.sampleCount ≤ channel.sampleCount →
        channel.addChunk (.ofBytes content) type chunk.run found chunk.offset =
          .ok (found ++ chunk.samples content type) := by
    intro chunk listed found room
    obtain ⟨run, held, count, inside, rfl⟩ := mem_chunks.1 listed
    exact addChunk_of_lies (lies run held) fixed inside room
  have room : (#[] : Array type.Value).size +
      (channel.chunks.map fun chunk => chunk.run.sampleCount).sum ≤ channel.sampleCount := by
    rw [sum_sampleCount_chunks, counted]
    exact (Nat.zero_add _).le
  rw [foldChunks_eq_foldlM, foldlM_eq_collect _ channel.sampleCount sized adds room,
    Outcome.collect_of_ok fun _ _ => rfl]
  rfl

/-- A channel reads as the samples in its pieces, in order, wherever these lie. -/
theorem read_of_lies (typed : channel.type = some type) (fixed : type.width? = some width) :
    channel.read (.ofBytes content) =
      .ok (.column type (channel.pieces.map (Piece.sample content type))) := by
  have pieces : channel.chunks.flatMap (Chunk.samples content type) =
      channel.pieces.map (Piece.sample content type) := by
    rw [pieces_eq_chunks typed, List.map_flatMap]
    rfl
  have length : (channel.pieces.map (Piece.sample content type)).length = channel.sampleCount := by
    rw [← pieces, List.length_flatMap, List.map_congr_left fun chunk _ =>
      chunk.length_samples fixed, sum_sampleCount_chunks, counted]
  have all : channel.readFixed (.ofBytes content) type =
      .ok (channel.pieces.map (Piece.sample content type)) := by
    rw [readFixed, foldChunks_of_lies lies counted fixed, pieces]
    simp [Except.map, length]
  rw [Channel.read, typed]
  cases type with
  | string => cases fixed
  | _ =>
    dsimp only
    rw [all]
    rfl

end Channel

/-- A channel whose only run is one sample has one piece. -/
theorem Channel.pieces_of_one (typed : channel.type = some type) (fixed : type.width? = some width)
    (only : channel.runs = [run]) (single : run.chunkCount = 1) (one : run.sampleCount = 1) :
    channel.pieces = [⟨run.offset, width, 1, run.order⟩] := by
  rw [Channel.pieces, typed]
  dsimp only
  rw [only, List.flatMap_singleton, Run.pieces_of_one single, Piece.row_of_width fixed, one,
    List.range_one, List.map_singleton, Nat.zero_mul, Nat.add_zero]

/-! ## Properties among others -/

namespace Metadata

open Draft (textBytes Short)

/-- Items with bytes that spell them. -/
structure Spelled {α : Type} (spells : α → List UInt8 → Prop) where
  items : List α
  bytes : List UInt8
  spelled : SpellsEach spells items bytes

/-- Items are spelled around one more. -/
theorem Spelled.around {α : Type} {spells : α → List UInt8 → Prop} (before after : Spelled spells)
    {item : α} {bytes : List UInt8} (spelled : spells item bytes) :
    SpellsEach spells (before.items ++ item :: after.items)
      (before.bytes ++ (bytes ++ after.bytes)) := by
  obtain ⟨items, early, opening⟩ := before
  dsimp only
  induction opening with
  | nil =>
    rw [List.nil_append, List.nil_append]
    exact .cons spelled after.spelled
  | cons first _ ih =>
    rw [List.append_assoc]
    exact .cons first ih

/-- A metadata block in which the value of one property, and the code of its type, are left open. -/
structure Frame (order : ByteOrder) where
  earlier : Spelled (SpellsRecord order)
  path : ObjectPath
  path_short : Short path.render
  declaration : Declaration
  declared : List UInt8
  declared_spelled : SpellsDeclaration order declaration declared
  before : Spelled (SpellsProperty order)
  name : String
  name_short : Short name
  after : Spelled (SpellsProperty order)
  few_properties : before.items.length + (after.items.length + 1) < UInt32.size
  later : Spelled (SpellsRecord order)
  few_records : earlier.items.length + (later.items.length + 1) < UInt32.size
  /-- Bytes behind the block. -/
  rest : List UInt8

namespace Frame

variable {order : ByteOrder} (frame : Frame order)

/-- The block with the code and the bytes of a value. -/
def bytes (code : UInt32) (cell : List UInt8) : List UInt8 :=
  let property := textBytes order frame.name ++ (order.bytes 4 code.toNat ++ cell)
  let properties := order.bytes 4 (frame.before.items.length + (frame.after.items.length + 1)) ++
    (frame.before.bytes ++ (property ++ frame.after.bytes))
  let record := textBytes order frame.path.render ++ (frame.declared ++ properties)
  order.bytes 4 (frame.earlier.items.length + (frame.later.items.length + 1)) ++
    (frame.earlier.bytes ++ (record ++ frame.later.bytes)) ++ frame.rest

/-- The records of the block, one of them with the property. -/
def records (property : Property) : List Record :=
  frame.earlier.items ++ ⟨frame.path, frame.declaration,
    frame.before.items ++ (frame.name, property) :: frame.after.items⟩ :: frame.later.items

theorem length_records (property : Property) :
    (frame.records property).length =
      frame.earlier.items.length + (frame.later.items.length + 1) :=
  List.length_append

/-- Bytes that spell a value are read as it, wherever they stand in a block. -/
theorem decode_bytes {code : UInt32} {value : type.Value} {cell : List UInt8}
    (known : type.HasCode code) (spelled : SpellsValue order type value cell) :
    decode order (frame.bytes code cell) = .ok (frame.records ⟨type, value⟩) := by
  have properties := frame.before.around frame.after (.mk frame.name_short known spelled)
  have few : (frame.before.items ++ (frame.name, Property.mk type value) ::
      frame.after.items).length < UInt32.size := by
    rw [List.length_append]
    exact frame.few_properties
  have record := SpellsRecord.mk frame.path_short frame.declared_spelled (.mk few properties)
  have block : SpellsBlock order (frame.records ⟨type, value⟩) _ :=
    .mk (by rw [length_records]; exact frame.few_records) (frame.earlier.around frame.later record)
  refine decode_eq_ok_iff.2 ⟨_, frame.rest, ?_, block⟩
  rw [length_records, List.length_append]
  rfl

end Frame

end Metadata

/-! ## The same bytes -/

/-- Bytes of a fixed width are one value in either order: the value of every property that they
spell in a metadata block of the order, the only sample of a channel whose only run is these bytes,
and the sample at every place of the runs of a channel, packed or spaced out, where a run of the
order has the bytes. -/
theorem value_reads_alike (order : ByteOrder) (type : ScalarType) (fixed : type ≠ .string)
    {cell : List UInt8} (whole : cell.length = type.width) :
    ∃ value : type.Value, Metadata.SpellsValue order type value cell ∧
      (∀ (frame : Metadata.Frame order) (code : UInt32), type.HasCode code →
        Metadata.decode order (frame.bytes code cell) = .ok (frame.records ⟨type, value⟩)) ∧
      (∀ (channel : Channel) (content : ByteArray) (run : Run), channel.type = some type →
        channel.runs = [run] → channel.sampleCount = 1 → run.sampleCount = 1 →
        run.chunkCount = 1 → run.order = order → run.Lies content type →
        (window content run.offset type.width).data.toList = cell →
        channel.read (.ofBytes content) = .ok (.column type [value])) ∧
      ∀ (channel : Channel) (content : ByteArray), channel.type = some type →
        channel.sampleCount = (channel.runs.map fun run => run.sampleCount * run.chunkCount).sum →
        (∀ run ∈ channel.runs, run.Lies content type) →
        ∃ samples, channel.read (.ofBytes content) = .ok (.column type samples) ∧
          List.Forall₂ (fun piece sample => piece.order = order →
            (window content piece.offset piece.length).data.toList = cell → sample = value)
            channel.pieces samples := by
  obtain ⟨width, known⟩ := ScalarType.exists_width fixed
  have same := (ScalarType.width_of_width? known).1
  have spelled := Metadata.Reader.spells_ofCell order known (whole.trans same)
  refine ⟨type.ofCell order cell, spelled, ?_, ?_, ?_⟩
  · intro frame code stands
    exact frame.decode_bytes stands spelled
  · intro channel content run typed only counted one single ordered lies bytes
    have every : ∀ other ∈ channel.runs, other.Lies content type := by
      rwa [only, List.forall_mem_singleton]
    have total : channel.sampleCount =
        (channel.runs.map fun run => run.sampleCount * run.chunkCount).sum := by
      rw [only, List.map_singleton, List.sum_singleton, one, single, counted]
    rw [Channel.read_of_lies every total typed known,
      Channel.pieces_of_one typed known only single one, List.map_singleton, Piece.sample, ordered,
      ← same, bytes]
  · intro channel content typed counted lies
    refine ⟨_, Channel.read_of_lies lies counted typed known, ?_⟩
    rw [List.forall₂_map_right_iff]
    refine List.forall₂_same.2 fun piece _ ordered bytes => ?_
    rw [Piece.sample, ordered, bytes]

/-- The complex number 1.25 - 2i in the big order. -/
def sampleCell : List UInt8 :=
  [0x3F, 0xA0, 0, 0, 0xC0, 0, 0, 0]

/-- A block of one record with one property. -/
def sampleFrame : Metadata.Frame .big where
  earlier := ⟨[], [], .nil⟩
  path := .root
  path_short := by unfold Draft.Short; decide
  declaration := .noData
  declared := [0xFF, 0xFF, 0xFF, 0xFF]
  declared_spelled := .noData
  before := ⟨[], [], .nil⟩
  name := "z"
  name_short := by unfold Draft.Short; decide
  after := ⟨[], [], .nil⟩
  few_properties := by decide
  later := ⟨[], [], .nil⟩
  few_records := by decide
  rest := []

/-- The number twice, with four bytes between. -/
def sampleContent : ByteArray :=
  (sampleCell ++ [7, 7, 7, 7] ++ sampleCell).toByteArray

/-- A channel of both numbers. -/
def sampleChannel : Channel :=
  { Channel.named "g" "z" with
    type := some .complex64
    latestRuns := [⟨0, 0, 20, 12, 2, 1, 20, .big⟩]
    sampleCount := 2 }

theorem value_reads_alike_sample :
    ∃ value : Complex Binary32,
      Metadata.decode .big (sampleFrame.bytes 0x08000C sampleCell) =
        .ok (sampleFrame.records ⟨.complex64, value⟩) ∧
      sampleChannel.read (.ofBytes sampleContent) = .ok (.column .complex64 [value, value]) := by
  obtain ⟨value, -, block, -, places⟩ :=
    @value_reads_alike .big .complex64 nofun sampleCell rfl
  have lies : ∀ run ∈ sampleChannel.runs, run.Lies sampleContent .complex64 := by
    intro run held
    cases List.mem_singleton.1 held
    exact ⟨.inr (by decide), by decide⟩
  have pieces : sampleChannel.pieces = [⟨0, 8, 1, .big⟩, ⟨12, 8, 1, .big⟩] := rfl
  obtain ⟨samples, read, each⟩ := places sampleChannel sampleContent rfl rfl lies
  rw [pieces] at each
  refine ⟨value, block sampleFrame _ (.own _), read.trans ?_⟩
  cases each with
  | cons first rest =>
    cases rest with
    | cons second rest =>
      cases rest with
      | nil => rw [first rfl rfl, second rfl rfl]

end Tdms
