import Mathlib
import Tdms.Proofs.Strings

/-!
What is read, by the bytes that spell it.

The plain walk decodes a piece as the reader does. Here a piece is not decoded at
all: `Piece.Spells` says which samples its bytes spell, a value of a fixed width
by the grammar of values, in the order of the piece, and strings by how their
chunk is cut. `Walk.Spells` puts the pieces of a channel together. So
`readChannel_eq_walk` ties what is read of a channel to its bytes without a
decoder in between, whatever their order.
-/

namespace Tdms

open Metadata (SpellsValue)
open Walk (Block)

variable {content : ByteArray} {type : ScalarType} {width : Nat} {channel : Channel}

/-! ## Pieces -/

/-- The samples that the bytes of a piece spell: one value of a fixed width, or the strings of a
chunk that can be cut. -/
inductive Piece.Spells (content : ByteArray) (piece : Piece) : ScalarType → List Property → Prop
  | value {type : ScalarType} {value : type.Value} : type ≠ .string →
    SpellsValue piece.order type value (window content piece.offset piece.length).data.toList →
    Spells content piece type [⟨type, value⟩]
  | strings {strings : List String} :
    Samples.Cuts piece.order piece.count (window content piece.offset piece.length) →
    Samples.Holds piece.order piece.count (window content piece.offset piece.length) strings →
    Spells content piece .string (strings.map (Property.mk .string))

/-- Bytes that spell a value of a fixed width are a cell of it. -/
theorem ofCell_of_spells {order : ByteOrder} (fixed : type.width? = some width) {value : type.Value}
    {cell : List UInt8} (spelled : SpellsValue order type value cell) :
    type.ofCell order cell = value := by
  cases spelled with
  | text => cases fixed
  | boolean byte => exact Metadata.Reader.ofCell_boolean order byte
  | cell => exact ScalarType.ofCell_toCell fixed order value

/-- A piece that lies in the content decodes as the samples that it spells. -/
theorem decodePiece_eq_ok_iff {piece : Piece}
    (whole : ∀ width, type.width? = some width →
      (window content piece.offset piece.length).size = width) {samples : List Property} :
    Walk.decodePiece content type piece = .ok samples ↔ piece.Spells content type samples := by
  cases fixed : type.width? with
  | some width =>
    rw [decodePiece_of_width fixed]
    constructor
    · intro same
      cases same
      have notString : type ≠ .string := fun text => by
        rw [text] at fixed
        cases fixed
      exact .value notString
        (Metadata.Reader.spells_ofCell piece.order fixed (whole width fixed))
    · intro spells
      cases spells with
      | value _ spelled => rw [Piece.sample, ofCell_of_spells fixed spelled]
      | strings => cases fixed
  | none =>
    obtain rfl := ScalarType.width?_eq_none_iff.1 fixed
    rw [Walk.decodePiece, Outcome.map_eq_ok]
    constructor
    · intro decodes
      obtain ⟨strings, decoded, rfl⟩ := decodes
      obtain ⟨cuts, holds⟩ := Samples.decodeStrings_eq_ok_iff.1 decoded
      exact .strings cuts holds
    · intro spells
      cases spells with
      | value notString => exact absurd rfl notString
      | strings cuts holds => exact ⟨_, Samples.decodeStrings_eq_ok_iff.2 ⟨cuts, holds⟩, rfl⟩

/-! ## Blocks -/

/-- The samples that the pieces of a block spell, one after another. -/
def Walk.Block.Spells (content : ByteArray) (block : Block) (samples : List Property) : Prop :=
  ∃ parts, List.Forall₂ (fun piece part => piece.Spells content block.type part) block.pieces
    parts ∧ samples = parts.flatten

/-- The samples that the blocks of an object spell in some segments, one after another. -/
def Walk.Spells (content : ByteArray) (segments : List Segment) (path : ObjectPath)
    (samples : List Property) : Prop :=
  ∃ parts, List.Forall₂ (Block.Spells content)
    ((blocks segments).filter fun block => block.path = path) parts ∧ samples = parts.flatten

theorem forall₂_congr_of_mem {α β : Type} {relation other : α → β → Prop} {items : List α}
    {values : List β} (same : ∀ item ∈ items, ∀ value, relation item value ↔ other item value) :
    List.Forall₂ relation items values ↔ List.Forall₂ other items values := by
  induction items generalizing values with
  | nil => rw [List.forall₂_nil_left_iff, List.forall₂_nil_left_iff]
  | cons item rest ih =>
    rw [List.forall_mem_cons] at same
    simp only [List.forall₂_cons_left_iff, same.1, ih same.2]

/-- Where every item is read exactly as it is spelled, so are all of them. -/
theorem collect_eq_ok_iff_spells {α β ε : Type} {read : α → Except ε (List β)}
    {spells : α → List β → Prop} {items : List α}
    (each : ∀ item ∈ items, ∀ values, read item = .ok values ↔ spells item values)
    {samples : List β} :
    Outcome.collect read items = .ok samples ↔
      ∃ parts, List.Forall₂ spells items parts ∧ samples = parts.flatten := by
  rw [Outcome.collect_eq_ok_iff]
  simp only [forall₂_congr_of_mem each]

/-- A block that lies in the content decodes as the samples that it spells. -/
theorem Walk.Block.decode_eq_ok_iff {block : Block} (filled : block.Filled)
    (inside : block.offset + block.size ≤ content.size) {samples : List Property} :
    block.decode content = .ok samples ↔ block.Spells content samples := by
  have each : ∀ piece ∈ block.pieces, ∀ part,
      decodePiece content block.type piece = .ok part ↔ piece.Spells content block.type part := by
    intro piece listed part
    have bounds := Block.bounds_of_mem filled listed
    refine decodePiece_eq_ok_iff fun width fixed => ?_
    rw [size_window (bounds.2.trans inside)]
    rw [Block.pieces_of_width fixed] at listed
    obtain ⟨sample, -, rfl⟩ := List.mem_map.1 listed
    rfl
  rw [decode_eq_collect, Block.Spells, ← collect_eq_ok_iff_spells each]
  cases Outcome.collect (decodePiece content block.type) block.pieces with
  | error fault => simp
  | ok parts => simp

/-- What an object reads as is what its blocks spell. -/
theorem Catalogue.Tracks.read_eq_ok_iff {catalogue : Catalogue} {memory : Walk.Memory}
    {segments : List Segment} (tracks : catalogue.Tracks memory (Walk.stages .blank segments))
    (inside : ∀ stage ∈ Walk.stages .blank segments, stage.segment.endOffset ≤ content.size)
    {path : ObjectPath} {samples : List Property} :
    Walk.read content segments path = .ok samples ↔
      Walk.Spells content segments path samples := by
  rw [Walk.read, Outcome.mapM_flatten]
  refine collect_eq_ok_iff_spells fun block listed samples => ?_
  obtain ⟨stage, member, among⟩ := List.mem_flatMap.1 (List.mem_filter.1 listed).1
  exact Walk.Block.decode_eq_ok_iff
    ((tracks.sound stage member).filled (Walk.Stage.share_of_mem_blocks among))
    ((Walk.Stage.bounds_of_mem among).2.trans (inside stage member))

/-! ## Channels -/

/-- Whatever bytes open, with or without recovery, every channel reads exactly as the plain walk
over the segments reads it, errors included. What is read has the channel's type and as many
samples as it counts, and only strings can fail to be read. Samples are read exactly if they are
those that the bytes of the walk spell, each piece in the order of its segment. -/
theorem readChannel_eq_walk {recover : Bool} {file : File} {owner name : String}
    (opened : File.ofBytes content recover = .ok file)
    (listed : file.channel owner name = .ok channel) :
    (file.readChannel owner name).map Samples.scalars =
        Walk.read content (scan (.ofBytes content)).segments (.channel owner name) ∧
      (∀ samples, file.readChannel owner name = .ok samples →
        samples.type? = channel.type ∧ samples.length = channel.sampleCount) ∧
      (channel.type ≠ some .string → ∃ samples, file.readChannel owner name = .ok samples) ∧
      ∀ samples, (file.readChannel owner name).map Samples.scalars = .ok samples ↔
        Walk.Spells content (scan (.ofBytes content)).segments (.channel owner name) samples := by
  rcases File.of_ofBytes opened with ⟨source, built⟩
  have tracks := Catalogue.Tracks.of_build built
  have inside := endOffset_le_of_scan content
  have found := Catalogue.channel?_of_channel listed
  have here : file.catalogue.channelAt owner name = channel :=
    Catalogue.channelAt_of_channel? found
  have answer : file.readChannel owner name = channel.read (.ofBytes content) := by
    rw [File.readChannel, listed, source]
  have walked : ((file.catalogue.channelAt owner name).read (.ofBytes content)).map
      Samples.scalars =
        Walk.read content (scan (.ofBytes content)).segments (.channel owner name) := by
    rw [tracks.read_eq_collect inside, Walk.read, Outcome.mapM_flatten]
    rfl
  rw [answer, ← here]
  refine ⟨walked, fun samples => tracks.length_read, fun notString => ?_, fun samples => ?_⟩
  · cases typed : (file.catalogue.channelAt owner name).type with
    | none =>
      rw [Channel.read, typed]
      exact ⟨.void, rfl⟩
    | some type =>
      cases fixed : type.width? with
      | none =>
        rw [typed, ScalarType.width?_eq_none_iff.1 fixed] at notString
        exact absurd rfl notString
      | some width => exact ⟨_, tracks.readFixed_channelAt inside typed fixed⟩
  · rw [walked]
    exact tracks.read_eq_ok_iff inside

/-- The numbers of the sample lie in chunks of the little order and in records of the big one, and
its texts in chunks. -/
theorem readChannel_sample_eq_walk :
    ∃ file numbers texts, File.ofBytes sampleFile false = .ok file ∧
      file.channel "g" "a" = .ok numbers ∧ file.channel "g" "t" = .ok texts ∧
      file.readChannel "g" "a" = .ok (.column .int16 [1, 2, 3, 4]) ∧
      Walk.read sampleFile (scan (.ofBytes sampleFile)).segments (.channel "g" "a") =
        .ok [⟨.int16, 1⟩, ⟨.int16, 2⟩, ⟨.int16, 3⟩, ⟨.int16, 4⟩] ∧
      Walk.Spells sampleFile (scan (.ofBytes sampleFile)).segments (.channel "g" "a")
        [⟨.int16, 1⟩, ⟨.int16, 2⟩, ⟨.int16, 3⟩, ⟨.int16, 4⟩] ∧
      Walk.Spells sampleFile (scan (.ofBytes sampleFile)).segments (.channel "g" "t")
        [⟨.string, "x"⟩, ⟨.string, "y"⟩] := by
  have opens : (File.ofBytes sampleFile false).toOption.isSome = true := by decide +kernel
  rcases Outcome.exists_of_isSome opens with ⟨file, opened⟩
  have both : (File.ofBytes sampleFile false).map (fun file =>
      ((file.channel "g" "a").toOption.isSome, (file.channel "g" "t").toOption.isSome,
        file.readChannel "g" "a", file.readChannel "g" "t")) =
      .ok (true, true, .ok (.column .int16 [1, 2, 3, 4]), .ok (.column .string ["x", "y"])) := by
    decide +kernel
  rw [opened] at both
  injection both with both
  injection both with first both
  injection both with second both
  injection both with numbersRead textsRead
  rcases Outcome.exists_of_isSome first with ⟨numbers, looked⟩
  rcases Outcome.exists_of_isSome second with ⟨texts, also⟩
  have numbersWalk := readChannel_eq_walk opened looked
  have textsWalk := readChannel_eq_walk opened also
  rw [numbersRead] at numbersWalk
  rw [textsRead] at textsWalk
  exact ⟨file, numbers, texts, opened, looked, also, numbersRead, numbersWalk.1.symm,
    (numbersWalk.2.2.2 _).1 rfl, (textsWalk.2.2.2 _).1 rfl⟩

end Tdms
