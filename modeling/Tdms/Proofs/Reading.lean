import Mathlib
import Tdms.Proofs.Blocks
import Tdms.Proofs.Catalogue.Consistent
import Tdms.Proofs.Catalogue.Directory
import Tdms.Proofs.Chunks

/-!
Reading a channel, piece by piece.

The chunks of a catalogue's channel lie within the content that its segments
lie in, and hold its blocks piece by piece. `read_eq_collect` states that a
channel of a catalogue reads as its blocks decode, one after another;
`Walk.read` does the latter.
-/

namespace Tdms

open Walk (Memory Stage Block)

variable {content : ByteArray} {type : ScalarType} {width : Nat} {channel : Channel}

/-! ## Blocks -/

theorem decodePiece_of_width (fixed : type.width? = some width) (piece : Piece) :
    Walk.decodePiece content type piece = .ok [⟨type, piece.sample content type⟩] := by
  cases type with
  | string => cases fixed
  | _ => rfl

theorem decode_eq_collect (content : ByteArray) (block : Block) :
    block.decode content =
      match Outcome.collect (Walk.decodePiece content block.type) block.pieces with
      | .ok samples => .ok samples
      | .error fault => .error (.corruptData block.path.render block.offset fault) := by
  rw [Block.decode, ← Outcome.mapM_flatten]
  cases block.pieces.mapM (Walk.decodePiece content block.type) with
  | error fault => rfl
  | ok samples => rfl

/-- A block of a fixed width decodes as the samples in its pieces. -/
theorem decode_of_width {block : Block} (fixed : block.type.width? = some width) :
    block.decode content =
      .ok (block.pieces.map fun piece => ⟨block.type, piece.sample content block.type⟩) := by
  rw [decode_eq_collect, Outcome.collect_of_ok fun piece _ => decodePiece_of_width fixed piece,
    List.map_eq_flatMap]

/-- A block of strings decodes as the strings in its one piece. -/
theorem decode_of_string {block : Block} (text : block.type = .string) :
    block.decode content =
      (Outcome.collect (Piece.texts content block.path.render) block.pieces).map
        (List.map (Property.mk .string)) := by
  have one : block.pieces = [⟨block.offset, block.size, block.count, block.order⟩] :=
    Piece.row_of_string (ScalarType.width?_eq_none_iff.2 text)
  rw [decode_eq_collect, one, Outcome.collect_singleton, Outcome.collect_singleton, text,
    Walk.decodePiece, Piece.texts]
  dsimp only
  cases Samples.decodeStrings block.order block.count
      (window content block.offset block.size) with
  | error fault => rfl
  | ok texts => rfl

/-! ## Channels -/

namespace Catalogue.Tracks

variable {catalogue : Catalogue} {memory : Memory} {stages : List Stage}
  (tracks : catalogue.Tracks memory stages)
include tracks

/-- A block belongs to a channel of its type. -/
theorem type_of_block {block : Block} (listed : block ∈ stages.flatMap Stage.blocks)
    {owner name : String} (path : block.path = .channel owner name) :
    (catalogue.channelAt owner name).type = some block.type := by
  rcases List.mem_flatMap.1 listed with ⟨stage, member, inside⟩
  rcases List.mem_filterMap.1 (Stage.share_of_mem_blocks inside) with ⟨entry, owns, owned⟩
  rcases tracks.owners_typed stage member entry owns with ⟨group, channel, here, typed⟩
  rw [← Walk.path_of_share? owned, path] at here
  rcases ObjectPath.channel.inj here with ⟨rfl, rfl⟩
  rw [typed, Walk.type_of_share? owned]

theorem path_channelAt (owner name : String) :
    (catalogue.channelAt owner name).path = (ObjectPath.channel owner name).render := by
  rw [Channel.path, channelAt]
  cases found : catalogue.channel? owner name with
  | none => rfl
  | some channel =>
    rcases tracks.named.channel found with ⟨group, same⟩
    rw [Option.getD_some, group, same]

/-- Runs end inside content that the segments end inside. -/
theorem chunk_le (inside : ∀ stage ∈ stages, stage.segment.endOffset ≤ content.size)
    {owner name : String} :
    ∀ run ∈ (catalogue.channelAt owner name).runs, ∀ chunk < run.chunkCount,
      run.chunkOffset chunk + run.byteLength ≤ content.size := by
  intro run held chunk counted
  rcases tracks.of_mem_runs held with ⟨stage, member, -, -, -, -, within⟩
  exact (within.inside chunk counted).2.trans (inside stage member)

theorem chunks_fit (inside : ∀ stage ∈ stages, stage.segment.endOffset ≤ content.size)
    (owner name : String) :
    ∀ chunk ∈ (catalogue.channelAt owner name).chunks, chunk.Fits content := by
  intro chunk listed
  obtain ⟨run, held, count, counted, rfl⟩ := Channel.mem_chunks.1 listed
  exact tracks.chunk_le inside run held count counted

theorem shaped_of_mem {owner name : String}
    (typed : (catalogue.channelAt owner name).type = some type) :
    ∀ run ∈ (catalogue.channelAt owner name).runs, run.Shaped type := by
  intro run held
  rcases tracks.of_mem_runs held with ⟨-, -, other, known, -, shaped, -⟩
  rcases Option.some.inj (typed.symm.trans known) with rfl
  exact shaped

/-- A channel of a catalogue reads as its chunks are fetched, whatever the content. -/
theorem read_eq_fetch {owner name : String}
    (typed : (catalogue.channelAt owner name).type = some type) (content : ByteArray) :
    (catalogue.channelAt owner name).read (.ofBytes content) =
      (Outcome.collect (Chunk.fetch content (catalogue.channelAt owner name).path type)
        (catalogue.channelAt owner name).chunks).map (.column type) :=
  Channel.read_eq_fetch typed (tracks.shaped_of_mem typed) (tracks.count_eq owner name) content

theorem readFixed_channelAt (inside : ∀ stage ∈ stages, stage.segment.endOffset ≤ content.size)
    {owner name : String} (typed : (catalogue.channelAt owner name).type = some type)
    (fixed : type.width? = some width) :
    (catalogue.channelAt owner name).read (.ofBytes content) =
      .ok (.column type (((catalogue.channelAt owner name).runs.flatMap (Run.pieces type)).map
        (Piece.sample content type))) := by
  rw [tracks.read_eq_fetch typed,
    Channel.collect_fetch_of_fits _ fixed (tracks.chunks_fit inside owner name)]
  rfl

theorem readStrings_channelAt
    (inside : ∀ stage ∈ stages, stage.segment.endOffset ≤ content.size) {owner name : String}
    (typed : (catalogue.channelAt owner name).type = some .string) :
    (catalogue.channelAt owner name).read (.ofBytes content) =
      (Outcome.collect (Piece.texts content (ObjectPath.channel owner name).render)
        ((catalogue.channelAt owner name).runs.flatMap (Run.pieces .string))).map
          (.column .string) := by
  rw [tracks.read_eq_fetch typed, tracks.path_channelAt,
    Channel.collect_texts_of_fits (tracks.chunks_fit inside owner name)]

/-- A channel reads as its blocks decode, one after another. -/
theorem read_eq_collect (inside : ∀ stage ∈ stages, stage.segment.endOffset ≤ content.size)
    (owner name : String) :
    ((catalogue.channelAt owner name).read (.ofBytes content)).map Samples.scalars =
      Outcome.collect (Block.decode content)
        ((stages.flatMap Stage.blocks).filter fun block => block.path = .channel owner name) := by
  have typeOf : ∀ block ∈ (stages.flatMap Stage.blocks).filter fun block =>
      block.path = .channel owner name,
      block.path = .channel owner name ∧
        (catalogue.channelAt owner name).type = some block.type := by
    intro block listed
    rcases List.mem_filter.1 listed with ⟨member, path⟩
    exact ⟨of_decide_eq_true path, tracks.type_of_block member (of_decide_eq_true path)⟩
  cases typed : (catalogue.channelAt owner name).type with
  | none =>
    have empty : ((stages.flatMap Stage.blocks).filter fun block =>
        block.path = .channel owner name) = [] := by
      rw [List.eq_nil_iff_forall_not_mem]
      intro block listed
      have known := (typeOf block listed).2
      rw [typed] at known
      cases known
    rw [empty, Channel.read, typed]
    rfl
  | some type =>
    have expanded := tracks.pieces_eq typed
    generalize (stages.flatMap Stage.blocks).filter (fun block =>
      block.path = .channel owner name) = blocks at typeOf expanded ⊢
    have same : ∀ block ∈ blocks, block.type = type := by
      intro block listed
      have known := (typeOf block listed).2
      rw [typed] at known
      exact (Option.some.inj known).symm
    cases fixed : type.width? with
    | some width =>
      have counted : ∀ piece ∈ blocks.flatMap Block.pieces, decide (0 < piece.count) = true := by
        intro piece listed
        rcases List.mem_flatMap.1 listed with ⟨block, member, inside⟩
        rw [Block.pieces_of_width (same block member ▸ fixed)] at inside
        rcases List.mem_map.1 inside with ⟨sample, -, rfl⟩
        rfl
      have decoded : ∀ block ∈ blocks, block.decode content =
          Outcome.collect (fun piece => .ok [⟨type, piece.sample content type⟩]) block.pieces := by
        intro block member
        rcases same block member with rfl
        rw [decode_of_width fixed, Outcome.collect_of_ok fun _ _ => rfl, List.map_eq_flatMap]
      rw [readFixed_channelAt tracks inside typed fixed, expanded,
        List.filter_eq_self.2 counted, Outcome.collect_congr decoded, ← Outcome.collect_flatMap,
        Outcome.collect_of_ok fun _ _ => rfl, ← List.map_eq_flatMap]
      simp [Except.map, Samples.scalars]
    | none =>
      rcases ScalarType.width?_eq_none_iff.1 fixed with rfl
      have decoded : ∀ block ∈ blocks, block.decode content =
          (Outcome.collect (Piece.texts content (ObjectPath.channel owner name).render)
            block.pieces).map (List.map (Property.mk .string)) := by
        intro block member
        rw [decode_of_string (same block member), (typeOf block member).1]
      have empty : ∀ piece ∈ blocks.flatMap Block.pieces, decide (0 < piece.count) = false →
          piece.texts content (ObjectPath.channel owner name).render = .ok [] := by
        intro piece _ none
        exact texts_of_zero (Nat.eq_zero_of_not_pos (of_decide_eq_false none))
      rw [readStrings_channelAt tracks inside typed, expanded, Outcome.collect_filter empty,
        Outcome.collect_congr decoded, Outcome.collect_map, ← Outcome.collect_flatMap]
      cases Outcome.collect (Piece.texts content (ObjectPath.channel owner name).render)
          (blocks.flatMap Block.pieces) with
      | error error => rfl
      | ok texts => rfl

theorem runs_of_untyped {owner name : String}
    (untyped : (catalogue.channelAt owner name).type = none) :
    (catalogue.channelAt owner name).runs = [] := by
  rw [List.eq_nil_iff_forall_not_mem]
  intro run held
  obtain ⟨-, -, type, known, -⟩ := tracks.of_mem_runs held
  rw [untyped] at known
  cases known

/-- A channel counts the samples in its pieces. -/
theorem sampleCount_eq {owner name : String}
    (typed : (catalogue.channelAt owner name).type = some type) :
    (catalogue.channelAt owner name).sampleCount =
      (((catalogue.channelAt owner name).runs.flatMap (Run.pieces type)).map Piece.count).sum := by
  rw [tracks.count_eq, List.map_flatMap, List.flatMap_def, List.sum_flatten, List.map_map]
  congr 1
  apply List.map_congr_left
  intro run held
  rw [Function.comp, sum_count_pieces, (tracks.shaped_of_mem typed run held).total_eq]

/-- What is read has the type of the channel and as many samples as it counts. -/
theorem length_read {owner name : String} {samples : Samples}
    (answer : (catalogue.channelAt owner name).read (.ofBytes content) = .ok samples) :
    samples.type? = (catalogue.channelAt owner name).type ∧
      samples.length = (catalogue.channelAt owner name).sampleCount := by
  cases typed : (catalogue.channelAt owner name).type with
  | none =>
    rw [Channel.read, typed] at answer
    cases answer
    rw [tracks.count_eq, tracks.runs_of_untyped typed]
    exact ⟨rfl, rfl⟩
  | some type =>
    rw [tracks.read_eq_fetch typed] at answer
    rcases Outcome.map_eq_ok.1 answer with ⟨values, collected, rfl⟩
    exact ⟨rfl, Channel.length_collect (tracks.shaped_of_mem typed) (tracks.count_eq owner name)
      collected⟩

end Catalogue.Tracks

/-! ## Open files -/

/-- What a file that opens is made of. -/
theorem File.of_ofSource {source : Source} {recover : Bool} {file : File}
    (opened : File.ofSource source recover = .ok file) :
    file.source = source ∧
      Catalogue.build source recover = .ok (file.catalogue, file.truncatedAt) := by
  rw [File.ofSource] at opened
  split at opened
  · cases opened
  · rename_i catalogue truncatedAt built
    cases opened
    exact ⟨rfl, built⟩

/-- A source is refused for what its catalogue is refused for. -/
theorem File.ofSource_eq_error_iff {source : Source} {recover : Bool} {error : Error} :
    File.ofSource source recover = .error error ↔
      Catalogue.build source recover = .error error := by
  rw [File.ofSource]
  cases Catalogue.build source recover with
  | error other => simp
  | ok built => simp

theorem File.of_ofBytes {recover : Bool} {file : File}
    (opened : File.ofBytes content recover = .ok file) :
    file.source = .ofBytes content ∧
      Catalogue.build (.ofBytes content) recover = .ok (file.catalogue, file.truncatedAt) :=
  File.of_ofSource opened

/-- The channels of a group are listed as its records name them. -/
theorem File.groupChannels_of_mem {file : File} (named : file.catalogue.Named) {owner : String}
    (listed : owner ∈ file.catalogue.directory.groups) :
    file.groupChannels owner = .ok (file.catalogue.directory.channels owner) := by
  rw [File.groupChannels, Catalogue.group_of_mem listed, ← named.channels_eq]
  rfl

theorem Catalogue.channel?_of_channel {catalogue : Catalogue} {owner name : String}
    (found : catalogue.channel owner name = .ok channel) :
    catalogue.channel? owner name = some channel := by
  rw [Catalogue.channel, Catalogue.group] at found
  rw [Catalogue.channel?]
  cases group : catalogue.groups.get? owner with
  | none =>
    rw [group] at found
    cases found
  | some held =>
    rw [group] at found
    dsimp only at found
    rw [Option.bind_some]
    split at found
    · rename_i stored inside
      cases found
      exact inside
    · cases found

/-- The segments of a scan end inside the content. -/
theorem endOffset_le_of_scan (content : ByteArray) :
    ∀ stage ∈ Walk.stages .blank (scan (.ofBytes content)).segments,
      stage.segment.endOffset ≤ content.size := by
  intro stage member
  have among := Catalogue.mem_of_mem_stages member
  exact ((scan_scanned (.ofBytes content)).bounds_of_mem among).2.2.1

end Tdms
