import Mathlib
import Tdms.Proofs.Alike
import Tdms.Proofs.Catalogue.Split
import Tdms.Proofs.Recovery

/-!
Where a writer ends its segments.

Raw data that is written in one segment or, behind whole rounds, in two holds the
same samples: `File.splits` states that a file of which one segment is cut in two
opens as it did, with the same directory, and that its channels read the same.
Only the places of corrupt strings may differ.
-/

namespace Tdms

open Walk (Memory Stage Block)

variable {content : ByteArray} {kept : Nat} {following : LeadIn}

/-! ## What two files have in common -/

namespace File

variable {file other : File}

/-- Callers look up the same names and properties in both files. -/
structure SameNames (file other : File) : Prop where
  groups_eq : other.groups = file.groups
  groupChannels_eq : ∀ group, other.groupChannels group = file.groupChannels group
  properties_eq : other.properties = file.properties
  groupProperties_eq : ∀ group, other.groupProperties group = file.groupProperties group
  channelProperties_eq : ∀ group name,
    other.channelProperties group name = file.channelProperties group name

/-- Callers find the same in both files, wherever it lies. -/
structure Matches (file other : File) : Prop extends SameNames file other where
  channel_eq : ∀ group name channel, file.channel group name = .ok channel →
    ∃ found, other.channel group name = .ok found ∧ found.type = channel.type ∧
      found.sampleCount = channel.sampleCount
  read_eq : ∀ group name channel, file.channel group name = .ok channel →
    channel.type ≠ some .string → other.readChannel group name = file.readChannel group name
  /-- Strings are the same as well, or they are corrupt in both files. -/
  read_alike : ∀ group name channel, file.channel group name = .ok channel →
    channel.type = some .string →
      Outcome.Alike Error.SameCorruption (file.readChannel group name)
        (other.readChannel group name)

/-- Names and properties are those in the directory. -/
theorem SameNames.of_directory (named : file.catalogue.Named) (also : other.catalogue.Named)
    (same : other.catalogue.directory = file.catalogue.directory) : file.SameNames other where
  groups_eq := by
    rw [groups, groups]
    exact (also.groups_eq.trans (congrArg Directory.groups same)).trans named.groups_eq.symm
  groupChannels_eq group := by
    rw [groupChannels, groupChannels, Catalogue.group_eq, Catalogue.group_eq, same]
    split
    · have names := (also.channels_eq group).trans
        (congrArg (fun directory => directory.channels group) same)
      exact congrArg Except.ok (names.trans (named.channels_eq group).symm)
    · rfl
  properties_eq := congrArg (fun directory => directory.properties .root) same
  groupProperties_eq group := by
    rw [groupProperties, groupProperties, Catalogue.group_eq, Catalogue.group_eq, same]
    split
    · exact congrArg (fun directory => Except.ok (directory.properties (.group group))) same
    · rfl
  channelProperties_eq group name := by
    rw [channelProperties, channelProperties, channel, channel, Catalogue.channel_eq,
      Catalogue.channel_eq, same]
    split
    · split
      · exact congrArg (fun directory => Except.ok (directory.properties (.channel group name)))
          same
      · rfl
    · rfl

end File

namespace Catalogue

variable {catalogue changed : Catalogue} {memory after : Memory} {stages others : List Stage}

/-- Pieces of blocks that are moved hold what they held, if the blocks do. -/
theorem Tracks.pieces_alike {other : ByteArray} (tracks : catalogue.Tracks memory stages)
    (also : changed.Tracks after others) {owner name : String}
    (type_eq : (changed.channelAt owner name).type = (catalogue.channelAt owner name).type)
    {early late : List Block} {bytes : Nat}
    (blocks : stages.flatMap Stage.blocks = early ++ late)
    (moved : others.flatMap Stage.blocks = early ++ late.map (Block.shift bytes))
    (kept : ∀ block ∈ early, ∀ piece ∈ block.pieces,
      window other piece.offset piece.length = window content piece.offset piece.length)
    (behind : ∀ block ∈ late, ∀ piece ∈ block.pieces,
      window other (bytes + piece.offset) piece.length =
        window content piece.offset piece.length) :
    List.Forall₂ (Piece.Alike content other) (catalogue.channelAt owner name).pieces
      (changed.channelAt owner name).pieces := by
  cases typed : (catalogue.channelAt owner name).type with
  | none =>
    rw [Channel.pieces, Channel.pieces, type_eq, typed]
    exact .nil
  | some type =>
    have shifted : ((late.map (Block.shift bytes)).filter fun block =>
        block.path = .channel owner name).flatMap Block.pieces =
          ((late.filter fun block => block.path = .channel owner name).flatMap
            Block.pieces).map (Piece.shift bytes) := by
      rw [List.filter_map, List.flatMap_map, List.map_flatMap]
      congr 1
      funext block
      exact block.pieces_shift
    rw [tracks.pieces_channelAt typed, also.pieces_channelAt (type_eq.trans typed), blocks, moved,
      List.filter_append, List.filter_append, List.flatMap_append, List.flatMap_append,
      List.filter_append, List.filter_append, shifted, List.filter_map]
    refine List.rel_append (List.forall₂_same.2 fun piece listed => ?_)
      (List.forall₂_map_right_iff.2 (List.forall₂_same.2 fun piece listed => ?_))
    · obtain ⟨block, held, inside⟩ := List.mem_flatMap.1 (List.mem_filter.1 listed).1
      exact ⟨rfl, rfl, kept block (List.mem_filter.1 held).1 piece inside⟩
    · obtain ⟨block, held, inside⟩ := List.mem_flatMap.1 (List.mem_filter.1 listed).1
      exact ⟨rfl, rfl, behind block (List.mem_filter.1 held).1 piece inside⟩

end Catalogue

/-- Files match that have one directory, the same types, and channels with alike pieces. -/
theorem File.Matches.of_alike {file other : File} {right : ByteArray} {memory after : Memory}
    {stages others : List Stage} (source : file.source = .ofBytes content)
    (elsewhere : other.source = .ofBytes right) (tracks : file.catalogue.Tracks memory stages)
    (also : other.catalogue.Tracks after others)
    (inside : ∀ stage ∈ stages, stage.segment.endOffset ≤ content.size)
    (within : ∀ stage ∈ others, stage.segment.endOffset ≤ right.size)
    (directory : other.catalogue.directory = file.catalogue.directory)
    (types : ∀ owner name, (other.catalogue.channelAt owner name).type =
      (file.catalogue.channelAt owner name).type)
    (alike : ∀ owner name, List.Forall₂ (Piece.Alike content right)
      (file.catalogue.channelAt owner name).pieces
      (other.catalogue.channelAt owner name).pieces) : file.Matches other := by
  have lookup : ∀ group name channel, file.channel group name = .ok channel →
      channel = file.catalogue.channelAt group name ∧
        other.channel group name = .ok (other.catalogue.channelAt group name) := by
    intro group name channel held
    have known := Catalogue.channel?_of_channel held
    refine ⟨(Catalogue.channelAt_of_channel? known).symm, Catalogue.channel_of_mem ?_⟩
    rw [directory]
    exact Catalogue.mem_channels_of_channel? known
  refine ⟨.of_directory tracks.named also.named directory, fun group name channel held => ?_,
    fun group name channel held notString => ?_, fun group name channel held text => ?_⟩
  · obtain ⟨rfl, there⟩ := lookup group name channel held
    exact ⟨_, there, types group name,
      tracks.sampleCount_alike also (types group name) (alike group name)⟩
  · obtain ⟨rfl, there⟩ := lookup group name channel held
    rw [readChannel, readChannel, held, there, source, elsewhere]
    exact tracks.read_eq_of_alike also (types group name) (alike group name) inside within notString
  · obtain ⟨rfl, there⟩ := lookup group name channel held
    rw [readChannel, readChannel, held, there, source, elsewhere]
    exact tracks.read_alike also (types group name) (alike group name) inside within text

/-! ## Files -/

section

variable {segment : Segment} {before after : List Segment}
  (found : (scan (.ofBytes content)).segments = before ++ segment :: after)
  (within : kept ≤ segment.dataLength)
include found within

/-- Blocks before the cut hold what they held. -/
theorem window_early {memory : Memory} {owners : List (ObjectPath × Metadata.RawIndex)}
    {block : Block} (filled : block.Filled)
    (listed : block ∈ (Walk.stages memory before).flatMap Stage.blocks ++
      Stage.blocks ⟨segment.front kept, owners⟩) :
    ∀ piece ∈ block.pieces,
      window (splitAt content segment kept following) piece.offset piece.length =
        window content piece.offset piece.length := by
  intro piece inside
  obtain ⟨placed, whole, clear, -⟩ := bounds_of_scan found
  unfold Segment.endOffset at whole
  have room : segment.dataOffset + kept ≤ content.size := by omega
  have bounds := Block.bounds_of_mem filled inside
  rcases List.mem_append.1 listed with early | front
  · obtain ⟨stage, member, held⟩ := List.mem_flatMap.1 early
    have ends := (Stage.bounds_of_mem held).2
    have start := clear stage.segment (Catalogue.mem_of_mem_stages member)
    exact window_splitAt_before placed room (by omega)
  · have ends : segment.dataOffset ≤ block.offset ∧
        block.offset + block.size ≤ segment.dataOffset + kept := Stage.bounds_of_mem front
    have head := placed.dataOffset_eq
    exact window_splitAt_front placed room (by omega) (by omega)

/-- Blocks behind the cut hold what they held, but later. -/
theorem window_late {memory : Memory} {owners : List (ObjectPath × Metadata.RawIndex)}
    {block : Block} (filled : block.Filled)
    (listed : block ∈ Stage.blocks ⟨segment.without kept, owners⟩ ++
      (Walk.stages memory after).flatMap Stage.blocks)
    (inside : block.offset + block.size ≤ content.size) :
    ∀ piece ∈ block.pieces,
      window (splitAt content segment kept following) (leadInLength + piece.offset) piece.length =
        window content piece.offset piece.length := by
  intro piece part
  obtain ⟨placed, whole, -, clear⟩ := bounds_of_scan found
  unfold Segment.endOffset at whole clear
  have bounds := Block.bounds_of_mem filled part
  have start : segment.dataOffset + kept ≤ block.offset := by
    rcases List.mem_append.1 listed with rest | late
    · exact (Stage.bounds_of_mem rest).1
    · obtain ⟨stage, member, held⟩ := List.mem_flatMap.1 late
      have starts := (Stage.bounds_of_mem held).1
      have behind := clear stage.segment (Catalogue.mem_of_mem_stages member)
      omega
  exact (moved_splitAt placed (by omega)).window_eq _ _ (by omega) (by omega)

end

/-- Where a segment of a file is cut in two, a catalogue has the parts of it in its place, with the
same directory and types. -/
theorem Catalogue.build_splitAt {catalogue : Catalogue} {truncated : Option Nat} {segment : Segment}
    {before after : List Segment}
    (built : build (.ofBytes content) false = .ok (catalogue, truncated))
    (total : leadInLength + content.size < UInt64.size)
    (found : (scan (.ofBytes content)).segments = before ++ segment :: after)
    (finished : segment.leadIn.isUnfinished = false)
    (data : segment.leadIn.contents.hasRawData = true) (within : kept ≤ segment.dataLength)
    (continues : following.Continues segment kept) :
    let memory := (before.foldl Memory.enter .blank).enter segment
    ∃ changed, build (.ofBytes (splitAt content segment kept following)) false =
        .ok (changed, none) ∧
      (∀ owner name, (changed.channelAt owner name).type = (catalogue.channelAt owner name).type) ∧
      changed.directory = catalogue.directory ∧
      Walk.stages .blank (scan (.ofBytes (splitAt content segment kept following))).segments =
        Walk.stages .blank before ++ ⟨segment.front kept, memory.owners⟩ ::
          ⟨segment.back kept following, memory.owners⟩ ::
            (Walk.stages memory after).map (Stage.shift leadInLength 1) := by
  obtain ⟨ended, -⟩ := error?_of_strict built
  obtain ⟨segments, closed⟩ := scan_splitAt found ended finished data within total continues
  have folded := foldlM_of_build built
  rw [found] at folded
  obtain ⟨changed, taken, overlay, stages⟩ := foldlM_split folded within continues
  rw [← segments] at taken stages
  have rebuilt : build (.ofBytes (splitAt content segment kept following)) false =
      .ok (changed, none) := by
    rw [build_of_taken taken, closed]
  refine ⟨changed, rebuilt, fun owner name => ?_, ?_, stages⟩
  · have first := (Tracks.of_build built).typed
    have second := (Tracks.of_build rebuilt).typed
    exact (overlay.type_eq .empty first second owner name).trans Option.none_or
  · rw [directory_of_build rebuilt, directory_of_build built, segments, found, Walk.records_parts]

/-- Where raw data is cut into segments makes no difference. If a segment of a file keeps the first
bytes of its raw data, whole chunks or records, and the rest goes on behind a lead-in that brings no
metadata, the file opens as before and all its channels read as before. -/
theorem File.splits {file : File} (opened : File.ofBytes content false = .ok file)
    (total : leadInLength + content.size < UInt64.size) {stage : Stage}
    (listed : stage ∈ Walk.stages .blank (scan (.ofBytes content)).segments)
    (finished : stage.segment.leadIn.isUnfinished = false)
    (data : stage.segment.leadIn.contents.hasRawData = true)
    (within : kept ≤ stage.segment.dataLength) (whole : Walk.roundSize stage.shares ∣ kept)
    (continues : following.Continues stage.segment kept) :
    ∃ other, File.ofBytes (splitAt content stage.segment kept following) false = .ok other ∧
      file.Matches other := by
  obtain ⟨segment, owners⟩ := stage
  dsimp only at finished data within continues
  obtain ⟨source, built⟩ := File.of_ofBytes opened
  obtain ⟨before, after, found, active⟩ := Walk.exists_of_mem_stages listed
  dsimp only at found active ⊢
  subst active
  obtain ⟨changed, rebuilt, types, directory, stages⟩ :=
    Catalogue.build_splitAt built total found finished data within continues
  have tracks := Catalogue.Tracks.of_build built
  have also := Catalogue.Tracks.of_build rebuilt
  have inside := endOffset_le_of_scan content
  have ends := endOffset_le_of_scan (splitAt content segment kept following)
  rw [found, Walk.stages_append, Walk.stages] at tracks inside
  rw [stages] at also ends
  obtain ⟨blocks, moved⟩ := Walk.blocks_parts whole within continues
    (Walk.stages .blank before)
    (Walk.stages ((before.foldl Memory.enter .blank).enter segment) after)
  have alike : ∀ owner name, List.Forall₂
      (Piece.Alike content (splitAt content segment kept following))
      (file.catalogue.channelAt owner name).pieces (changed.channelAt owner name).pieces := by
    intro owner name
    refine tracks.pieces_alike also (types owner name) blocks moved (fun block early => ?_)
      fun block late => ?_
    · refine window_early found within (tracks.filled_of_mem ?_) early
      rw [blocks]
      exact List.mem_append_left _ early
    · obtain ⟨filled, bound⟩ := tracks.block_le inside (blocks ▸ List.mem_append_right _ late)
      exact window_late found within filled late bound
  refine ⟨⟨.ofBytes (splitAt content segment kept following), changed, none⟩, ?_,
    .of_alike source rfl tracks also inside ends directory types alike⟩
  rw [File.ofBytes, File.ofSource, rebuilt]

/-- A file with two chunks of one number each. -/
def chunksFile : ByteArray :=
  ⟨#[84, 68, 83, 109, 14, 0, 0, 0, 105, 18, 0, 0, 44, 0, 0, 0, 0, 0, 0, 0, 40, 0, 0, 0, 0, 0, 0, 0,
    1, 0, 0, 0,
    8, 0, 0, 0, 47, 39, 103, 39, 47, 39, 97, 39, 20, 0, 0, 0, 2, 0, 0, 0, 1, 0, 0, 0,
    1, 0, 0, 0, 0, 0, 0, 0, 0, 0, 0, 0, 7, 0, 8, 0]⟩

/-- The lead-in of a segment of two bytes of raw data. -/
def chunkLeadIn : LeadIn :=
  { contents := ⟨0x08⟩, version := 4713, nextSegmentOffset := 2, rawDataOffset := 0 }

theorem File.splits_sample :
    ∃ file stage other, File.ofBytes chunksFile false = .ok file ∧
      leadInLength + chunksFile.size < UInt64.size ∧
      stage ∈ Walk.stages .blank (scan (.ofBytes chunksFile)).segments ∧
      stage.segment.leadIn.isUnfinished = false ∧
      stage.segment.leadIn.contents.hasRawData = true ∧ 2 ≤ stage.segment.dataLength ∧
      Walk.roundSize stage.shares ∣ 2 ∧ chunkLeadIn.Continues stage.segment 2 ∧
      File.ofBytes (splitAt chunksFile stage.segment 2 chunkLeadIn) false = .ok other ∧
      file.Matches other := by
  have opens : (File.ofBytes chunksFile false).toOption.isSome = true := by decide +kernel
  have total : leadInLength + chunksFile.size < UInt64.size := by decide +kernel
  have stages : ∃ stage ∈ Walk.stages .blank (scan (.ofBytes chunksFile)).segments,
      stage.segment.leadIn.isUnfinished = false ∧
        stage.segment.leadIn.contents.hasRawData = true ∧ 2 ≤ stage.segment.dataLength ∧
        Walk.roundSize stage.shares ∣ 2 ∧ chunkLeadIn.Continues stage.segment 2 := by
    decide +kernel
  obtain ⟨file, opened⟩ := Outcome.exists_of_isSome opens
  obtain ⟨stage, listed, finished, data, within, whole, continues⟩ := stages
  obtain ⟨other, reopened, same⟩ :=
    File.splits opened total listed finished data within whole continues
  exact ⟨file, stage, other, opened, total, listed, finished, data, within, whole, continues,
    reopened, same⟩

end Tdms
