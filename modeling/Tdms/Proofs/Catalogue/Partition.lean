import Mathlib
import Tdms.Proofs.Blocks
import Tdms.Proofs.Catalogue.Consistent

/-!
Which bytes of a file its channels own.

`Partitions` says that every chunk of every run lies in the raw data of the
segment that the run names, that no byte belongs to two pieces, and that the
pieces in a segment cover its whole rounds, but for strings that hold nothing.
`partitions_of_build` states it of every catalogue that is built.
-/

namespace Tdms

open Metadata (RawIndex)
open Walk (Memory Stage Block)

/-- The pieces of all runs of a channel. -/
def Channel.pieces (channel : Channel) : List Piece :=
  match channel.type with
  | some type => channel.runs.flatMap (Run.pieces type)
  | none => []

namespace Catalogue

variable {catalogue : Catalogue}

/-- All channels, group by group. -/
def channels (catalogue : Catalogue) : List Channel :=
  catalogue.groups.values.flatMap fun group => group.channels.values

/-- The channels of a catalogue own the bytes of `segments` without overlap, and leave out only
what belongs to nobody. -/
structure Partitions (catalogue : Catalogue) (segments : List Segment) : Prop where
  inside : ∀ channel ∈ catalogue.channels, ∀ run ∈ channel.runs,
    ∃ segment, segments[run.segment]? = some segment ∧
      ∀ chunk < run.chunkCount, segment.dataOffset ≤ run.chunkOffset chunk ∧
        run.chunkOffset chunk + run.byteLength ≤ segment.dataOffset + segment.dataLength
  apart : (catalogue.channels.flatMap Channel.pieces).Pairwise Piece.Apart
  covered : ∀ ordinal stage, (Walk.stages .blank segments)[ordinal]? = some stage →
    ∀ position,
      (∃ channel ∈ catalogue.channels, ∃ type, channel.type = some type ∧
        ∃ run ∈ channel.runs, run.segment = ordinal ∧
          ∃ piece ∈ run.pieces type, piece.Holds position) ↔
      stage.segment.dataOffset ≤ position ∧
        position < stage.segment.dataOffset + stage.rounds * Walk.roundSize stage.shares ∧
        ¬ ∃ block ∈ stage.blocks, block.type = .string ∧ block.count = 0 ∧ block.Holds position

/-! ## All channels -/

section

variable (named : catalogue.Named)
include named

theorem mem_channels_iff {channel : Channel} :
    channel ∈ catalogue.channels ↔
      ∃ owner name, catalogue.channel? owner name = some channel := by
  rw [channels, List.mem_flatMap]
  constructor
  · rintro ⟨group, listed, inside⟩
    obtain ⟨⟨owner, _⟩, member, rfl⟩ := List.mem_map.1 listed
    obtain ⟨⟨name, _⟩, held, rfl⟩ := List.mem_map.1 inside
    have found := (OrderedMap.get?_eq_some_iff named.distinct).2 member
    have names := named.group_named owner _ found
    refine ⟨owner, name, ?_⟩
    rw [channel?, found, Option.bind_some]
    exact (OrderedMap.get?_eq_some_iff names.distinct).2 held
  · rintro ⟨owner, name, found⟩
    obtain ⟨group, listed, inside⟩ := Option.bind_eq_some_iff.1 found
    exact ⟨group, List.mem_map_of_mem (OrderedMap.mem_of_lookup_eq_some listed),
      List.mem_map_of_mem (OrderedMap.mem_of_lookup_eq_some inside)⟩

/-- A listed channel is the one under its own names. -/
theorem eq_channelAt_of_mem {channel : Channel} (listed : channel ∈ catalogue.channels) :
    channel = catalogue.channelAt channel.group channel.name := by
  obtain ⟨owner, name, found⟩ := (mem_channels_iff named).1 listed
  obtain ⟨rfl, rfl⟩ := named.channel found
  exact (channelAt_of_channel? found).symm

theorem channels_pairwise :
    catalogue.channels.Pairwise fun first second =>
      ObjectPath.channel first.group first.name ≠ .channel second.group second.name := by
  have own : ∀ entry ∈ catalogue.groups.entries, entry.2.channels.keys.Nodup ∧
      ∀ held ∈ entry.2.channels.entries, held.2.group = entry.1 ∧ held.2.name = held.1 := by
    intro entry listed
    have names := named.group_named entry.1 entry.2
      ((OrderedMap.get?_eq_some_iff named.distinct).2 listed)
    exact ⟨names.distinct, fun held inside => names.channel_named held.1 held.2
      ((OrderedMap.get?_eq_some_iff names.distinct).2 inside)⟩
  have apart := named.distinct
  rw [OrderedMap.keys, List.nodup_iff_pairwise_ne, List.pairwise_map] at apart
  rw [channels, OrderedMap.values, List.flatMap_map, List.pairwise_flatMap]
  constructor
  · intro entry listed
    obtain ⟨distinct, names⟩ := own entry listed
    rw [OrderedMap.keys, List.nodup_iff_pairwise_ne, List.pairwise_map] at distinct
    rw [OrderedMap.values, List.pairwise_map]
    refine distinct.imp_of_mem fun {first second} early late other same => other ?_
    rw [← (names first early).2, ← (names second late).2]
    exact (ObjectPath.channel.inj same).2
  · refine apart.imp_of_mem fun {first second} early late other one before two after same => ?_
    obtain ⟨held, inside, rfl⟩ := List.mem_map.1 before
    obtain ⟨kept, within, rfl⟩ := List.mem_map.1 after
    apply other
    rw [← ((own first early).2 held inside).1, ← ((own second late).2 kept within).1]
    exact (ObjectPath.channel.inj same).1

end

/-! ## Channels and blocks -/

theorem getElem?_stages {memory : Memory} {segments : List Segment} {position : Nat}
    {stage : Stage} (found : (Walk.stages memory segments)[position]? = some stage) :
    segments[position]? = some stage.segment := by
  rw [← segments_stages memory segments, List.getElem?_map, found]
  rfl

/-- The blocks of stages in the order of a file follow each other. -/
theorem blocks_pairwise {stages : List Stage}
    (ordered : stages.Pairwise fun before after =>
      before.segment.ordinal < after.segment.ordinal ∧
        before.segment.endOffset < after.segment.dataOffset) :
    (stages.flatMap Stage.blocks).Pairwise fun before after =>
      before.offset + before.size ≤ after.offset := by
  rw [List.pairwise_flatMap]
  refine ⟨fun stage _ => stage.tiles.pairwise, ordered.imp fun apart one before two after => ?_⟩
  have stop := Stage.bounds_of_mem before
  have start := Stage.bounds_of_mem after
  omega

namespace Tracks

variable {memory : Memory} {stages : List Stage} (tracks : catalogue.Tracks memory stages)
include tracks

theorem filled_of_mem {block : Block} (listed : block ∈ stages.flatMap Stage.blocks) :
    block.Filled := by
  obtain ⟨stage, member, inside⟩ := List.mem_flatMap.1 listed
  exact (tracks.sound stage member).filled (Stage.share_of_mem_blocks inside)

/-- The blocks of a catalogue lie inside content that its segments end inside. -/
theorem block_le {content : ByteArray}
    (inside : ∀ stage ∈ stages, stage.segment.endOffset ≤ content.size) {block : Block}
    (listed : block ∈ stages.flatMap Stage.blocks) :
    block.Filled ∧ block.offset + block.size ≤ content.size := by
  refine ⟨tracks.filled_of_mem listed, ?_⟩
  obtain ⟨stage, member, held⟩ := List.mem_flatMap.1 listed
  exact (Stage.bounds_of_mem held).2.trans (inside stage member)

/-- The pieces of a channel are among those of its blocks. -/
theorem pieces_sublist {channel : Channel} (listed : channel ∈ catalogue.channels) :
    channel.pieces.Sublist
      (((stages.flatMap Stage.blocks).filter fun block =>
        block.path = .channel channel.group channel.name).flatMap Block.pieces) := by
  unfold Channel.pieces
  cases typed : channel.type with
  | none => exact List.nil_sublist _
  | some type =>
    have here := eq_channelAt_of_mem tracks.named listed
    rw [here] at typed
    have same := tracks.pieces_eq typed
    rw [← here] at same
    dsimp only
    rw [same]
    exact List.filter_sublist

/-- A stage has the same pieces with samples in the runs of channels and in its blocks. -/
theorem exists_piece_iff {stage : Stage} (member : stage ∈ stages)
    (ordered : stages.Pairwise fun before after =>
      before.segment.ordinal < after.segment.ordinal ∧
        before.segment.endOffset < after.segment.dataOffset) (holds : Piece → Prop) :
    (∃ channel ∈ catalogue.channels, ∃ type, channel.type = some type ∧
      ∃ run ∈ channel.runs, run.segment = stage.segment.ordinal ∧
        ∃ piece ∈ run.pieces type, holds piece) ↔
      ∃ block ∈ stage.blocks, ∃ piece ∈ block.pieces, 0 < piece.count ∧ holds piece := by
  have sound := tracks.sound stage member
  constructor
  · rintro ⟨channel, listed, type, typed, run, held, here, piece, inside, good⟩
    rw [eq_channelAt_of_mem tracks.named listed] at typed held
    obtain ⟨other, among, known, same, owned, -, within⟩ := tracks.of_mem_runs held
    obtain rfl := Option.some.inj (typed.symm.trans same)
    obtain rfl : other = stage := by
      by_contra different
      have number := within.segment_eq.symm.trans here
      rcases related_of_pairwise ordered among member different with before | after
      · exact before.1.ne number
      · exact after.1.ne number.symm
    have expanded := sound.pieces_runsAt fun index mine =>
      tracks.type_of_owner member mine typed
    have listed : piece ∈ (other.runsAt (.channel channel.group channel.name)).flatMap
        (Run.pieces type) := List.mem_flatMap.2 ⟨run, owned, inside⟩
    rw [expanded, List.mem_filter] at listed
    obtain ⟨block, filtered, part⟩ := List.mem_flatMap.1 listed.1
    exact ⟨block, (List.mem_filter.1 filtered).1, piece, part, of_decide_eq_true listed.2, good⟩
  · rintro ⟨block, listed, piece, inside, counted, good⟩
    obtain ⟨owner, owns, owned⟩ := List.mem_filterMap.1 (Stage.share_of_mem_blocks listed)
    obtain ⟨group, name, path, typed⟩ := tracks.owners_typed stage member owner owns
    have here : block.path = .channel group name := (Walk.path_of_share? owned).trans path
    have expanded := sound.pieces_runsAt fun index mine =>
      tracks.type_of_owner member mine typed
    have among : piece ∈
        (stage.runsAt (.channel group name)).flatMap (Run.pieces owner.2.type) := by
      rw [expanded, List.mem_filter]
      exact ⟨List.mem_flatMap.2 ⟨block, List.mem_filter.2 ⟨listed, decide_eq_true here⟩, inside⟩,
        decide_eq_true counted⟩
    obtain ⟨run, held, part⟩ := List.mem_flatMap.1 among
    obtain ⟨-, -, -, within⟩ := sound.shaped_of_mem_runsAt held
    refine ⟨catalogue.channelAt group name, ?_, owner.2.type, typed, run, ?_, within.segment_eq,
      piece, part, good⟩
    · exact (mem_channels_iff tracks.named).2 ⟨group, name, channel?_of_type typed⟩
    · rw [tracks.runs_eq]
      exact List.mem_flatMap.2 ⟨stage, member, held⟩

/-- A catalogue that tracks the stages of segments in the order of a file partitions their
bytes. -/
theorem partitions {segments : List Segment} (same : stages = Walk.stages .blank segments)
    (numbered : ∀ (position : Nat) (segment : Segment), segments[position]? = some segment →
      segment.ordinal = position)
    (ordered : stages.Pairwise fun before after =>
      before.segment.ordinal < after.segment.ordinal ∧
        before.segment.endOffset < after.segment.dataOffset) :
    catalogue.Partitions segments where
  inside channel listed run held := by
    rw [eq_channelAt_of_mem tracks.named listed] at held
    obtain ⟨stage, member, -, -, -, -, within⟩ := tracks.of_mem_runs held
    rw [same] at member
    obtain ⟨position, found⟩ := List.getElem?_of_mem member
    have segment := getElem?_stages found
    refine ⟨stage.segment, ?_, within.inside⟩
    rwa [within.segment_eq, numbered position stage.segment segment]
  apart := by
    have blocks := blocks_pairwise ordered
    rw [List.pairwise_flatMap]
    constructor
    · intro channel listed
      refine List.Pairwise.sublist (tracks.pieces_sublist listed) ?_
      rw [List.pairwise_flatMap]
      refine ⟨fun block _ => block.pieces_pairwise, ?_⟩
      refine (blocks.sublist List.filter_sublist).imp_of_mem fun early late before => ?_
      exact Block.pieces_apart (tracks.filled_of_mem (List.mem_of_mem_filter early))
        (tracks.filled_of_mem (List.mem_of_mem_filter late)) before
    · refine (channels_pairwise tracks.named).imp_of_mem ?_
      intro first second early late other one mine two yours
      rcases List.mem_flatMap.1 ((tracks.pieces_sublist early).subset mine) with
        ⟨block, owned, inside⟩
      rcases List.mem_flatMap.1 ((tracks.pieces_sublist late).subset yours) with
        ⟨next, taken, within⟩
      rcases List.mem_filter.1 owned with ⟨listed, path⟩
      rcases List.mem_filter.1 taken with ⟨member, place⟩
      have different : block ≠ next := by
        intro equal
        rw [equal] at path
        exact other ((of_decide_eq_true path).symm.trans (of_decide_eq_true place))
      have whole := tracks.filled_of_mem listed
      have full := tracks.filled_of_mem member
      rcases related_of_pairwise blocks listed member different with before | after
      · exact Block.pieces_apart whole full before one inside two within
      · exact (Block.pieces_apart full whole after two within one inside).symm
  covered ordinal stage found position := by
    have member : stage ∈ stages := same ▸ List.mem_of_getElem? found
    have number := numbered ordinal stage.segment (getElem?_stages found)
    have filled : ∀ block ∈ stage.blocks, block.Filled := fun block listed =>
      tracks.filled_of_mem (List.mem_flatMap.2 ⟨stage, member, listed⟩)
    rw [← number, tracks.exists_piece_iff member ordered fun piece => piece.Holds position,
      ← and_assoc, ← stage.tiles.holds_iff position]
    constructor
    · intro held
      rcases held with ⟨block, listed, some⟩
      rcases (Block.holds_pieces_iff (filled block listed) position).1 some with ⟨here, full⟩
      refine ⟨⟨block, listed, here⟩, fun empty => ?_⟩
      rcases empty with ⟨other, among, text, none, there⟩
      have equal := stage.tiles.eq_of_holds among listed there here
      rw [equal] at text none
      exact full ⟨text, none⟩
    · intro held
      rcases held with ⟨⟨block, listed, here⟩, full⟩
      refine ⟨block, listed, (Block.holds_pieces_iff (filled block listed) position).2 ⟨here, ?_⟩⟩
      intro empty
      exact full ⟨block, listed, empty.1, empty.2, here⟩

end Tracks

/-- The channels of every catalogue that is built own the bytes of the segments without overlap.
They leave out the bytes after the last whole round, and those declared for no strings. -/
theorem partitions_of_build {source : Source} {recover : Bool} {stop : Option Nat}
    (built : build source recover = .ok (catalogue, stop)) :
    catalogue.Partitions (scan source).segments := by
  have scanned := scan_scanned source
  refine (Tracks.of_build built).partitions rfl ?_ (stages_pairwise scanned .blank)
  intro position segment found
  exact (scanned.ordinal_of_getElem? found).trans (Nat.zero_add position)

theorem partitions_of_sample :
    ∃ catalogue stop, build (.ofBytes sampleFile) false = .ok (catalogue, stop) ∧
      catalogue.Partitions (scan (.ofBytes sampleFile)).segments := by
  have built : (build (.ofBytes sampleFile) false).toOption.isSome = true := by decide +kernel
  rcases Outcome.exists_of_isSome built with ⟨⟨catalogue, stop⟩, found⟩
  exact ⟨catalogue, stop, found, partitions_of_build found⟩

end Catalogue

end Tdms
