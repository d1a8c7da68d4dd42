import Mathlib
import Tdms.Proofs.Catalogue.Runs

/-!
The invariant of catalogues.

`Consistent` relates the parts of a catalogue that change together: the active
objects, the declared raw data indexes, and the channels with their types,
counts and runs. It holds of the catalogue of any number of segments of a scan,
as `consistent_of_scan` states.
-/

namespace Tdms.Catalogue

open Metadata (RawIndex)
open Walk (Memory Stage)

variable {catalogue : Catalogue}

/-- The parts of a catalogue fit together. -/
structure Consistent (catalogue : Catalogue) : Prop where
  active_distinct : catalogue.active.keys.Nodup
  /-- An active object with raw data is a channel that the file has named, with the type of the
  raw data, and the raw data is what the object declared last. -/
  active_named : ∀ path index, catalogue.active.get? path = some (some index) →
    ∃ owner name channel, path = .channel owner name ∧
      catalogue.channel? owner name = some channel ∧
      catalogue.declared.get? path = some index ∧ channel.type = some index.type
  /-- A channel has a type exactly if it has declared raw data, and then the type of that. -/
  type_iff : ∀ owner name channel, catalogue.channel? owner name = some channel →
    ∀ type, channel.type = some type ↔
      ∃ index, catalogue.declared.get? (.channel owner name) = some index ∧ index.type = type
  count_eq : ∀ owner name channel, catalogue.channel? owner name = some channel →
    channel.sampleCount = (channel.runs.map Run.totalSamples).sum
  typed_of_runs : ∀ owner name channel, catalogue.channel? owner name = some channel →
    channel.runs ≠ [] → channel.type.isSome
  group_named : ∀ key group, (key, group) ∈ catalogue.groups.entries → group.name = key
  channel_named : ∀ key group, (key, group) ∈ catalogue.groups.entries →
    ∀ name channel, (name, channel) ∈ group.channels.entries →
      channel.name = name ∧ channel.path = (ObjectPath.channel key name).render
  /-- A channel has at most one run in each segment, and later segments have later runs. -/
  runs_ordered : ∀ owner name channel, catalogue.channel? owner name = some channel →
    channel.runs.Pairwise fun before after =>
      before.segment < after.segment ∧ before.offset < after.offset
  runs_shaped : ∀ owner name channel, catalogue.channel? owner name = some channel →
    ∀ type, channel.type = some type → ∀ run ∈ channel.runs, run.Shaped type

theorem segments_stages (memory : Memory) (segments : List Segment) :
    (Walk.stages memory segments).map Stage.segment = segments := by
  induction segments generalizing memory with
  | nil => rfl
  | cons segment rest ih => rw [Walk.stages, List.map_cons, ih]

theorem mem_of_mem_stages {memory : Memory} {segments : List Segment} {stage : Stage}
    (listed : stage ∈ Walk.stages memory segments) : stage.segment ∈ segments := by
  rw [← segments_stages memory segments]
  exact List.mem_map_of_mem listed

namespace Tracks

variable {memory : Memory} {stages : List Stage} {owner name : String} {run : Run}

/-- A run of a channel lies in the raw data of one stage and has the shape of the channel's
type. -/
theorem of_mem_runs (tracks : catalogue.Tracks memory stages)
    (listed : run ∈ (catalogue.channelAt owner name).runs) :
    ∃ stage ∈ stages, ∃ type, (catalogue.channelAt owner name).type = some type ∧
      run ∈ stage.runsAt (.channel owner name) ∧ run.Shaped type ∧ run.Within stage.segment := by
  rw [tracks.runs_eq] at listed
  obtain ⟨stage, member, inside⟩ := List.mem_flatMap.1 listed
  obtain ⟨index, owned, shaped, within⟩ := (tracks.sound stage member).shaped_of_mem_runsAt inside
  obtain ⟨group, channel, here, typed⟩ := tracks.owners_typed stage member _ owned
  obtain ⟨rfl, rfl⟩ := ObjectPath.channel.inj here
  exact ⟨stage, member, index.type, typed, inside, shaped, within⟩

theorem runs_pairwise (tracks : catalogue.Tracks memory stages)
    (ordered : stages.Pairwise fun before after =>
      before.segment.ordinal < after.segment.ordinal ∧
        before.segment.endOffset < after.segment.dataOffset) (owner name : String) :
    (catalogue.channelAt owner name).runs.Pairwise fun before after =>
      before.segment < after.segment ∧ before.offset < after.offset := by
  have start : ∀ stage ∈ stages, ∀ run ∈ stage.runsAt (.channel owner name),
      run.segment = stage.segment.ordinal ∧ stage.segment.dataOffset ≤ run.offset ∧
        run.offset ≤ stage.segment.endOffset := by
    intro stage member run inside
    obtain ⟨index, -, shaped, within⟩ := (tracks.sound stage member).shaped_of_mem_runsAt inside
    have first := within.inside 0 shaped.chunks_pos
    unfold Run.chunkOffset at first
    exact ⟨within.segment_eq, by omega, by omega⟩
  rw [tracks.runs_eq, List.pairwise_flatMap]
  constructor
  · intro stage member
    have single := (tracks.sound stage member).length_runsAt_le (.channel owner name)
    rcases runs : stage.runsAt (.channel owner name) with - | ⟨run, rest⟩
    · exact .nil
    · rw [runs, List.length_cons] at single
      obtain rfl : rest = [] := List.eq_nil_of_length_eq_zero (by omega)
      exact List.pairwise_singleton _ run
  · refine ordered.imp_of_mem fun early late apart run before other after => ?_
    have runStart := start _ early run before
    have otherStart := start _ late other after
    omega

/-- A catalogue that tracks stages in the order of a file is consistent. -/
theorem consistent (tracks : catalogue.Tracks memory stages)
    (ordered : stages.Pairwise fun before after =>
      before.segment.ordinal < after.segment.ordinal ∧
        before.segment.endOffset < after.segment.dataOffset) :
    catalogue.Consistent where
  active_distinct := tracks.typed.active_distinct
  active_named path index active := by
    have declared := tracks.typed.active_declared path index active
    obtain ⟨owner, name, rfl⟩ := tracks.typed.declared_channel path index declared
    have typed := tracks.typed.type_of_declared declared
    exact ⟨owner, name, _, rfl, channel?_of_type typed, declared, typed⟩
  type_iff owner name channel found type := by
    rw [← channelAt_of_channel? found, tracks.typed.type_eq, Option.map_eq_some_iff]
  count_eq owner name channel found := by
    rw [← channelAt_of_channel? found]
    exact tracks.count_eq owner name
  typed_of_runs owner name channel found some := by
    rw [← channelAt_of_channel? found] at some ⊢
    obtain ⟨run, listed⟩ := List.exists_mem_of_ne_nil _ some
    obtain ⟨stage, -, type, typed, -⟩ := tracks.of_mem_runs listed
    rw [typed]
    rfl
  group_named key group listed :=
    (tracks.named.group_named key group
      ((OrderedMap.get?_eq_some_iff tracks.named.distinct).2 listed)).name_eq
  channel_named key group listed name channel inside := by
    have named := tracks.named.group_named key group
      ((OrderedMap.get?_eq_some_iff tracks.named.distinct).2 listed)
    obtain ⟨owner, same⟩ := named.channel_named name channel
      ((OrderedMap.get?_eq_some_iff named.distinct).2 inside)
    refine ⟨same, ?_⟩
    rw [Channel.path, owner, same]
  runs_ordered owner name channel found := by
    rw [← channelAt_of_channel? found]
    exact tracks.runs_pairwise ordered owner name
  runs_shaped owner name channel found type typed run listed := by
    rw [← channelAt_of_channel? found] at typed listed
    obtain ⟨stage, -, other, known, -, shaped, -⟩ := tracks.of_mem_runs listed
    obtain rfl := Option.some.inj (typed.symm.trans known)
    exact shaped

end Tracks

/-- The stages of a scan follow each other in the file. -/
theorem stages_pairwise {source : Source} {offset ordinal : Nat} {segments : List Segment}
    (scanned : Scanned source offset ordinal segments) (memory : Memory) :
    (Walk.stages memory segments).Pairwise fun before after =>
      before.segment.ordinal < after.segment.ordinal ∧
        before.segment.endOffset < after.segment.dataOffset := by
  have ordered := scanned.pairwise
  rw [← segments_stages memory segments, List.pairwise_map] at ordered
  exact ordered

/-- Whatever bytes a source holds, taking up the first segments of it one after another leaves a
consistent catalogue, as long as none of them is refused. -/
theorem consistent_of_scan {source : Source} {count : Nat}
    (applied : ((scan source).segments.take count).foldlM apply empty = .ok catalogue) :
    catalogue.Consistent :=
  (Tracks.of_scan applied).consistent (stages_pairwise ((scan_scanned source).take count) .blank)

theorem consistent_of_sample :
    ∃ catalogue, ((scan (.ofBytes sampleFile)).segments.take 2).foldlM apply empty =
        .ok catalogue ∧ catalogue.Consistent := by
  have built : (((scan (.ofBytes sampleFile)).segments.take 2).foldlM apply
      empty).toOption.isSome = true := by decide +kernel
  rcases Outcome.exists_of_isSome built with ⟨catalogue, found⟩
  exact ⟨catalogue, found, consistent_of_scan found⟩

end Tdms.Catalogue
