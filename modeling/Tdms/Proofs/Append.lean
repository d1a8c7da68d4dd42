import Mathlib
import Tdms.Proofs.Catalogue.Append
import Tdms.Proofs.Recovery

/-!
Files appended to files.

Where a file without an unfinished segment is followed by one that starts a new
list of objects, the bytes of both open as one file that holds what either
holds, in this order. `Joins` says what that means; `File.ofBytes_append` states
it, and that the only thing in the way is a channel with two types.
-/

namespace Tdms

open Metadata (Record)
open Walk (Memory Stage Block)

variable {left right : ByteArray} {first second : File}

/-! ## What two files hold -/

namespace File

/-- The names of the channels of a group, none if the file has not named it. -/
def channelNames (file : File) (owner : String) : List String :=
  (file.groupChannels owner).toOption.getD []

/-- The samples of a channel, none if the file has not named it. -/
def samplesAt (file : File) (owner name : String) : Except Error Samples :=
  match file.channel owner name with
  | .ok channel => channel.read file.source
  | .error _ => .ok .void

/-- No channel has two different types in the files. -/
def Agrees (first second : File) : Prop :=
  ∀ owner name earlier later, (first.catalogue.channelAt owner name).type = some earlier →
    (second.catalogue.channelAt owner name).type = some later → earlier = later

/-- The file holds what `first` holds, and behind it what `second` holds. -/
structure Joins (first second both : File) : Prop where
  count_eq : both.catalogue.segmentCount =
    first.catalogue.segmentCount + second.catalogue.segmentCount
  groups_eq : both.groups =
    first.groups ++ second.groups.filter fun group => group ∉ first.groups
  channels_eq : ∀ owner, both.channelNames owner =
    first.channelNames owner ++
      (second.channelNames owner).filter fun name => name ∉ first.channelNames owner
  properties : ∀ path, (both.catalogue.propertiesAt path).Overrides
    (first.catalogue.propertiesAt path) (second.catalogue.propertiesAt path)
  type_eq : ∀ owner name, (both.catalogue.channelAt owner name).type =
    (first.catalogue.channelAt owner name).type.or (second.catalogue.channelAt owner name).type
  runs_eq : ∀ owner name, (both.catalogue.channelAt owner name).runs =
    (first.catalogue.channelAt owner name).runs ++
      (second.catalogue.channelAt owner name).runs.map
        (Run.shift first.source.length first.catalogue.segmentCount)
  /-- A channel of either file is read if it is read in each file that has it, and has the samples
  of the first file before those of the second. -/
  samples : ∀ owner name, name ∈ both.channelNames owner → ∀ earlier later,
    first.samplesAt owner name = .ok earlier → second.samplesAt owner name = .ok later →
    ∃ samples, both.readChannel owner name = .ok samples ∧
      samples.scalars = earlier.scalars ++ later.scalars ∧
      samples.type? = earlier.type?.or later.type?

theorem channelNames_eq {file : File} (named : file.catalogue.Named) (owner : String) :
    file.channelNames owner = file.catalogue.directory.channels owner := by
  by_cases listed : owner ∈ file.catalogue.directory.groups
  · rw [channelNames, groupChannels_of_mem named listed]
    rfl
  · have absent : file.catalogue.groups.get? owner = none := OrderedMap.lookup_eq_none_iff.2 listed
    have none : (file.catalogue.groupAt owner).channels.keys = [] := by
      rw [Catalogue.groupAt, absent]
      rfl
    rw [channelNames, groupChannels, Catalogue.group, absent]
    exact none.symm

theorem samplesAt_eq (file : File) (owner name : String) :
    file.samplesAt owner name = (file.catalogue.channelAt owner name).read file.source := by
  rw [samplesAt]
  cases found : file.channel owner name with
  | ok channel =>
    rw [Catalogue.channelAt_of_channel? (Catalogue.channel?_of_channel found)]
  | error error =>
    have absent : file.catalogue.channel? owner name = none := by
      cases held : file.catalogue.channel? owner name with
      | none => rfl
      | some stored =>
        have listed := Catalogue.mem_channels_of_channel? held
        rw [channel, Catalogue.channel_of_mem listed] at found
        cases found
    rw [Catalogue.channelAt, absent]
    rfl

end File

/-! ## Directories, segments and stages -/

/-- What records name that are noted behind others. -/
theorem Directory.foldl_note_append (records others : List Record) :
    let whole := (records ++ others).foldl note blank
    let first := records.foldl note blank
    let second := others.foldl note blank
    whole.groups = first.groups ++ (second.groups.filter fun group => group ∉ first.groups) ∧
      (∀ owner, whole.channels owner = first.channels owner ++
        (second.channels owner).filter fun name => name ∉ first.channels owner) ∧
      ∀ path,
        (whole.properties path).Overrides (first.properties path) (second.properties path) := by
  simp only [foldl_note, pairsAt, groupNames, channelNames, List.flatMap_append,
    List.filterMap_append]
  exact ⟨OrderedMap.eraseDups_append_filter _ _,
    fun owner => OrderedMap.eraseDups_append_filter _ _,
    fun path => OrderedMap.overrides_insertAll _ _⟩

theorem Segment.Reads.metadata_isSome {source : Source} {offset ordinal next : Nat}
    {segment : Segment} (reads : Segment.Reads source offset ordinal segment next)
    (flag : segment.leadIn.contents.hasMetadata = true) : segment.metadata.isSome := by
  have read := reads.metadata_read
  rw [Segment.readMetadata, if_pos flag] at read
  split at read
  · cases read
  · obtain same := Except.ok.inj read
    rw [← same]
    rfl

namespace Walk

theorem blocks_append_shift (stages others : List Stage) (bytes count : Nat) (path : ObjectPath) :
    ((stages ++ others.map (Stage.shift bytes count)).flatMap Stage.blocks).filter
        (fun block => block.path = path) =
      ((stages.flatMap Stage.blocks).filter fun block => block.path = path) ++
        ((others.flatMap Stage.blocks).filter fun block => block.path = path).map
          (Block.shift bytes) := by
  rw [List.flatMap_append, List.filter_append, blocks_map_shift, List.filter_map]
  rfl

end Walk

namespace Catalogue

variable {catalogue : Catalogue} {memory : Memory} {stages : List Stage}

/-- Behind the runs of a channel in the first stages come those in the moved ones. -/
theorem Tracks.runs_append {early late joined : Catalogue} {before after both : Memory}
    {stages others : List Stage} {bytes count : Nat} (first : early.Tracks before stages)
    (second : late.Tracks after others)
    (tracks : joined.Tracks both (stages ++ others.map (Stage.shift bytes count)))
    (owner name : String) :
    (joined.channelAt owner name).runs = (early.channelAt owner name).runs ++
      (late.channelAt owner name).runs.map (Run.shift bytes count) := by
  rw [tracks.runs_eq, first.runs_eq, second.runs_eq, List.flatMap_append, List.flatMap_map,
    List.map_flatMap]
  congr 2
  funext stage
  exact stage.runsAt_shift _

/-- Behind the blocks that a channel reads in the first bytes it reads those in the second ones. -/
theorem Tracks.read_append {early late joined : Catalogue} {before after both : Memory}
    {stages others : List Stage} {count : Nat} (first : early.Tracks before stages)
    (second : late.Tracks after others)
    (tracks : joined.Tracks both (stages ++ others.map (Stage.shift left.size count)))
    (inside : ∀ stage ∈ stages, stage.segment.endOffset ≤ left.size)
    (within : ∀ stage ∈ others, stage.segment.endOffset ≤ right.size)
    (whole : ∀ stage ∈ stages ++ others.map (Stage.shift left.size count),
      stage.segment.endOffset ≤ (left ++ right).size) {owner name : String}
    {earlier later : Samples}
    (read : (early.channelAt owner name).read (.ofBytes left) = .ok earlier)
    (also : (late.channelAt owner name).read (.ofBytes right) = .ok later) :
    ∃ samples, (joined.channelAt owner name).read (.ofBytes (left ++ right)) = .ok samples ∧
      samples.scalars = earlier.scalars ++ later.scalars := by
  have collected := first.read_eq_collect inside owner name
  have collectedLate := second.read_eq_collect within owner name
  have answer := tracks.read_eq_collect whole owner name
  rw [read] at collected
  rw [also] at collectedLate
  rw [Walk.blocks_append_shift, Outcome.collect_append,
    Outcome.collect_congr fun block listed => ?_, ← collected,
    Outcome.collect_of_map (fun block _ _ => Block.decode_append_right left) collectedLate.symm]
    at answer
  · obtain ⟨samples, taken, scalars⟩ := Outcome.map_eq_ok.1 answer
    exact ⟨samples, taken, scalars⟩
  · obtain ⟨filled, bound⟩ := first.block_le inside (List.mem_filter.1 listed).1
    exact Block.decode_append_left filled bound right

end Catalogue

/-! ## Files -/

/-- The file of appended bytes, if all segments of the second are taken up behind the first. -/
theorem File.joins_of_overlay (opened : File.ofBytes left false = .ok first)
    (also : File.ofBytes right false = .ok second) {joined : Catalogue}
    (segments : (scan (.ofBytes (left ++ right))).segments =
      (scan (.ofBytes left)).segments ++ (scan (.ofBytes right)).segments.map
        (Segment.shift left.size (scan (.ofBytes left)).segments.length))
    (built : Catalogue.build (.ofBytes (left ++ right)) false = .ok (joined, none))
    (overlay : Catalogue.Overlay first.catalogue second.catalogue joined)
    (stages : Walk.stages ((scan (.ofBytes left)).segments.foldl Memory.enter .blank)
        ((scan (.ofBytes right)).segments.map
          (Segment.shift left.size (scan (.ofBytes left)).segments.length)) =
      (Walk.stages .blank (scan (.ofBytes right)).segments).map
        (Stage.shift left.size (scan (.ofBytes left)).segments.length)) :
    File.Joins first second ⟨.ofBytes (left ++ right), joined, none⟩ := by
  obtain ⟨source, builtFirst⟩ := File.of_ofBytes opened
  obtain ⟨sourceSecond, builtSecond⟩ := File.of_ofBytes also
  have early := Catalogue.Tracks.of_build builtFirst
  have late := Catalogue.Tracks.of_build builtSecond
  have tracks := Catalogue.Tracks.of_build built
  have whole := endOffset_le_of_scan (left ++ right)
  rw [segments, Walk.stages_append, stages] at tracks whole
  have counts : first.catalogue.segmentCount = (scan (.ofBytes left)).segments.length :=
    (Catalogue.segmentCount_foldlM (Catalogue.foldlM_of_build builtFirst)).trans (Nat.zero_add _)
  have records : (scan (.ofBytes (left ++ right))).segments.flatMap Walk.records =
      (scan (.ofBytes left)).segments.flatMap Walk.records ++
        (scan (.ofBytes right)).segments.flatMap Walk.records := by
    rw [segments, List.flatMap_append, List.flatMap_map]
    rfl
  obtain ⟨groups, channels, properties⟩ := Directory.foldl_note_append
    ((scan (.ofBytes left)).segments.flatMap Walk.records)
    ((scan (.ofBytes right)).segments.flatMap Walk.records)
  rw [← records, ← Catalogue.directory_of_build built, ← Catalogue.directory_of_build builtFirst,
    ← Catalogue.directory_of_build builtSecond] at groups channels properties
  have types := overlay.type_eq early.typed late.typed tracks.typed
  refine ⟨?_, ?_, fun owner => ?_, properties, types, fun owner name => ?_, ?_⟩
  · change joined.segmentCount = _
    rw [Catalogue.segmentCount_foldlM (Catalogue.foldlM_of_build built),
      Catalogue.segmentCount_foldlM (Catalogue.foldlM_of_build builtSecond), counts, segments,
      List.length_append, List.length_map]
    simp [Catalogue.empty]
  · rw [File.groups, File.groups, File.groups, early.named.groups_eq, late.named.groups_eq]
    exact tracks.named.groups_eq.trans groups
  · rw [channelNames_eq early.named, channelNames_eq late.named, channelNames_eq tracks.named]
    exact channels owner
  · rw [source, counts]
    exact early.runs_append late tracks owner name
  · intro owner name listed earlier later read alsoRead
    rw [samplesAt_eq, source] at read
    rw [samplesAt_eq, sourceSecond] at alsoRead
    rw [channelNames_eq tracks.named] at listed
    obtain ⟨samples, answer, scalars⟩ := early.read_append late tracks (endOffset_le_of_scan left)
      (endOffset_le_of_scan right) whole read alsoRead
    refine ⟨samples, ?_, scalars, ?_⟩
    · rw [readChannel, channel, Catalogue.channel_of_mem listed]
      exact answer
    · rw [(tracks.length_read answer).1, (early.length_read read).1,
        (late.length_read alsoRead).1]
      exact types owner name

/-- A file of which no segment is unfinished, and behind it one whose first segment starts a new
list of objects, open as one file that joins them, or not at all if a channel has two types in them.
The length of a source has 64 bits. -/
theorem File.ofBytes_append (opened : File.ofBytes left false = .ok first)
    (also : File.ofBytes right false = .ok second) (total : left.size + right.size < UInt64.size)
    (finished : ∀ segment ∈ (scan (.ofBytes left)).segments, segment.leadIn.isUnfinished = false)
    {opening : Segment} (starts : (scan (.ofBytes right)).segments.head? = some opening)
    (flag : opening.leadIn.contents.hasMetadata = true)
    (fresh : opening.hasNewObjectList = true) :
    (first.Agrees second →
      ∃ both, File.ofBytes (left ++ right) false = .ok both ∧ first.Joins second both) ∧
    (¬ first.Agrees second →
      ∃ owner name existing found,
        (first.catalogue.channelAt owner name).type = some existing ∧
        (second.catalogue.channelAt owner name).type = some found ∧ existing ≠ found ∧
        File.ofBytes (left ++ right) false =
          .error (.inconsistentType (ObjectPath.channel owner name).render existing found)) := by
  obtain ⟨-, builtFirst⟩ := File.of_ofBytes opened
  obtain ⟨-, builtSecond⟩ := File.of_ofBytes also
  have early := Catalogue.Tracks.of_build builtFirst
  have late := Catalogue.Tracks.of_build builtSecond
  obtain ⟨segments, ended⟩ := scan_append total (Catalogue.error?_of_strict builtFirst).1
    (Catalogue.error?_of_strict builtSecond).1 finished
  obtain ⟨rest, found⟩ := List.head?_eq_some_iff.1 starts
  have present : opening.metadata.isSome := by
    have scanned := scan_scanned (.ofBytes right)
    rw [found] at scanned
    cases scanned with
    | more reads _ => exact reads.metadata_isSome flag
  have folded := Catalogue.foldlM_of_build builtSecond
  rw [found] at folded
  have answer := Catalogue.foldlM_append early.typed early.follows present fresh folded left.size
    (scan (.ofBytes left)).segments.length
  rw [← found] at answer
  have whole : (scan (.ofBytes (left ++ right))).segments.foldlM Catalogue.apply .empty =
      ((scan (.ofBytes right)).segments.map (Segment.shift left.size
        (scan (.ofBytes left)).segments.length)).foldlM Catalogue.apply first.catalogue := by
    rw [segments, List.foldlM_append, Catalogue.foldlM_of_build builtFirst]
    rfl
  rcases answer with ⟨joined, taken, overlay, stages⟩ | clash
  · have built : Catalogue.build (.ofBytes (left ++ right)) false = .ok (joined, none) := by
      rw [Catalogue.build_of_taken (whole.trans taken), ended]
    refine ⟨fun _ => ⟨⟨.ofBytes (left ++ right), joined, none⟩, ?_,
      File.joins_of_overlay opened also segments built overlay stages⟩, fun differ => ?_⟩
    · rw [File.ofBytes, File.ofSource, built]
    · exact absurd (fun _ _ _ _ => overlay.types_agree early.typed late.typed) differ
  · obtain ⟨owner, name, existing, found, before, now, other, refused⟩ := clash
    refine ⟨fun agree => absurd (agree owner name existing found before now) other, fun _ =>
      ⟨owner, name, existing, found, before, now, other, ?_⟩⟩
    rw [File.ofBytes, File.ofSource, Catalogue.build_of_refused (whole.trans refused)]

/-- A file with another number of a channel of the sample file. -/
def numberFile : ByteArray :=
  ⟨#[84, 68, 83, 109, 14, 0, 0, 0, 105, 18, 0, 0, 42, 0, 0, 0, 0, 0, 0, 0, 40, 0, 0, 0, 0, 0, 0, 0,
    1, 0, 0, 0,
    8, 0, 0, 0, 47, 39, 103, 39, 47, 39, 97, 39, 20, 0, 0, 0, 2, 0, 0, 0, 1, 0, 0, 0,
    1, 0, 0, 0, 0, 0, 0, 0, 0, 0, 0, 0, 7, 0]⟩

theorem File.ofBytes_append_sample :
    ∃ first second both opening, File.ofBytes numberFile false = .ok first ∧
      File.ofBytes sampleFile false = .ok second ∧
      numberFile.size + sampleFile.size < UInt64.size ∧
      (∀ segment ∈ (scan (.ofBytes numberFile)).segments, segment.leadIn.isUnfinished = false) ∧
      (scan (.ofBytes sampleFile)).segments.head? = some opening ∧
      opening.leadIn.contents.hasMetadata = true ∧ opening.hasNewObjectList = true ∧
      first.Agrees second ∧
      File.ofBytes (numberFile ++ sampleFile) false = .ok both ∧ first.Joins second both := by
  have opens : (File.ofBytes numberFile false).toOption.isSome = true := by decide +kernel
  have opensBoth : (File.ofBytes (numberFile ++ sampleFile) false).toOption.isSome = true := by
    decide +kernel
  have small : numberFile.size + sampleFile.size < UInt64.size := by decide +kernel
  have finished : ∀ segment ∈ (scan (.ofBytes numberFile)).segments,
      segment.leadIn.isUnfinished = false := by decide +kernel
  have starts : ((scan (.ofBytes sampleFile)).segments.head?.any fun opening =>
      opening.leadIn.contents.hasMetadata && opening.hasNewObjectList) = true := by decide +kernel
  have opensSample : (File.ofBytes sampleFile false).toOption.isSome = true := by decide +kernel
  obtain ⟨first, opened⟩ := Outcome.exists_of_isSome opens
  obtain ⟨second, also⟩ := Outcome.exists_of_isSome opensSample
  obtain ⟨joined, opensAll⟩ := Outcome.exists_of_isSome opensBoth
  obtain ⟨opening, head, flags⟩ := (Option.any_eq_true _ _).1 starts
  obtain ⟨flag, fresh⟩ := Bool.and_eq_true_iff.1 flags
  obtain ⟨joins, refuses⟩ := File.ofBytes_append opened also small finished head flag fresh
  have agree : first.Agrees second := by
    by_contra differ
    obtain ⟨_, _, _, _, -, -, -, refused⟩ := refuses differ
    rw [opensAll] at refused
    cases refused
  obtain ⟨both, openedBoth, joined⟩ := joins agree
  exact ⟨first, second, both, opening, opened, also, small, finished, head, flag, fresh, agree,
    openedBoth, joined⟩

end Tdms
