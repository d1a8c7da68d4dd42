import Mathlib
import Tdms.Proofs.Catalogue.Apply
import Tdms.Proofs.Reading

/-!
What an open file names, and what it says about what it names.

`File.Lists` says that every answer about names and properties comes from some
records alone: names stand where the records first give them, and of the values
of a property the last one counts. An open file lists the records of all its
segments, whatever those say about raw data.
-/

namespace Tdms

open Metadata (Record)
open Directory (groupNames channelNames)

variable {source : Source} {recover : Bool} {file : File} {records : List Record}

/-- The records of all segments of a source, in file order. -/
def Walk.allRecords (source : Source) : List Record :=
  (scan source).segments.flatMap Walk.records

/-! ## What records name -/

/-- Some record is about the group or about a channel of it. -/
def NamesGroup (records : List Record) (owner : String) : Prop :=
  ∃ record ∈ records, record.path.group? = some owner

/-- Some record is about the channel. -/
def NamesChannel (records : List Record) (owner name : String) : Prop :=
  ∃ record ∈ records, record.path = .channel owner name

theorem ObjectPath.channelOf?_eq_some_iff {path : ObjectPath} {owner name : String} :
    path.channelOf? owner = some name ↔ path = .channel owner name := by
  cases path with
  | root => simp [channelOf?]
  | group found => simp [channelOf?]
  | channel found other => simp [channelOf?]

theorem mem_groupNames {owner : String} :
    owner ∈ groupNames records ↔ NamesGroup records owner := by
  rw [groupNames, List.mem_eraseDups, List.mem_filterMap]
  rfl

theorem mem_channelNames {owner name : String} :
    name ∈ channelNames owner records ↔ NamesChannel records owner name := by
  rw [channelNames, List.mem_eraseDups, List.mem_filterMap]
  simp only [ObjectPath.channelOf?_eq_some_iff]
  rfl

/-- A record about a channel is about its group as well. -/
theorem NamesChannel.group {owner name : String} (named : NamesChannel records owner name) :
    NamesGroup records owner := by
  rcases named with ⟨record, listed, path⟩
  refine ⟨record, listed, ?_⟩
  rw [path]
  rfl

/-! ## What a file lists -/

/-- All that a file answers about names and properties comes from some records. -/
structure File.Lists (file : File) (records : List Record) : Prop where
  groups_eq : file.groups = groupNames records
  groupChannels_eq : ∀ owner, NamesGroup records owner →
    file.groupChannels owner = .ok (channelNames owner records)
  properties : file.properties.Collects (Directory.pairsAt .root records)
  groupProperties : ∀ owner, NamesGroup records owner → ∃ properties,
    file.groupProperties owner = .ok properties ∧
      properties.Collects (Directory.pairsAt (.group owner) records)
  /-- A channel that some record is about is found under its own names. -/
  channel : ∀ owner name, NamesChannel records owner name → ∃ channel,
    file.channel owner name = .ok channel ∧ channel.group = owner ∧ channel.name = name ∧
      channel.properties.Collects (Directory.pairsAt (.channel owner name) records)
  noSuchGroup_iff : ∀ owner name,
    file.channel owner name = .error (.noSuchGroup owner) ↔ ¬ NamesGroup records owner
  noSuchChannel_iff : ∀ owner name,
    file.channel owner name = .error (.noSuchChannel owner name) ↔
      NamesGroup records owner ∧ ¬ NamesChannel records owner name
  unnamed : ∀ owner, ¬ NamesGroup records owner →
    file.groupChannels owner = .error (.noSuchGroup owner) ∧
      file.groupProperties owner = .error (.noSuchGroup owner)

namespace Catalogue

variable {catalogue : Catalogue}

/-- A group is found if a record is about it. -/
theorem group_of_noted (noted : catalogue.directory = records.foldl Directory.note .blank)
    {owner : String} (named : NamesGroup records owner) :
    catalogue.group owner = .ok (catalogue.groupAt owner) := by
  rw [Directory.foldl_note] at noted
  apply group_of_mem
  rw [noted]
  exact mem_groupNames.2 named

/-- A channel is looked up as the records name it: its group first, then the channel. -/
theorem channel_of_noted (noted : catalogue.directory = records.foldl Directory.note .blank)
    (owner name : String) :
    (¬ NamesGroup records owner ∧ catalogue.channel owner name = .error (.noSuchGroup owner)) ∨
      (NamesGroup records owner ∧ ¬ NamesChannel records owner name ∧
        catalogue.channel owner name = .error (.noSuchChannel owner name)) ∨
      (NamesChannel records owner name ∧
        catalogue.channel owner name = .ok (catalogue.channelAt owner name)) := by
  rw [Directory.foldl_note] at noted
  rw [channel_eq, noted]
  dsimp only
  by_cases grouped : owner ∈ groupNames records
  · rw [if_pos grouped]
    by_cases named : name ∈ channelNames owner records
    · rw [if_pos named]
      exact .inr (.inr ⟨mem_channelNames.1 named, rfl⟩)
    · rw [if_neg named]
      exact .inr (.inl ⟨mem_groupNames.1 grouped, fun is => named (mem_channelNames.2 is), rfl⟩)
  · rw [if_neg grouped]
    exact .inl ⟨fun is => grouped (mem_groupNames.2 is), rfl⟩

theorem propertiesAt_of_noted (noted : catalogue.directory = records.foldl Directory.note .blank)
    (path : ObjectPath) :
    (catalogue.propertiesAt path).Collects (Directory.pairsAt path records) := by
  change (catalogue.directory.properties path).Collects (Directory.pairsAt path records)
  rw [noted, Directory.foldl_note]
  exact OrderedMap.collects_insertAll _

end Catalogue

/-- A file lists the records that its catalogue noted. -/
theorem File.lists_of_noted (named : file.catalogue.Named)
    (noted : file.catalogue.directory = records.foldl Directory.note .blank) :
    file.Lists records where
  groups_eq := by
    rw [Directory.foldl_note] at noted
    rw [File.groups, named.groups_eq, noted]
  groupChannels_eq owner grouped := by
    rw [File.groupChannels, Catalogue.group_of_noted noted grouped]
    change Except.ok ((file.catalogue.groupAt owner).channels.values.map Channel.name) = _
    rw [named.channels_eq, noted, Directory.foldl_note]
  properties := Catalogue.propertiesAt_of_noted noted .root
  groupProperties owner grouped := by
    refine ⟨_, ?_, Catalogue.propertiesAt_of_noted noted (.group owner)⟩
    rw [File.groupProperties, Catalogue.group_of_noted noted grouped]
    rfl
  channel owner name is := by
    rcases Catalogue.channel_of_noted noted owner name with
      ⟨absent, -⟩ | ⟨-, absent, -⟩ | ⟨-, found⟩
    · exact absurd is.group absent
    · exact absurd is absent
    · have names := named.channel (Catalogue.channel?_of_channel found)
      exact ⟨_, found, names.1, names.2,
        Catalogue.propertiesAt_of_noted noted (.channel owner name)⟩
  noSuchGroup_iff owner name := by
    rw [File.channel]
    rcases Catalogue.channel_of_noted noted owner name with
      ⟨absent, found⟩ | ⟨grouped, -, found⟩ | ⟨is, found⟩
    · simp [found, absent]
    · simp [found, grouped]
    · simp [found, is.group]
  noSuchChannel_iff owner name := by
    rw [File.channel]
    rcases Catalogue.channel_of_noted noted owner name with
      ⟨absent, found⟩ | ⟨grouped, other, found⟩ | ⟨is, found⟩
    · simp [found, absent]
    · simp [found, grouped, other]
    · simp [found, is]
  unnamed owner absent := by
    have missing : file.catalogue.group owner = .error (.noSuchGroup owner) := by
      rw [Directory.foldl_note] at noted
      rw [Catalogue.group_eq, noted]
      exact if_neg fun listed => absent (mem_groupNames.1 listed)
    rw [File.groupChannels, File.groupProperties, missing]
    exact ⟨rfl, rfl⟩

/-! ## Open files -/

/-- The metadata of every segment that was taken up can be decoded. -/
theorem Catalogue.decode_of_foldlM {catalogue next : Catalogue} {segments : List Segment}
    (applied : segments.foldlM Catalogue.apply catalogue = .ok next) :
    ∀ segment ∈ segments, ∀ block, segment.metadata = some block →
      Metadata.decode segment.order block.data.toList = .ok (Walk.records segment) := by
  induction segments generalizing catalogue with
  | nil => nofun
  | cons segment rest ih =>
    rcases Outcome.foldlM_cons_eq_ok.1 applied with ⟨middle, first, later⟩
    refine List.forall_mem_cons.2 ⟨fun block present => ?_, ih later⟩
    rcases apply_eq_ok.1 first with ⟨described, recorded, -⟩
    rcases applyMetadata_eq_ok.1 recorded with ⟨absent, -⟩ | ⟨found, records, held, decoded, -⟩
    · rw [absent] at present
      cases present
    · cases held.symm.trans present
      rw [records_of_decode held decoded, decoded]

/-- An open file lists the records of all its segments, in file order: groups and channels where
they are first named, and properties where they are first written with the values that are written
last. A group is missing exactly if no record is about it or a channel of it, and a channel of a
known group exactly if no record is about it. -/
theorem File.lists_of_ofSource (opened : File.ofSource source recover = .ok file) :
    file.catalogue.segmentCount = (scan source).segments.length ∧
      (∀ segment ∈ (scan source).segments, ∀ block, segment.metadata = some block →
        Metadata.decode segment.order block.data.toList = .ok (Walk.records segment)) ∧
      file.Lists (Walk.allRecords source) := by
  rcases File.of_ofSource opened with ⟨-, built⟩
  have applied := Catalogue.foldlM_of_build built
  refine ⟨?_, Catalogue.decode_of_foldlM applied, ?_⟩
  · rw [Catalogue.segmentCount_foldlM applied]
    exact Nat.zero_add _
  · exact File.lists_of_noted (Catalogue.Tracks.of_build built).named
      (Catalogue.directory_of_build built)

theorem File.lists_sample :
    ∃ file, File.ofSource (.ofBytes sampleFile) false = .ok file ∧ file.groups = ["g"] ∧
      file.Lists (Walk.allRecords (.ofBytes sampleFile)) := by
  have opens : (File.ofSource (.ofBytes sampleFile) false).toOption.isSome = true := by
    decide +kernel
  rcases Outcome.exists_of_isSome opens with ⟨file, opened⟩
  have lists := (File.lists_of_ofSource opened).2.2
  have named : groupNames (Walk.allRecords (.ofBytes sampleFile)) = ["g"] := by decide +kernel
  exact ⟨file, opened, lists.groups_eq.trans named, lists⟩

end Tdms
