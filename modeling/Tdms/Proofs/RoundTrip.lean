import Mathlib
import Tdms.Proofs.Catalogue.Directory
import Tdms.Proofs.Draft.Columns

/-!
Files that were written from drafts are read back.

`Draft.Restored` says that an open file holds what its drafts hold: the names in
the order in which the drafts first write them, the properties of every object
with later values over earlier ones, and all values of every channel. A file of
well-formed drafts whose numbers fit their fields opens, and is restored.
-/

namespace Tdms

open Metadata (RawIndex Record)
open Walk (Memory Stage)

namespace Draft

variable {drafts : List Draft} {memory : Memory}

/-! ## What drafts hold -/

/-- The objects that drafts list, in order. -/
def allListed (drafts : List Draft) : List Object :=
  drafts.flatMap listed

/-- The groups that drafts name, in the order in which they first name them. -/
def groupNames (drafts : List Draft) : List String :=
  ((allListed drafts).filterMap fun object => object.path.group?).eraseDups

/-- The channels of a group that drafts name, in the order in which they first name them. -/
def channelNames (owner : String) (drafts : List Draft) : List String :=
  ((allListed drafts).filterMap fun object => object.path.channelOf? owner).eraseDups

/-- The properties that drafts write to the object at `path`, in order. -/
def allPairs (path : ObjectPath) (drafts : List Draft) : List (String × Property) :=
  (allListed drafts).flatMap fun object => if object.path = path then object.properties else []

/-- The type that the object at `path` declares last, if it ever declares one. -/
def typeAt (path : ObjectPath) (drafts : List Draft) : Option ScalarType :=
  ((drafts.foldl enter Memory.blank).latest path).map RawIndex.type

/-- What an open file answers with if it holds what its drafts hold. -/
structure Restored (drafts : List Draft) (file : File) : Prop where
  complete : file.truncatedAt = none
  groups : file.groups = groupNames drafts
  groupChannels : ∀ owner ∈ groupNames drafts,
    file.groupChannels owner = .ok (channelNames owner drafts)
  properties : file.properties.Collects (allPairs .root drafts)
  groupProperties : ∀ owner ∈ groupNames drafts, ∃ properties,
    file.groupProperties owner = .ok properties ∧
      properties.Collects (allPairs (.group owner) drafts)
  channelProperties : ∀ owner, ∀ name ∈ channelNames owner drafts, ∃ properties,
    file.channelProperties owner name = .ok properties ∧
      properties.Collects (allPairs (.channel owner name) drafts)
  readChannel : ∀ owner, ∀ name ∈ channelNames owner drafts, ∃ samples,
    file.readChannel owner name = .ok samples ∧
      samples.type? = typeAt (.channel owner name) drafts ∧
      samples.scalars = allWritten (.channel owner name) .blank drafts

/-! ## Writing -/

theorem length_le_file {draft : Draft} (member : draft ∈ drafts) :
    draft.bytes.length ≤ (file drafts).size := by
  rw [size_of_toList (toList_file drafts), List.length_flatMap]
  exact List.single_le_sum (fun _ _ => Nat.zero_le _) _ (List.mem_map_of_mem member)

theorem flagged_of_fitsAll (fits : FitsAll memory drafts) :
    ∀ draft ∈ drafts, draft.contents.hasRawData = false → draft.rounds = [] := by
  induction drafts generalizing memory with
  | nil => nofun
  | cons draft rest ih =>
    rcases fits with ⟨first, others⟩
    exact List.forall_mem_cons.2 ⟨first.flagged, ih others⟩

theorem WellFormed.writable (wellFormed : WellFormed drafts) :
    ∀ draft ∈ drafts, draft.Writable := by
  intro draft member
  have short := wellFormed.short
  have part := length_le_file member
  rw [length_bytes, leadInLength] at part
  refine ⟨by omega, fun flag => ?_⟩
  rw [dataBytes, flagged_of_fitsAll wellFormed.fits draft member flag, List.flatMap_nil]

/-! ## Metadata -/

theorem flatMap_records (fits : FitsAll memory drafts)
    (encodable : ∀ draft ∈ drafts, draft.Encodable) (ordinal offset : Nat) :
    (segmentsFrom ordinal offset drafts).flatMap Walk.records =
      (allListed drafts).map Object.record := by
  induction drafts generalizing memory ordinal offset with
  | nil => rfl
  | cons draft rest ih =>
    rcases fits with ⟨first, others⟩
    rcases List.forall_mem_cons.1 encodable with ⟨encodes, encodeRest⟩
    rw [segmentsFrom, List.flatMap_cons, ih others encodeRest, records_segmentAt first encodes,
      records_eq, allListed, allListed, List.flatMap_cons, List.map_append]

theorem foldl_enter (fits : FitsAll memory drafts)
    (encodable : ∀ draft ∈ drafts, draft.Encodable) (ordinal offset : Nat) :
    (segmentsFrom ordinal offset drafts).foldl Memory.enter memory =
      drafts.foldl enter memory := by
  induction drafts generalizing memory ordinal offset with
  | nil => rfl
  | cons draft rest ih =>
    rcases fits with ⟨first, others⟩
    rcases List.forall_mem_cons.1 encodable with ⟨encodes, encodeRest⟩
    rw [segmentsFrom, List.foldl_cons, enter_segmentAt first encodes, ih others encodeRest,
      List.foldl_cons]

/-- A catalogue that noted the records of drafts has the directory that the drafts describe. -/
theorem foldl_note_records (drafts : List Draft) :
    ((allListed drafts).map Object.record).foldl Directory.note .blank =
      { properties := fun path => OrderedMap.insertAll .empty (allPairs path drafts)
        groups := groupNames drafts
        channels := fun owner => channelNames owner drafts } := by
  rw [Directory.foldl_note]
  simp only [Directory.pairsAt, Directory.groupNames, Directory.channelNames, List.flatMap_map,
    List.filterMap_map]
  rfl

/-! ## Reading -/

/-- The catalogue of a file of drafts. -/
theorem build_file (wellFormed : WellFormed drafts)
    (encodable : ∀ draft ∈ drafts, draft.Encodable) :
    ∃ catalogue, Catalogue.build (.ofBytes (file drafts)) false = .ok (catalogue, none) := by
  have short := wellFormed.short
  have scanned := scan_file wellFormed.writable wellFormed.finished (by omega)
  rcases foldlM_drafts wellFormed.fits encodable wellFormed.writable .empty .empty 0 0 with
    ⟨catalogue, applied⟩
  refine ⟨catalogue, ?_⟩
  rw [Catalogue.build, scanned]
  dsimp only
  rw [applied]

/-- A file of well-formed drafts whose numbers fit their fields opens and holds what the drafts
hold: names in the order of their first appearance, properties with later values over earlier
ones, and all values of every channel. -/
theorem restored_of_wellFormed (wellFormed : WellFormed drafts)
    (encodable : ∀ draft ∈ drafts, draft.Encodable) :
    ∃ opened, File.ofBytes (file drafts) false = .ok opened ∧ Restored drafts opened := by
  have short := wellFormed.short
  have scanned := scan_file wellFormed.writable wellFormed.finished (by omega)
  rcases build_file wellFormed encodable with ⟨catalogue, built⟩
  -- What is known of the segments of any scan is read as facts about drafts.
  have tracks := Catalogue.Tracks.of_build built
  have inside := endOffset_le_of_scan (file drafts)
  have noted := Catalogue.directory_foldlM (Catalogue.foldlM_of_build built)
  rw [scanned] at tracks inside noted
  dsimp only at tracks inside noted
  rw [foldl_enter wellFormed.fits encodable] at tracks
  rw [flatMap_records wellFormed.fits encodable, Catalogue.directory_empty, foldl_note_records]
    at noted
  have groups : catalogue.directory.groups = groupNames drafts := by rw [noted]
  have channels : ∀ owner, catalogue.directory.channels owner = channelNames owner drafts := by
    intro owner
    rw [noted]
  have collects : ∀ path, (catalogue.propertiesAt path).Collects (allPairs path drafts) := by
    intro path
    change (catalogue.directory.properties path).Collects (allPairs path drafts)
    rw [noted]
    exact OrderedMap.collects_insertAll _
  have group : ∀ owner ∈ groupNames drafts,
      catalogue.group owner = .ok (catalogue.groupAt owner) := by
    intro owner listed
    rw [← groups] at listed
    exact Catalogue.group_of_mem listed
  have channel : ∀ owner, ∀ name ∈ channelNames owner drafts,
      catalogue.channel owner name = .ok (catalogue.channelAt owner name) := by
    intro owner name listed
    rw [← channels] at listed
    exact Catalogue.channel_of_mem listed
  refine ⟨⟨.ofBytes (file drafts), catalogue, none⟩, ?_, rfl, ?_, ?_, ?_, ?_, ?_, ?_⟩
  · rw [File.ofBytes, File.ofSource, built]
  · exact tracks.named.groups_eq.trans groups
  · intro owner listed
    rw [File.groupChannels, group owner listed, ← channels, ← tracks.named.channels_eq]
    rfl
  · exact collects .root
  · intro owner listed
    refine ⟨(catalogue.groupAt owner).properties, ?_, collects (.group owner)⟩
    rw [File.groupProperties, group owner listed]
    rfl
  · intro owner name listed
    refine ⟨(catalogue.channelAt owner name).properties, ?_, collects (.channel owner name)⟩
    rw [File.channelProperties, File.channel, channel owner name listed]
    rfl
  · intro owner name listed
    have whole : (file drafts).data.toList = [] ++ drafts.flatMap bytes := toList_file drafts
    have collected := (tracks.read_eq_collect inside owner name).trans
      (collect_drafts wellFormed.fits encodable whole 0 (.channel owner name))
    rcases Outcome.map_eq_ok.1 collected with ⟨samples, read, scalars⟩
    refine ⟨samples, ?_, ?_, scalars⟩
    · rw [File.readChannel, File.channel, channel owner name listed]
      exact read
    · rw [(tracks.length_read read).1, tracks.typed.type_eq, tracks.follows.latest_eq,
        typeAt]

/-- The drafts of `sampleFile`. -/
def sampleDrafts : List Draft :=
  [{ contents := ⟨0x0e⟩
     objects := [⟨.channel "g" "a", .values 2 1, []⟩, ⟨.channel "g" "t", .strings 1 5, []⟩]
     rounds := [[⟨.int16, [1], []⟩, ⟨.string, ["x"], []⟩],
       [⟨.int16, [2], []⟩, ⟨.string, ["y"], []⟩]]
     unfinished := false },
   { contents := ⟨0x6e⟩
     objects := [⟨.channel "g" "a", .matchesPrevious, []⟩]
     rounds := [[⟨.int16, [3], []⟩], [⟨.int16, [4], []⟩]]
     unfinished := true }]

example : file sampleDrafts = sampleFile := by decide +kernel

theorem restored_sample :
    WellFormed sampleDrafts ∧ (∀ draft ∈ sampleDrafts, draft.Encodable) ∧
      ∃ opened, File.ofBytes (file sampleDrafts) false = .ok opened ∧
        Restored sampleDrafts opened := by
  have wellFormed : WellFormed sampleDrafts := by decide +kernel
  have encodable : ∀ draft ∈ sampleDrafts, draft.Encodable := by decide +kernel
  exact ⟨wellFormed, encodable, restored_of_wellFormed wellFormed encodable⟩

/-- A draft that declares 2^61 values of eight bytes each, and writes none of them. -/
def overflowing : Draft where
  contents := ⟨0x06⟩
  objects := [⟨.channel "g" "a", .values 0x0A 0x2000000000000000, []⟩]
  rounds := []
  unfinished := false

/-- Of drafts whose numbers do not fit, the file may be refused. -/
theorem not_restored_overflowing :
    ¬ ∀ drafts, WellFormed drafts →
      ∃ opened, File.ofBytes (file drafts) false = .ok opened ∧ Restored drafts opened := by
  intro restored
  have wellFormed : WellFormed [overflowing] := by decide +kernel
  have refused : (File.ofBytes (file [overflowing]) false).toOption = none := by decide +kernel
  rcases restored [overflowing] wellFormed with ⟨opened, read, -⟩
  rw [read] at refused
  cases refused

end Draft

end Tdms
