import Mathlib
import Tdms.Proofs.Catalogue.Runs

/-!
The names and the properties that a catalogue collects.

A directory is what a catalogue says about names and properties, and nothing
else. Taking up a segment notes its records in the directory, one after
another; `foldl_note` then says what the directory of some records holds: groups
and channels where the records first name them, and for every object the
properties of its records.
-/

namespace Tdms

open Metadata (RawIndex Record)

/-- The name of a channel, if it belongs to the group `owner`. -/
def ObjectPath.channelOf? (owner : String) : ObjectPath → Option String
  | .channel found name => if found = owner then some name else none
  | .root | .group _ => none

/-- What is said about names and properties. -/
@[ext] structure Directory where
  properties : ObjectPath → Properties
  groups : List String
  channels : (owner : String) → List String

namespace Directory

def blank : Directory :=
  ⟨fun _ => .empty, [], fun _ => []⟩

/-- Names the object at `path` and writes `pairs` to it. -/
def write (directory : Directory) (path : ObjectPath) (pairs : List (String × Property)) :
    Directory where
  properties := Function.update directory.properties path
    ((directory.properties path).insertAll pairs)
  groups := OrderedMap.addKey path.group? directory.groups
  channels owner := OrderedMap.addKey (path.channelOf? owner) (directory.channels owner)

def note (directory : Directory) (record : Record) : Directory :=
  directory.write record.path record.properties

theorem properties_write_self (directory : Directory) (path : ObjectPath)
    (pairs : List (String × Property)) :
    (directory.write path pairs).properties path = (directory.properties path).insertAll pairs :=
  Function.update_self path _ directory.properties

theorem properties_write_of_ne (directory : Directory) {path other : ObjectPath}
    (elsewhere : other ≠ path) (pairs : List (String × Property)) :
    (directory.write path pairs).properties other = directory.properties other :=
  Function.update_of_ne elsewhere _ directory.properties

/-- Naming an object twice is naming it once. -/
theorem write_write (directory : Directory) (path : ObjectPath) (pairs : List (String × Property)) :
    (directory.write path []).write path pairs = directory.write path pairs := by
  have none : (directory.properties path).insertAll [] = directory.properties path := rfl
  ext1
  · simp [write, none]
  · exact OrderedMap.addKey_addKey path.group? directory.groups
  · funext owner
    exact OrderedMap.addKey_addKey (path.channelOf? owner) (directory.channels owner)

/-- The properties that records write to the object at `path`, in order. -/
def pairsAt (path : ObjectPath) (records : List Record) : List (String × Property) :=
  records.flatMap fun record => if record.path = path then record.properties else []

/-- The groups that records are about, in the order in which they are first named. -/
def groupNames (records : List Record) : List String :=
  (records.filterMap fun record => record.path.group?).eraseDups

/-- The channels of a group that records are about, in the order in which they are first named. -/
def channelNames (owner : String) (records : List Record) : List String :=
  (records.filterMap fun record => record.path.channelOf? owner).eraseDups

/-- The directory of some records lists groups and channels where they are first named. -/
theorem foldl_note (records : List Record) :
    records.foldl note blank =
      { properties := fun path => OrderedMap.insertAll .empty (pairsAt path records)
        groups := groupNames records
        channels := fun owner => channelNames owner records } := by
  induction records using List.reverseRecOn with
  | nil => rfl
  | append_singleton records record ih =>
    have one : ∀ name? : Record → Option String,
        [record].filterMap name? = (name? record).toList := by
      intro name?
      rw [List.filterMap_cons, List.filterMap_nil]
      cases name? record with
      | none => rfl
      | some name => rfl
    rw [List.foldl_append, ih, List.foldl_cons, List.foldl_nil, note]
    ext1
    · funext path
      have split : pairsAt path (records ++ [record]) =
          pairsAt path records ++ if record.path = path then record.properties else [] := by
        simp [pairsAt]
      dsimp only
      rw [split, OrderedMap.insertAll_append]
      by_cases same : path = record.path
      · rw [same, properties_write_self, if_pos rfl]
      · rw [properties_write_of_ne _ same, if_neg (Ne.symm same)]
        rfl
    · dsimp only
      rw [groupNames, groupNames, List.filterMap_append, one, ← OrderedMap.addKey_eraseDups]
      rfl
    · funext owner
      dsimp only
      rw [channelNames, List.filterMap_append, one, ← OrderedMap.addKey_eraseDups]
      rfl

end Directory

namespace Catalogue

variable {catalogue next : Catalogue} {offset : Nat}

/-- A group, as the file would first name it if it has not. -/
def groupAt (catalogue : Catalogue) (name : String) : Group :=
  (catalogue.groups.get? name).getD (.named name)

/-- The properties of the object at `path`, none if the file has not named it. -/
def propertiesAt (catalogue : Catalogue) : ObjectPath → Properties
  | .root => catalogue.properties
  | .group name => (catalogue.groupAt name).properties
  | .channel owner name => (catalogue.channelAt owner name).properties

def directory (catalogue : Catalogue) : Directory where
  properties := catalogue.propertiesAt
  groups := catalogue.groups.keys
  channels owner := (catalogue.groupAt owner).channels.keys

theorem directory_empty : Catalogue.empty.directory = .blank := by
  ext1
  · funext path
    cases path with
    | _ => rfl
  · rfl
  · rfl

/-! ## Naming and describing -/

theorem groupAt_alterGroup (catalogue : Catalogue) (name other : String)
    (change : Group → Group) :
    (catalogue.alterGroup name change).groupAt other =
      if other = name then change (catalogue.groupAt name) else catalogue.groupAt other := by
  rw [groupAt, alterGroup, OrderedMap.get?_alter]
  split
  · rfl
  · rfl

/-- Changing a channel names it, and leaves all properties but its own. -/
theorem directory_alterChannel (catalogue : Catalogue) (owner name : String)
    {pairs : List (String × Property)} {change : Channel → Channel}
    (written : ∀ channel, (change channel).properties = channel.properties.insertAll pairs) :
    (catalogue.alterChannel owner name change).directory =
      catalogue.directory.write (.channel owner name) pairs := by
  ext1
  · funext path
    have altered := channelAt_alterChannel catalogue owner name change
    by_cases same : path = .channel owner name
    · rw [same, Directory.properties_write_self]
      change ((catalogue.alterChannel owner name change).channelAt owner name).properties = _
      rw [altered, if_pos ⟨rfl, rfl⟩, written]
      rfl
    · rw [Directory.properties_write_of_ne _ same]
      cases path with
      | root => rfl
      | group group =>
        change ((catalogue.alterGroup owner _).groupAt group).properties =
          (catalogue.groupAt group).properties
        rw [groupAt_alterGroup]
        split
        · rename_i here
          rw [here]
        · rfl
      | channel group channel =>
        have other : ¬ (group = owner ∧ channel = name) := fun both => same (by rw [both.1, both.2])
        change ((catalogue.alterChannel owner name change).channelAt group channel).properties = _
        rw [altered, if_neg other]
        rfl
  · exact OrderedMap.keys_alter _ _ _ _
  · funext group
    change ((catalogue.alterGroup owner _).groupAt group).channels.keys =
      OrderedMap.addKey (if owner = group then some name else none)
        (catalogue.groupAt group).channels.keys
    rw [groupAt_alterGroup]
    by_cases same : group = owner
    · rw [if_pos same, if_pos same.symm, same]
      exact OrderedMap.keys_alter _ _ _ _
    · rw [if_neg same, if_neg (Ne.symm same), OrderedMap.addKey]

theorem directory_describe (catalogue : Catalogue) (path : ObjectPath)
    (pairs : List (String × Property)) :
    (catalogue.describe path pairs).directory = catalogue.directory.write path pairs := by
  cases path with
  | root =>
    ext1
    · funext other
      by_cases same : other = .root
      · rw [same, Directory.properties_write_self]
        rfl
      · rw [Directory.properties_write_of_ne _ same]
        cases other with
        | root => exact absurd rfl same
        | group name => rfl
        | channel owner name => rfl
    · rfl
    · rfl
  | group name =>
    have altered := groupAt_alterGroup catalogue name
    ext1
    · funext other
      by_cases same : other = .group name
      · rw [same, Directory.properties_write_self]
        change ((catalogue.alterGroup name _).groupAt name).properties = _
        rw [altered, if_pos rfl]
        rfl
      · rw [Directory.properties_write_of_ne _ same]
        cases other with
        | root => rfl
        | group group =>
          change ((catalogue.alterGroup name _).groupAt group).properties = _
          rw [altered, if_neg fun equal => same (congrArg ObjectPath.group equal)]
          rfl
        | channel owner channel =>
          change ((catalogue.alterGroup name _).channelAt owner channel).properties =
            (catalogue.channelAt owner channel).properties
          rw [channelAt, channelAt, channel?_alterGroup]
          intro group
          rfl
    · exact OrderedMap.keys_alter _ _ _ _
    · funext group
      change ((catalogue.alterGroup name _).groupAt group).channels.keys =
        (catalogue.groupAt group).channels.keys
      rw [groupAt_alterGroup]
      split
      · rename_i same
        rw [same]
      · rfl
  | channel owner name => exact directory_alterChannel catalogue owner name fun _ => rfl

/-! ## Records -/

/-- Declaring raw data names the object, which its description does as well. -/
theorem write_of_declareAny {path : ObjectPath} {index? : Option RawIndex}
    (declared : catalogue.declareAny offset path index? = .ok next)
    (pairs : List (String × Property)) :
    next.directory.write path pairs = catalogue.directory.write path pairs := by
  cases index? with
  | none =>
    cases declared
    rfl
  | some index =>
    cases path with
    | root => cases declared
    | group name => cases declared
    | channel owner name =>
      rw [declareAny, declare] at declared
      dsimp only at declared
      split at declared
      · split at declared
        · cases declared
          rfl
        · cases declared
      · -- The first declaration names the channel, as its description would.
        cases declared
        have named : (catalogue.alterChannel owner name fun channel =>
            { channel with type := some index.type }).directory =
              catalogue.directory.write (.channel owner name) [] :=
          directory_alterChannel catalogue owner name fun _ => rfl
        rw [← Directory.write_write catalogue.directory, ← named]
        rfl

theorem directory_applyRecord {record : Record}
    (applied : applyRecord offset catalogue record = .ok next) :
    next.directory = catalogue.directory.note record := by
  rcases applyRecord_eq_ok.1 applied with ⟨index?, declared, -, stored, rfl⟩
  change (declared.describe record.path record.properties).directory = _
  rw [directory_describe, write_of_declareAny stored]
  rfl

theorem directory_applyRecords {records : List Record}
    (applied : records.foldlM (applyRecord offset) catalogue = .ok next) :
    next.directory = records.foldl Directory.note catalogue.directory := by
  induction records generalizing catalogue with
  | nil =>
    cases applied
    rfl
  | cons record rest ih =>
    rcases Outcome.foldlM_cons_eq_ok.1 applied with ⟨middle, first, later⟩
    rw [ih later, directory_applyRecord first, List.foldl_cons]

theorem directory_applyMetadata {segment : Segment}
    (applied : catalogue.applyMetadata segment = .ok next) :
    next.directory = (Walk.records segment).foldl Directory.note catalogue.directory := by
  rcases applyMetadata_eq_ok.1 applied with
    ⟨absent, rfl⟩ | ⟨block, records, present, decoded, recorded⟩
  · rw [records_of_none absent]
    rfl
  · rw [records_of_decode present decoded, directory_applyRecords recorded]
    split
    · rfl
    · rfl

/-! ## Raw data -/

theorem directory_modifyChannel (catalogue : Catalogue) (owner name : String)
    {change : Channel → Channel}
    (kept : ∀ channel, (change channel).properties = channel.properties) :
    (catalogue.modifyChannel owner name change).directory = catalogue.directory := by
  have groups : ∀ group, ((catalogue.modifyChannel owner name change).groupAt group).properties =
      (catalogue.groupAt group).properties ∧
        ((catalogue.modifyChannel owner name change).groupAt group).channels.keys =
          (catalogue.groupAt group).channels.keys := by
    intro group
    rw [groupAt, modifyChannel, OrderedMap.get?_modify, groupAt]
    split
    · rename_i same
      rw [same]
      cases catalogue.groups.get? owner with
      | none => exact ⟨rfl, rfl⟩
      | some found => exact ⟨rfl, OrderedMap.keys_modify _ _ _⟩
    · exact ⟨rfl, rfl⟩
  ext1
  · funext path
    cases path with
    | root => rfl
    | group group => exact (groups group).1
    | channel group channel =>
      change ((catalogue.modifyChannel owner name change).channelAt group channel).properties =
        (catalogue.channelAt group channel).properties
      rw [channelAt, channelAt, channel?_modifyChannel]
      split
      · rename_i here
        rw [here.1, here.2]
        cases catalogue.channel? owner name with
        | none => rfl
        | some found => exact kept found
      · rfl
  · exact OrderedMap.keys_modify _ _ _
  · funext group
    exact (groups group).2

theorem directory_pushSlot (catalogue : Catalogue)
    (slot : (ObjectPath × RawIndex) × Option Run) :
    (catalogue.pushSlot slot).directory = catalogue.directory := by
  rcases slot with ⟨⟨path, index⟩, run?⟩
  cases run? with
  | none => rfl
  | some run =>
    cases path with
    | root => rfl
    | group name => rfl
    | channel owner name => exact directory_modifyChannel catalogue owner name fun _ => rfl

theorem directory_placed (catalogue : Catalogue) (segment : Segment) :
    (catalogue.placed segment).directory = catalogue.directory := by
  unfold placed
  generalize catalogue.owners.zip (Walk.Stage.runs ⟨segment, catalogue.owners⟩) = slots
  induction slots generalizing catalogue with
  | nil => rfl
  | cons slot rest ih => rw [List.foldl_cons, ih, directory_pushSlot]

/-! ## Segments -/

/-- Taking up a segment notes its records. -/
theorem directory_apply {segment : Segment} (applied : catalogue.apply segment = .ok next) :
    next.directory = (Walk.records segment).foldl Directory.note catalogue.directory := by
  rcases apply_eq_ok.1 applied with ⟨described, recorded, -, rfl⟩
  change (described.placed segment).directory = _
  rw [directory_placed, directory_applyMetadata recorded]

theorem directory_foldlM {segments : List Segment}
    (applied : segments.foldlM Catalogue.apply catalogue = .ok next) :
    next.directory =
      (segments.flatMap Walk.records).foldl Directory.note catalogue.directory := by
  induction segments generalizing catalogue with
  | nil =>
    cases applied
    rfl
  | cons segment rest ih =>
    rcases Outcome.foldlM_cons_eq_ok.1 applied with ⟨middle, first, later⟩
    rw [ih later, directory_apply first, List.flatMap_cons, List.foldl_append]

/-- The catalogue of a build lists what the records of all segments name. -/
theorem directory_of_build {source : Source} {recover : Bool} {stop : Option Nat}
    (built : build source recover = .ok (catalogue, stop)) :
    catalogue.directory =
      ((scan source).segments.flatMap Walk.records).foldl Directory.note .blank := by
  rw [directory_foldlM (foldlM_of_build built), directory_empty]

/-! ## What callers look up -/

theorem Named.groupAt (named : catalogue.Named) (owner : String) :
    (catalogue.groupAt owner).Named owner := by
  unfold Catalogue.groupAt
  cases found : catalogue.groups.get? owner with
  | none => exact Group.named_named owner
  | some group => exact named.group_named owner group found

/-- Groups are listed under their names. -/
theorem Named.groups_eq (named : catalogue.Named) :
    catalogue.groups.values.map Group.name = catalogue.directory.groups := by
  change _ = catalogue.groups.entries.map Prod.fst
  rw [OrderedMap.values, List.map_map]
  apply List.map_congr_left
  intro entry listed
  exact (named.group_named _ _ ((OrderedMap.get?_eq_some_iff named.distinct).2 listed)).name_eq

/-- Channels are listed under their names. -/
theorem Named.channels_eq (named : catalogue.Named) (owner : String) :
    (catalogue.groupAt owner).channels.values.map Channel.name =
      catalogue.directory.channels owner := by
  have inside := named.groupAt owner
  change _ = (catalogue.groupAt owner).channels.entries.map Prod.fst
  rw [OrderedMap.values, List.map_map]
  apply List.map_congr_left
  intro entry listed
  exact (inside.channel_named _ _ ((OrderedMap.get?_eq_some_iff inside.distinct).2 listed)).2

theorem group_of_mem {owner : String} (listed : owner ∈ catalogue.directory.groups) :
    catalogue.group owner = .ok (catalogue.groupAt owner) := by
  rcases OrderedMap.mem_keys_iff.1 listed with ⟨held, found⟩
  rw [group, groupAt, found]
  rfl

theorem channel_of_mem {owner name : String}
    (listed : name ∈ catalogue.directory.channels owner) :
    catalogue.channel owner name = .ok (catalogue.channelAt owner name) := by
  rcases OrderedMap.mem_keys_iff.1 listed with ⟨held, found⟩
  unfold groupAt at found
  rw [channel, group, channelAt, channel?]
  cases owns : catalogue.groups.get? owner with
  | none =>
    rw [owns] at found
    cases found
  | some group =>
    rw [owns, Option.getD_some] at found
    dsimp only
    rw [Option.bind_some, found]
    rfl

/-- A group is found if the directory lists it. -/
theorem group_eq (catalogue : Catalogue) (owner : String) :
    catalogue.group owner =
      if owner ∈ catalogue.directory.groups then .ok (catalogue.groupAt owner)
      else .error (.noSuchGroup owner) := by
  split
  · rename_i listed
    exact group_of_mem listed
  · rename_i absent
    have none : catalogue.groups.get? owner = none := OrderedMap.lookup_eq_none_iff.2 absent
    rw [group, none]

/-- A channel is found if the directory lists its group, and it in the group. -/
theorem channel_eq (catalogue : Catalogue) (owner name : String) :
    catalogue.channel owner name =
      if owner ∈ catalogue.directory.groups then
        if name ∈ catalogue.directory.channels owner then .ok (catalogue.channelAt owner name)
        else .error (.noSuchChannel owner name)
      else .error (.noSuchGroup owner) := by
  rw [channel, group_eq]
  by_cases listed : owner ∈ catalogue.directory.groups
  · rw [if_pos listed, if_pos listed]
    by_cases inside : name ∈ catalogue.directory.channels owner
    · have found := channel_of_mem inside
      rw [channel, group_of_mem listed] at found
      rw [if_pos inside]
      exact found
    · have none : (catalogue.groupAt owner).channels.get? name = none :=
        OrderedMap.lookup_eq_none_iff.2 inside
      rw [if_neg inside]
      dsimp only
      rw [none]
  · rw [if_neg listed, if_neg listed]

theorem mem_channels_of_channel? {owner name : String} {channel : Channel}
    (found : catalogue.channel? owner name = some channel) :
    name ∈ catalogue.directory.channels owner := by
  obtain ⟨group, listed, inside⟩ := Option.bind_eq_some_iff.1 found
  have here : catalogue.groupAt owner = group := by rw [groupAt, listed, Option.getD_some]
  change name ∈ (catalogue.groupAt owner).channels.keys
  rw [here]
  exact OrderedMap.mem_keys_iff.2 ⟨channel, inside⟩

end Catalogue

end Tdms
