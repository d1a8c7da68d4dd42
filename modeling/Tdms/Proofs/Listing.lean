import Mathlib
import Tdms.Command
import Tdms.Proofs.Json.Reader
import Tdms.Proofs.Draft
import Tdms.Proofs.Naming

/-!
What a JSON listing shows of a file.

`ShowsFile` describes a document by the names of its members and by the values
under them, as a reader of the document finds them. The text of a listing means
such a document and nothing else, whatever the names and texts in the file are.
-/

namespace Tdms

open Json (FloatFree Means)
open Directory (groupNames)

variable {source : Source} {recover : Bool} {file : File} {withProperties : Bool}

/-! ## Members -/

namespace Json

/-- Names of the members of an object. -/
def names : Json → List String
  | object members => members.map Prod.fst
  | _ => []

/-- The value of a member. -/
def member? (name : String) : Json → Option Json
  | object members => OrderedMap.lookup name members
  | _ => none

theorem exists_member {value : Json} {name : String} (listed : name ∈ value.names) :
    ∃ found, value.member? name = some found := by
  cases value with
  | object members =>
    have present : OrderedMap.lookup name members ≠ none :=
      fun absent => OrderedMap.lookup_eq_none_iff.1 absent listed
    exact Option.ne_none_iff_exists'.1 present
  | null | bool _ | int _ | float _ | string _ | array _ => cases listed

theorem members_eq {members others : List (String × Json)}
    (names : members.map Prod.fst = others.map Prod.fst) (distinct : (members.map Prod.fst).Nodup)
    (same : ∀ name ∈ members.map Prod.fst,
      OrderedMap.lookup name members = OrderedMap.lookup name others) : members = others := by
  induction members generalizing others with
  | nil => exact (List.map_eq_nil_iff.1 names.symm).symm
  | cons member rest ih =>
    cases others with
    | nil => cases names
    | cons other more =>
      rcases member with ⟨name, value⟩
      rcases other with ⟨called, found⟩
      simp only [List.map_cons, List.cons.injEq, List.nodup_cons] at names distinct same
      rcases names with ⟨rfl, later⟩
      have here := same name List.mem_cons_self
      simp only [OrderedMap.lookup, if_true, Option.some.injEq] at here
      have further := ih later distinct.2 fun other listed => by
        have passed : name ≠ other := fun equal => distinct.1 (equal ▸ listed)
        have found := same other (List.mem_cons_of_mem _ listed)
        simpa only [OrderedMap.lookup, if_neg passed] using found
      rw [here, further]

/-- An object is known by the names of its members, if these are distinct, and by the values. -/
theorem eq_of_members {first second : Json} (names : first.names = second.names)
    (some : first.names ≠ []) (distinct : first.names.Nodup)
    (same : ∀ name ∈ first.names, first.member? name = second.member? name) : first = second := by
  cases first with
  | object members =>
    cases second with
    | object others => exact congrArg object (members_eq names distinct same)
    | null | bool _ | int _ | float _ | string _ | array _ => exact absurd names some
  | null | bool _ | int _ | float _ | string _ | array _ => exact absurd rfl some

end Json

/-! ## What is shown -/

/-- A value that is no float and has no parts that are. -/
def Property.IsPlain (property : Property) : Prop :=
  property.type ∉ [.float32, .float64, .complex64, .complex128]

instance (property : Property) : Decidable property.IsPlain :=
  inferInstanceAs (Decidable (_ ∉ _))

/-- The value of a property in a document: numbers, texts and truth values as they are, and
moments as text. -/
inductive Property.Shows : Property → Json → Prop
  | integer {property : Property} {number : Int} :
    property.type.integer? property.value = some number → property.Shows (.int number)
  | string (text : String) : Shows ⟨.string, text⟩ (.string text)
  | boolean (value : Bool) : Shows ⟨.boolean, value⟩ (.bool value)
  | timestamp (moment : Timestamp) : Shows ⟨.timestamp, moment⟩ (.string moment.text)

namespace Listing

/-- The value is an object with a member for each property, in alphabetical order. -/
structure ShowsProperties (properties : Properties) (value : Json) : Prop where
  names : value.names.Perm properties.keys
  sorted : value.names.Pairwise (· < ·)
  shown : ∀ name property, properties.get? name = some property →
    ∃ found, value.member? name = some found ∧ property.Shows found

/-- The name of the member for properties, if these are asked for and there are any. -/
def propertiesName (withProperties : Bool) (properties : Properties) : List String :=
  if withProperties = true ∧ properties.keys ≠ [] then ["properties"] else []

structure ShowsChannel (withProperties : Bool) (channel : Channel) (value : Json) : Prop where
  names : value.names =
    ["name", "data_type", "samples"] ++ propertiesName withProperties channel.properties
  name : value.member? "name" = some (.string channel.name)
  type : value.member? "data_type" =
    some (channel.type.elim .null fun type => .string type.name)
  samples : value.member? "samples" = some (.int channel.sampleCount)
  properties : ∀ found, value.member? "properties" = some found →
    ShowsProperties channel.properties found

structure ShowsGroup (withProperties : Bool) (group : Group) (value : Json) : Prop where
  names : value.names =
    ["name"] ++ propertiesName withProperties group.properties ++ ["channels"]
  name : value.member? "name" = some (.string group.name)
  properties : ∀ found, value.member? "properties" = some found →
    ShowsProperties group.properties found
  channels : ∃ items, value.member? "channels" = some (.array items) ∧
    List.Forall₂ (ShowsChannel withProperties) group.channels.values items

structure ShowsFile (path : String) (withProperties : Bool) (file : File) (value : Json) :
    Prop where
  names : value.names =
    ["path", "segments"] ++ (if file.isTruncated then ["truncated_at"] else []) ++
      propertiesName withProperties file.properties ++ ["groups"]
  path : value.member? "path" = some (.string path)
  segments : value.member? "segments" = some (.int file.catalogue.segmentCount)
  truncatedAt : value.member? "truncated_at" = file.truncatedAt.map fun offset => .int offset
  properties : ∀ found, value.member? "properties" = some found →
    ShowsProperties file.properties found
  groups : ∃ items, value.member? "groups" = some (.array items) ∧
    List.Forall₂ (ShowsGroup withProperties) file.catalogue.groups.values items

end Listing

/-! ## What is shown determines the document -/

theorem Property.Shows.unique {property : Property} {first second : Json}
    (one : property.Shows first) (other : property.Shows second) : first = second := by
  cases one with
  | integer number =>
    cases other with
    | integer same => rw [Option.some.inj (number.symm.trans same)]
    | string _ | boolean _ | timestamp _ => cases number
  | string _ | boolean _ | timestamp _ =>
    cases other with
    | integer number => cases number
    | _ => rfl

namespace Listing

variable {first second : Json}

theorem ShowsProperties.unique {properties : Properties} (some : properties.keys ≠ [])
    (one : ShowsProperties properties first) (other : ShowsProperties properties second) :
    first = second := by
  have names : first.names = second.names :=
    List.Perm.eq_of_pairwise (fun _ _ _ _ before after => absurd before after.not_gt) one.sorted
      other.sorted (one.names.trans other.names.symm)
  refine Json.eq_of_members names ?_ (one.sorted.imp ne_of_lt) fun name listed => ?_
  · intro none
    have empty := one.names
    rw [none] at empty
    exact some (List.nil_perm.1 empty)
  · rcases OrderedMap.mem_keys_iff.1 (one.names.mem_iff.1 listed) with ⟨property, found⟩
    rcases one.shown name property found with ⟨value, here, holds⟩
    rcases other.shown name property found with ⟨same, there, agrees⟩
    rw [here, there, holds.unique agrees]

/-- The members for properties are equal, if there are any. -/
theorem properties_unique {properties : Properties} {name : String}
    (one : ∀ found, first.member? "properties" = some found → ShowsProperties properties found)
    (other : ∀ found, second.member? "properties" = some found → ShowsProperties properties found)
    (names : first.names = second.names) (listed : name ∈ first.names)
    (called : name ∈ propertiesName withProperties properties) :
    first.member? name = second.member? name := by
  unfold propertiesName at called
  split at called
  · rename_i both
    obtain rfl := List.mem_singleton.1 called
    rcases Json.exists_member listed with ⟨value, here⟩
    rcases Json.exists_member (names ▸ listed) with ⟨same, there⟩
    rw [here, there, (one value here).unique both.2 (other same there)]
  · cases called

theorem ShowsChannel.unique {channel : Channel} (one : ShowsChannel withProperties channel first)
    (other : ShowsChannel withProperties channel second) : first = second := by
  have names := one.names.trans other.names.symm
  refine Json.eq_of_members names ?_ ?_ fun name listed => ?_
  · simp [one.names]
  · rw [one.names]
    unfold propertiesName
    split <;> decide
  · have called := listed
    rw [one.names] at called
    simp only [List.cons_append, List.nil_append, List.mem_cons] at called
    rcases called with rfl | rfl | rfl | called
    · rw [one.name, other.name]
    · rw [one.type, other.type]
    · rw [one.samples, other.samples]
    · exact properties_unique one.properties other.properties names listed called

theorem ShowsGroup.unique {group : Group} (one : ShowsGroup withProperties group first)
    (other : ShowsGroup withProperties group second) : first = second := by
  have names := one.names.trans other.names.symm
  refine Json.eq_of_members names ?_ ?_ fun name listed => ?_
  · simp [one.names]
  · rw [one.names]
    unfold propertiesName
    split <;> decide
  · have called := listed
    rw [one.names] at called
    simp only [List.mem_append, List.mem_singleton] at called
    rcases called with (rfl | called) | rfl
    · rw [one.name, other.name]
    · exact properties_unique one.properties other.properties names listed called
    · rcases one.channels with ⟨items, here, shown⟩
      rcases other.channels with ⟨others, there, same⟩
      rw [here, there,
        List.right_unique_forall₂' (fun _ _ _ one other => one.unique other) shown same]

theorem ShowsFile.unique {path : String} (one : ShowsFile path withProperties file first)
    (other : ShowsFile path withProperties file second) : first = second := by
  have names := one.names.trans other.names.symm
  refine Json.eq_of_members names ?_ ?_ fun name listed => ?_
  · simp [one.names]
  · rw [one.names]
    unfold propertiesName
    split <;> split <;> decide
  · have called := listed
    rw [one.names] at called
    simp only [List.mem_append, List.mem_cons, List.not_mem_nil, or_false] at called
    rcases called with (((rfl | rfl) | called) | called) | rfl
    · rw [one.path, other.path]
    · rw [one.segments, other.segments]
    · split at called
      · rw [List.mem_singleton.1 called, one.truncatedAt, other.truncatedAt]
      · cases called
    · exact properties_unique one.properties other.properties names listed called
    · rcases one.groups with ⟨items, here, shown⟩
      rcases other.groups with ⟨others, there, same⟩
      rw [here, there,
        List.right_unique_forall₂' (fun _ _ _ one other => one.unique other) shown same]

end Listing

/-- No property in the file is a float or has parts that are. -/
def File.Plain (file : File) : Prop :=
  ∀ path, ∀ entry ∈ (file.catalogue.propertiesAt path).entries, entry.2.IsPlain

/-! ## Properties -/

theorem Property.shows_toJson {property : Property} (plain : property.IsPlain) :
    property.Shows property.toJson := by
  rcases property with ⟨type, value⟩
  cases type with
  | int8 | int16 | int32 | int64 | uint8 | uint16 | uint32 | uint64 => exact .integer rfl
  | string => exact .string value
  | boolean => exact .boolean value
  | timestamp => exact .timestamp value
  | float32 | float64 | complex64 | complex128 => exact absurd plain (by simp [IsPlain])

theorem Property.floatFree_toJson {property : Property} (plain : property.IsPlain) :
    FloatFree property.toJson := by
  rcases property with ⟨type, value⟩
  cases type with
  | int8 | int16 | int32 | int64 | uint8 | uint16 | uint32 | uint64 => exact .int _
  | string => exact .string value
  | boolean => exact .bool value
  | timestamp => exact .string _
  | float32 | float64 | complex64 | complex128 => exact absurd plain (by simp [IsPlain])

namespace Listing

variable {properties : Properties}

/-! ## Listings, one object at a time -/

/-- The properties that a listing shows of an object. -/
def shownProperties (withProperties : Bool) (properties : Properties) : List (String × Json) :=
  if withProperties then sortedProperties properties else []

def ofChannel (withProperties : Bool) (channel : Channel) : ChannelListing where
  name := channel.name
  type := channel.type
  samples := channel.sampleCount
  properties := shownProperties withProperties channel.properties

def ofGroup (withProperties : Bool) (group : Group) : GroupListing where
  name := group.name
  properties := shownProperties withProperties group.properties
  channels := group.channels.values.map (ofChannel withProperties)

theorem ofFile_eq (path : String) (file : File) (withProperties : Bool) :
    ofFile path file withProperties =
      { path
        segments := file.catalogue.segmentCount
        truncatedAt := file.truncatedAt
        properties := shownProperties withProperties file.properties
        groups := file.catalogue.groups.values.map (ofGroup withProperties) } :=
  rfl

/-! ## Properties -/

theorem sortedProperties_perm (properties : Properties) :
    (sortedProperties properties).Perm
      (properties.entries.map fun entry => (entry.1, entry.2.toJson)) :=
  List.mergeSort_perm _ _

theorem names_sortedProperties (properties : Properties) :
    ((sortedProperties properties).map Prod.fst).Perm properties.keys := by
  have names := (sortedProperties_perm properties).map Prod.fst
  rw [List.map_map] at names
  exact names

theorem sorted_sortedProperties (distinct : properties.keys.Nodup) :
    ((sortedProperties properties).map Prod.fst).Pairwise (· < ·) := by
  have apart := (names_sortedProperties properties).nodup_iff.2 distinct
  have merged : (sortedProperties properties).Pairwise fun left right =>
      decide (left.1 ≤ right.1) = true :=
    List.pairwise_mergeSort (fun left middle right => by simpa using le_trans)
      (fun left right => by simpa using le_total left.1 right.1) _
  have sorted : ((sortedProperties properties).map Prod.fst).Pairwise (· ≤ ·) :=
    List.pairwise_map.2 (merged.imp of_decide_eq_true)
  exact (sorted.and apart).imp fun both => lt_of_le_of_ne both.1 both.2

theorem shows_sortedProperties (distinct : properties.keys.Nodup)
    (plain : ∀ entry ∈ properties.entries, entry.2.IsPlain) :
    ShowsProperties properties (.object (sortedProperties properties)) where
  names := names_sortedProperties properties
  sorted := sorted_sortedProperties distinct
  shown := by
    intro name property found
    have listed := (OrderedMap.get?_eq_some_iff distinct).1 found
    have member : (name, property.toJson) ∈ sortedProperties properties :=
      (sortedProperties_perm properties).mem_iff.2 (List.mem_map.2 ⟨_, listed, rfl⟩)
    have apart := (names_sortedProperties properties).nodup_iff.2 distinct
    exact ⟨property.toJson, OrderedMap.lookup_of_mem apart member,
      Property.shows_toJson (plain _ listed)⟩

theorem floatFree_sortedProperties (plain : ∀ entry ∈ properties.entries, entry.2.IsPlain) :
    FloatFree (.object (sortedProperties properties)) := by
  refine .object fun member listed => ?_
  rcases List.mem_map.1 ((sortedProperties_perm properties).mem_iff.1 listed) with
    ⟨entry, held, rfl⟩
  exact Property.floatFree_toJson (plain entry held)

/-- What a listing needs of the properties of an object: distinct names, and no floats if the
properties are shown. -/
structure Listable (withProperties : Bool) (properties : Properties) : Prop where
  distinct : properties.keys.Nodup
  plain : withProperties = true → ∀ entry ∈ properties.entries, entry.2.IsPlain

/-- What stands for the properties of an object among its members. -/
structure IsMember (withProperties : Bool) (properties : Properties)
    (member : List (String × Json)) : Prop where
  names : member.map Prod.fst = propertiesName withProperties properties
  only : ∀ name, name ≠ "properties" → OrderedMap.lookup name member = none
  shown : ∀ found, OrderedMap.lookup "properties" member = some found →
    ShowsProperties properties found
  free : ∀ named ∈ member, FloatFree named.2

theorem isMember_propertiesMember (listable : Listable withProperties properties) :
    IsMember withProperties properties
      (propertiesMember (shownProperties withProperties properties)) := by
  have absent (none : propertiesName withProperties properties = []) :
      IsMember withProperties properties [] :=
    ⟨none.symm, fun _ _ => rfl, nofun, nofun⟩
  unfold shownProperties
  by_cases asked : withProperties = true
  · have permuted := names_sortedProperties properties
    rw [if_pos asked]
    by_cases empty : properties.keys = []
    · rw [empty, List.perm_nil, List.map_eq_nil_iff] at permuted
      rw [permuted]
      exact absent (if_neg fun both => both.2 empty)
    · have some : sortedProperties properties ≠ [] := by
        intro none
        rw [none] at permuted
        exact empty (List.nil_perm.1 permuted)
      rw [propertiesMember, if_neg (by simpa using some)]
      exact {
        names := (if_pos ⟨asked, empty⟩).symm
        only := fun name other => if_neg (Ne.symm other)
        shown := by
          intro found same
          cases same
          exact shows_sortedProperties listable.distinct (listable.plain asked)
        free := by
          intro named listed
          rw [List.mem_singleton.1 listed]
          exact floatFree_sortedProperties (listable.plain asked) }
  · rw [if_neg asked]
    exact absent (if_neg fun both => asked both.1)

/-! ## Channels, groups and files -/

theorem lookup_append (name : String) (members others : List (String × Json)) :
    OrderedMap.lookup name (members ++ others) =
      (OrderedMap.lookup name members).or (OrderedMap.lookup name others) := by
  induction members with
  | nil => rfl
  | cons member rest ih =>
    simp only [List.cons_append, OrderedMap.lookup, ih]
    split <;> rfl

theorem showsChannel {channel : Channel} (listable : Listable withProperties channel.properties) :
    ShowsChannel withProperties channel (channelJson (ofChannel withProperties channel)) ∧
      FloatFree (channelJson (ofChannel withProperties channel)) := by
  have member := isMember_propertiesMember listable
  have type : FloatFree (channel.type.elim .null fun type => .string type.name) := by
    cases channel.type with
    | none => exact .null
    | some type => exact .string type.name
  refine ⟨?_, .object ?_⟩
  · exact {
      names := congrArg (["name", "data_type", "samples"] ++ ·) member.names
      name := rfl
      type := rfl
      samples := rfl
      properties := member.shown }
  · rw [List.forall_mem_append]
    refine ⟨?_, member.free⟩
    simp [ofChannel, type, FloatFree.string, FloatFree.int]

theorem showsGroup {group : Group} (listable : Listable withProperties group.properties)
    (inside : ∀ channel ∈ group.channels.values, Listable withProperties channel.properties) :
    ShowsGroup withProperties group (groupJson (ofGroup withProperties group)) ∧
      FloatFree (groupJson (ofGroup withProperties group)) := by
  have member := isMember_propertiesMember listable
  have items : List.Forall₂ (ShowsChannel withProperties) group.channels.values
      ((ofGroup withProperties group).channels.map channelJson) := by
    rw [ofGroup, List.map_map, List.forall₂_map_right_iff, List.forall₂_same]
    exact fun channel listed => (showsChannel (inside channel listed)).1
  have free : FloatFree (.array ((ofGroup withProperties group).channels.map channelJson)) := by
    rw [ofGroup, List.map_map]
    refine .array (List.forall_mem_map.2 ?_)
    exact fun channel listed => (showsChannel (inside channel listed)).2
  refine ⟨?_, .object ?_⟩
  · exact {
      names := by simp [groupJson, ofGroup, Json.names, ← member.names]
      name := rfl
      properties := by
        simpa [groupJson, ofGroup, Json.member?, lookup_append, OrderedMap.lookup]
          using member.shown
      channels := by
        refine ⟨_, ?_, items⟩
        simp [groupJson, ofGroup, Json.member?, lookup_append, OrderedMap.lookup,
          member.only "channels"] }
  · rw [List.forall_mem_append, List.forall_mem_append]
    refine ⟨⟨?_, member.free⟩, List.forall_mem_singleton.2 free⟩
    simp [FloatFree.string]

theorem showsFile (path : String) (listable : Listable withProperties file.properties)
    (groups : ∀ group ∈ file.catalogue.groups.values, Listable withProperties group.properties ∧
      ∀ channel ∈ group.channels.values, Listable withProperties channel.properties) :
    ShowsFile path withProperties file (ofFile path file withProperties).toJson ∧
      FloatFree (ofFile path file withProperties).toJson := by
  have member := isMember_propertiesMember listable
  have items : List.Forall₂ (ShowsGroup withProperties) file.catalogue.groups.values
      ((file.catalogue.groups.values.map (ofGroup withProperties)).map groupJson) := by
    rw [List.map_map, List.forall₂_map_right_iff, List.forall₂_same]
    exact fun group listed => (showsGroup (groups group listed).1 (groups group listed).2).1
  have free : FloatFree
      (.array ((file.catalogue.groups.values.map (ofGroup withProperties)).map groupJson)) := by
    refine .array (List.forall_mem_map.2 (List.forall_mem_map.2 ?_))
    exact fun group listed => (showsGroup (groups group listed).1 (groups group listed).2).2
  rw [ofFile_eq]
  refine ⟨?_, .object ?_⟩
  · exact {
      names := by
        cases truncated : file.truncatedAt with
        | none | some _ =>
          simp [toJson, Json.names, ← member.names, File.isTruncated, truncated]
      path := rfl
      segments := rfl
      truncatedAt := by
        cases file.truncatedAt with
        | none =>
          simp [toJson, Json.member?, lookup_append, OrderedMap.lookup, member.only "truncated_at"]
        | some _ => simp [toJson, Json.member?, OrderedMap.lookup]
      properties := by
        cases file.truncatedAt with
        | none | some _ =>
          simpa [toJson, Json.member?, lookup_append, OrderedMap.lookup] using member.shown
      groups := by
        refine ⟨_, ?_, items⟩
        cases file.truncatedAt with
        | none | some _ =>
          simp [toJson, Json.member?, lookup_append, OrderedMap.lookup, member.only "groups"] }
  · rw [List.forall_mem_append, List.forall_mem_append, List.forall_mem_append]
    refine ⟨⟨⟨?_, ?_⟩, member.free⟩, List.forall_mem_singleton.2 free⟩
    · simp [FloatFree.string, FloatFree.int]
    · cases file.truncatedAt with
      | none => simp
      | some _ => simp [FloatFree.int]

end Listing

/-! ## Open files -/

theorem OrderedMap.nodup_keys_empty {κ α : Type} [DecidableEq κ] :
    (OrderedMap.empty : OrderedMap κ α).keys.Nodup :=
  List.nodup_nil

theorem OrderedMap.nodup_keys_insertAll {κ α : Type} [DecidableEq κ] {map : OrderedMap κ α}
    (distinct : map.keys.Nodup) (pairs : List (κ × α)) : (map.insertAll pairs).keys.Nodup := by
  induction pairs generalizing map with
  | nil => exact distinct
  | cons pair rest ih => exact ih (nodup_keys_insert distinct pair.1 pair.2)

namespace Catalogue

variable {catalogue : Catalogue}

theorem Named.groupAt_of_mem (named : catalogue.Named) {group : Group}
    (listed : group ∈ catalogue.groups.values) : catalogue.groupAt group.name = group := by
  rcases List.mem_map.1 listed with ⟨⟨key, group⟩, held, rfl⟩
  have found := (OrderedMap.get?_eq_some_iff named.distinct).2 held
  rw [(named.group_named key group found).name_eq, Catalogue.groupAt, found]
  rfl

theorem Named.channelAt_of_mem (named : catalogue.Named) {group : Group}
    (listed : group ∈ catalogue.groups.values) {channel : Channel}
    (inside : channel ∈ group.channels.values) :
    catalogue.channelAt group.name channel.name = channel := by
  rcases List.mem_map.1 listed with ⟨⟨key, group⟩, held, rfl⟩
  have found := (OrderedMap.get?_eq_some_iff named.distinct).2 held
  have within := named.group_named key group found
  rcases List.mem_map.1 inside with ⟨⟨name, channel⟩, stands, rfl⟩
  have here := (OrderedMap.get?_eq_some_iff within.distinct).2 stands
  apply channelAt_of_channel?
  rw [within.name_eq, (within.channel_named name channel here).2, channel?, found]
  exact here

end Catalogue

theorem File.propertiesAt_eq (opened : File.ofSource source recover = .ok file)
    (path : ObjectPath) : file.catalogue.propertiesAt path =
      OrderedMap.insertAll .empty (Directory.pairsAt path (Walk.allRecords source)) := by
  have noted := Catalogue.directory_of_build (File.of_ofSource opened).2
  rw [Directory.foldl_note] at noted
  exact congrFun (congrArg Directory.properties noted) path

/-- No object of an open file has two properties of one name. -/
theorem File.nodup_properties (opened : File.ofSource source recover = .ok file)
    (path : ObjectPath) : (file.catalogue.propertiesAt path).keys.Nodup := by
  rw [File.propertiesAt_eq opened]
  exact OrderedMap.nodup_keys_insertAll OrderedMap.nodup_keys_empty _

/-- A file is plain if no record in it writes a float. -/
theorem File.plain_of_records (opened : File.ofSource source recover = .ok file)
    (plain : ∀ record ∈ Walk.allRecords source, ∀ pair ∈ record.properties, pair.2.IsPlain) :
    file.Plain := by
  intro path entry listed
  have found := (OrderedMap.get?_eq_some_iff (File.nodup_properties opened path)).2 listed
  rw [File.propertiesAt_eq opened, OrderedMap.get?_insertAll] at found
  rcases Option.map_eq_some_iff.1 found with ⟨pair, last, same⟩
  have written := List.mem_reverse.1 (List.mem_of_find?_eq_some last)
  rcases List.mem_flatMap.1 written with ⟨record, held, stands⟩
  split at stands
  · exact same ▸ plain record held pair stands
  · cases stands

namespace Listing

/-- The text is JSON. It means the listing of the file, and nothing else. -/
structure Reads (path : String) (withProperties : Bool) (file : File) (text : String) : Prop where
  parsed : ∃ document, Json.parse? text = some document ∧
    ShowsFile path withProperties file document
  means_iff : ∀ value, Means text value ↔ ShowsFile path withProperties file value

theorem reads_of_means {path text : String} {document : Json} (means : Means text document)
    (shown : ShowsFile path withProperties file document) :
    Reads path withProperties file text where
  parsed := ⟨document, (Json.parse?_eq_some_iff text document).2 means, shown⟩
  means_iff _ :=
    ⟨fun same => Json.means_unique means same ▸ shown, fun same => shown.unique same ▸ means⟩

/-- The JSON listing of an open file is read back from its text, which shows the path, the segments,
and every group, channel and property of the file, and nothing else. No property may be a float
where properties are listed. The command prints such a text when it is asked for JSON. -/
theorem reads_pretty (opened : File.ofSource source recover = .ok file) (path : String)
    (plain : withProperties = true → file.Plain) :
    Reads path withProperties file (ofFile path file withProperties).toJson.pretty ∧
      ∀ options : Options, options.path = path → options.properties = withProperties →
        options.json = true → options.channels = [] →
          ∃ text, Command.output options file = .ok text ∧
            Reads path withProperties file text := by
  have named := (Catalogue.Tracks.of_build (File.of_ofSource opened).2).named
  have listable (object : ObjectPath) :
      Listable withProperties (file.catalogue.propertiesAt object) :=
    ⟨File.nodup_properties opened object, fun asked => plain asked object⟩
  have inside : ∀ group ∈ file.catalogue.groups.values,
      Listable withProperties group.properties ∧
        ∀ channel ∈ group.channels.values, Listable withProperties channel.properties := by
    intro group listed
    refine ⟨?_, fun channel held => ?_⟩
    · have here := listable (.group group.name)
      rwa [Catalogue.propertiesAt, named.groupAt_of_mem listed] at here
    · have here := listable (.channel group.name channel.name)
      rwa [Catalogue.propertiesAt, named.channelAt_of_mem listed held] at here
  rcases showsFile path (listable .root) inside with ⟨shown, free⟩
  rcases Json.means_pretty free with ⟨plainly, ended⟩
  refine ⟨reads_of_means plainly shown, fun options samePath sameProperties json none => ?_⟩
  refine ⟨_, ?_, reads_of_means ended shown⟩
  rw [Command.output, none, samePath, sameProperties, json]
  rfl

/-- A file that only describes: texts with quotes and line breaks, and the least and the greatest
integers that a property can have. -/
def describing : ByteArray :=
  Draft.file [
    { contents := ⟨0x06⟩
      objects := [
        ⟨.root, .noData, [("title", ⟨.string, "a \"b\"\n\\c"⟩), ("on", ⟨.boolean, true⟩)]⟩,
        ⟨.channel "g\t" "/c'", .noData, [("low", ⟨.int64, Int64.minValue⟩),
          ("high", ⟨.uint64, 0xFFFFFFFFFFFFFFFF⟩), ("at", ⟨.timestamp, ⟨0, 0⟩⟩)]⟩]
      rounds := []
      unfinished := false }]

theorem reads_pretty_describing :
    ∃ file, File.ofSource (.ofBytes describing) false = .ok file ∧ file.Plain ∧
      file.groups = ["g\t"] ∧
      Reads "a\"b" true file (ofFile "a\"b" file true).toJson.pretty := by
  have opens : (File.ofSource (.ofBytes describing) false).toOption.isSome = true := by
    decide +kernel
  rcases Outcome.exists_of_isSome opens with ⟨file, opened⟩
  have writes : ∀ record ∈ Walk.allRecords (.ofBytes describing),
      ∀ pair ∈ record.properties, pair.2.IsPlain := by decide +kernel
  have plain := File.plain_of_records opened writes
  have lists := (File.lists_of_noted (Catalogue.Tracks.of_build (File.of_ofSource opened).2).named
    (Catalogue.directory_of_build (File.of_ofSource opened).2))
  have named : groupNames (Walk.allRecords (.ofBytes describing)) = ["g\t"] := by decide +kernel
  exact ⟨file, opened, plain, lists.groups_eq.trans named,
    (reads_pretty opened "a\"b" fun _ => plain).1⟩

end Listing

end Tdms
