import Mathlib
import Tdms.Proofs.Naming

/-!
The types that records declare for channels.

`firstType` is the type that an object declares first. A catalogue gives every
channel that type, and a record that declares another one is refused: it
contradicts the records before it, which agree among each other. `Declared`
carries this through all records of all segments. A record that refers to an
earlier declaration gives its type once more and is never refused for it.
-/

namespace Tdms

open Metadata (RawIndex Record Declaration)

variable {records before : List Record} {record : Record} {source : Source}

/-! ## Declared types -/

/-- The type that a declaration gives, if it has a raw data index of its own. -/
def Metadata.Declaration.type? : Declaration → Option ScalarType
  | .new index => some index.type
  | .noData | .matchesPrevious => none

/-- The type that a record declares for the object at `path`, if it is about that object. -/
def Metadata.Record.typeFor? (path : ObjectPath) (record : Record) : Option ScalarType :=
  if record.path = path then record.declaration.type? else none

/-- The type that the object at `path` declares first. -/
def firstType (path : ObjectPath) (records : List Record) : Option ScalarType :=
  records.findSome? (Record.typeFor? path)

/-- Every object that declares raw data declares the type that it declared first. -/
def Unanimous (records : List Record) : Prop :=
  ∀ record ∈ records, ∀ index, record.declaration = .new index →
    firstType record.path records = some index.type

/-- The record declares a type for a channel that declared another one first, and the records
before it agree. -/
structure Contradicts (before : List Record) (record : Record) (path : String)
    (existing found : ScalarType) : Prop where
  unanimous : Unanimous before
  channel : ∃ owner name, record.path = .channel owner name ∧
    path = (ObjectPath.channel owner name).render
  declares : ∃ index, record.declaration = .new index ∧ index.type = found
  first : firstType record.path before = some existing
  other : existing ≠ found

theorem firstType_append (path : ObjectPath) (records others : List Record) :
    firstType path (records ++ others) = (firstType path records).or (firstType path others) :=
  List.findSome?_append

theorem firstType_singleton (path : ObjectPath) (record : Record) :
    firstType path [record] = record.typeFor? path := by
  rw [firstType, List.findSome?_cons, List.findSome?_nil]
  cases record.typeFor? path with
  | none => rfl
  | some type => rfl

/-- All declarations are well formed that the metadata of a segment holds. -/
theorem wellFormed_of_records (segment : Segment) :
    ∀ record ∈ Walk.records segment, ∀ index, record.declaration = .new index →
      index.WellFormed := by
  intro record listed index declares
  unfold Walk.records at listed
  split at listed
  · cases listed
  · split at listed
    · rename_i decoded
      exact Metadata.declared_of_decode decoded listed declares
    · cases listed

namespace Catalogue

variable {catalogue next : Catalogue} {offset : Nat} {segment : Segment}

/-! ## One record -/

/-- The plain reader may remember just what the catalogue has. -/
theorem Follows.self (catalogue : Catalogue) :
    catalogue.Follows ⟨catalogue.active.entries, catalogue.declared.get?⟩ :=
  ⟨rfl, fun _ => rfl⟩

/-- A record that gives its object no raw data says so. -/
theorem noData_of_resolve (resolved : catalogue.resolve offset record = .ok none) :
    record.declaration = .noData := by
  unfold resolve at resolved
  split at resolved
  · assumption
  · cases resolved
  · split at resolved
    · cases resolved
    · cases resolved

/-- A record that gives its object raw data declares it anew or refers to what the object declared
last. -/
theorem new_or_declared_of_resolve {index : RawIndex}
    (resolved : catalogue.resolve offset record = .ok (some index)) :
    record.declaration = .new index ∨
      (record.declaration = .matchesPrevious ∧
        catalogue.declared.get? record.path = some index) := by
  unfold resolve at resolved
  split at resolved
  · cases resolved
  · rename_i found declares
    cases resolved
    exact .inl declares
  · rename_i refers
    split at resolved
    · rename_i found earlier
      cases resolved
      exact .inr ⟨refers, earlier⟩
    · cases resolved

/-- What a record does to the types of channels. Either it gives no raw data and changes none, or
it declares raw data for a channel, anew or as before, that has no other type. -/
theorem types_of_applyRecord (applied : applyRecord offset catalogue record = .ok next) :
    (record.declaration = .noData ∧ ∀ owner name,
        (next.channelAt owner name).type = (catalogue.channelAt owner name).type) ∨
      ∃ index owner name, catalogue.resolve offset record = .ok (some index) ∧
        record.path = .channel owner name ∧
        (∀ type, (catalogue.channelAt owner name).type = some type → type = index.type) ∧
        ∀ group channel, (next.channelAt group channel).type =
          if group = owner ∧ channel = name then some index.type
          else (catalogue.channelAt group channel).type := by
  rcases applyRecord_eq_ok.1 applied with ⟨index?, declared, resolved, stored, rfl⟩
  have described := describes_describe declared record.path record.properties
  cases index? with
  | none =>
    cases stored
    exact .inl ⟨noData_of_resolve resolved, described.type_eq⟩
  | some index =>
    rcases declares_of_declare stored with ⟨owner, name, path, declares⟩
    refine .inr ⟨index, owner, name, resolved, path, declares.type_fits, fun group channel => ?_⟩
    refine (described.type_eq group channel).trans ?_
    rw [declares.channelAt_eq]
    split
    · rfl
    · rfl

/-- A record leaves a channel the type that it has, and gives it the one that the record declares
if it has none. -/
theorem type_applyRecord (typed : catalogue.Typed)
    (applied : applyRecord offset catalogue record = .ok next) (owner name : String) :
    (next.channelAt owner name).type =
      ((catalogue.channelAt owner name).type).or (record.typeFor? (.channel owner name)) := by
  rcases types_of_applyRecord applied with
    ⟨silent, same⟩ | ⟨index, group, channel, resolved, path, fits, types⟩
  · rw [same, Record.typeFor?, silent, Declaration.type?, ite_self, Option.or_none]
  · rw [types, Record.typeFor?, path]
    by_cases here : owner = group ∧ name = channel
    · rcases here with ⟨rfl, rfl⟩
      rw [if_pos ⟨rfl, rfl⟩, if_pos rfl]
      cases known : (catalogue.channelAt owner name).type with
      | some type => rw [fits type known, Option.some_or]
      | none =>
        rcases new_or_declared_of_resolve resolved with declares | ⟨-, earlier⟩
        · rw [declares]
          rfl
        · -- What was declared before has given the channel a type.
          have type := typed.type_of_declared (path ▸ earlier)
          rw [known] at type
          cases type
    · have elsewhere : ObjectPath.channel group channel ≠ .channel owner name := by
        intro same
        rcases ObjectPath.channel.inj same with ⟨rfl, rfl⟩
        exact here ⟨rfl, rfl⟩
      rw [if_neg here, if_neg elsewhere, Option.or_none]

/-- A raw data index is declared for a channel, which then has its type. -/
theorem type_of_new {index : RawIndex}
    (applied : applyRecord offset catalogue record = .ok next)
    (declares : record.declaration = .new index) :
    ∃ owner name, record.path = .channel owner name ∧
      (next.channelAt owner name).type = some index.type := by
  rcases types_of_applyRecord applied with
    ⟨silent, -⟩ | ⟨given, owner, name, resolved, path, -, types⟩
  · rw [declares] at silent
    cases silent
  · rw [resolve, declares] at resolved
    cases resolved
    exact ⟨owner, name, path, by rw [types, if_pos ⟨rfl, rfl⟩]⟩

/-- Declaring raw data is refused for its type if the channel has another one. -/
theorem inconsistent_of_declare {place : ObjectPath} {index : RawIndex} {path : String}
    {existing found : ScalarType} (refused : catalogue.declare offset place index =
      .error (.inconsistentType path existing found)) :
    ∃ owner name, place = .channel owner name ∧
      path = (ObjectPath.channel owner name).render ∧ index.type = found ∧
      (catalogue.channelAt owner name).type = some existing ∧ existing ≠ found := by
  unfold declare at refused
  split at refused
  · rename_i owner name
    rw [bind_type] at refused
    split at refused
    · rename_i known
      split at refused
      · cases refused
      · rename_i other
        cases refused
        exact ⟨owner, name, rfl, rfl, rfl, known, other⟩
    · cases refused
  · cases refused
  · cases refused

/-- A record is refused for its type only if it declares another one than its channel has. -/
theorem inconsistent_of_applyRecord {path : String} {existing found : ScalarType}
    (typed : catalogue.Typed) (failed : applyRecord offset catalogue record =
      .error (.inconsistentType path existing found)) :
    ∃ owner name index, record.path = .channel owner name ∧
      path = (ObjectPath.channel owner name).render ∧ record.declaration = .new index ∧
      index.type = found ∧ (catalogue.channelAt owner name).type = some existing ∧
      existing ≠ found := by
  rw [applyRecord] at failed
  rcases Outcome.bind_eq_error.1 failed with unresolved | ⟨index?, resolved, refused⟩
  · unfold resolve at unresolved
    split at unresolved
    · cases unresolved
    · cases unresolved
    · split at unresolved
      · cases unresolved
      · cases unresolved
  · cases index? with
    | none => cases refused
    | some index =>
      rcases Outcome.bind_eq_error.1 refused with undeclared | ⟨declared, -, none⟩
      · rcases inconsistent_of_declare undeclared with
          ⟨owner, name, place, rendered, type, known, other⟩
        refine ⟨owner, name, index, place, rendered, ?_, type, known, other⟩
        rcases new_or_declared_of_resolve resolved with declares | ⟨-, earlier⟩
        · exact declares
        · -- What the channel declared last has the type of the channel.
          have same := typed.type_of_declared (place ▸ earlier)
          rw [known, type] at same
          exact absurd (Option.some.inj same) other
      · cases none

/-! ## All records -/

/-- Channels have the types that some records declare for them first, and all of these agree. -/
structure Declared (catalogue : Catalogue) (records : List Record) : Prop where
  typed : catalogue.Typed
  type_eq : ∀ owner name,
    (catalogue.channelAt owner name).type = firstType (.channel owner name) records
  unanimous : Unanimous records
  channels : ∀ record ∈ records, ∀ index, record.declaration = .new index →
    ∃ owner name, record.path = .channel owner name

namespace Declared

theorem empty : Catalogue.empty.Declared [] :=
  ⟨.empty, fun _ _ => rfl, nofun, nofun⟩

theorem of_record (declared : catalogue.Declared before)
    (well : ∀ index, record.declaration = .new index → index.WellFormed)
    (applied : applyRecord offset catalogue record = .ok next) :
    next.Declared (before ++ [record]) := by
  have types : ∀ owner name, (next.channelAt owner name).type =
      firstType (.channel owner name) (before ++ [record]) := by
    intro owner name
    rw [type_applyRecord declared.typed applied, declared.type_eq, firstType_append,
      firstType_singleton]
  refine ⟨(Taken.of_record declared.typed (.self catalogue) well applied).typed, types, ?_, ?_⟩
  · intro other listed index declares
    rcases List.mem_append.1 listed with early | last
    · rw [firstType_append, declared.unanimous other early index declares, Option.some_or]
    · rcases List.mem_singleton.1 last with rfl
      rcases type_of_new applied declares with ⟨owner, name, path, type⟩
      rw [path, ← types, type]
  · intro other listed index declares
    rcases List.mem_append.1 listed with early | last
    · exact declared.channels other early index declares
    · rcases List.mem_singleton.1 last with rfl
      rcases type_of_new applied declares with ⟨owner, name, path, -⟩
      exact ⟨owner, name, path⟩

theorem of_records (declared : catalogue.Declared before)
    (well : ∀ record ∈ records, ∀ index, record.declaration = .new index → index.WellFormed)
    (applied : records.foldlM (applyRecord offset) catalogue = .ok next) :
    next.Declared (before ++ records) := by
  induction records generalizing catalogue before with
  | nil =>
    cases applied
    rw [List.append_nil]
    exact declared
  | cons record rest ih =>
    rcases Outcome.foldlM_cons_eq_ok.1 applied with ⟨middle, first, later⟩
    rcases List.forall_mem_cons.1 well with ⟨one, others⟩
    have all := ih (declared.of_record one first) others later
    rwa [List.append_assoc] at all

theorem clear (declared : catalogue.Declared before) :
    Declared { catalogue with active := .empty } before :=
  ⟨declared.typed.clear, declared.type_eq, declared.unanimous, declared.channels⟩

theorem of_applyRecords (declared : catalogue.Declared before)
    (well : ∀ record ∈ records, ∀ index, record.declaration = .new index → index.WellFormed)
    (applied : catalogue.applyRecords segment records = .ok next) :
    next.Declared (before ++ records) := by
  unfold applyRecords at applied
  split at applied
  · exact declared.clear.of_records well applied
  · exact declared.of_records well applied

theorem of_apply (declared : catalogue.Declared before)
    (applied : catalogue.apply segment = .ok next) :
    next.Declared (before ++ Walk.records segment) := by
  rcases apply_eq_ok.1 applied with ⟨described, recorded, -, rfl⟩
  have noted : described.Declared (before ++ Walk.records segment) := by
    rcases applyMetadata_eq_ok.1 recorded with
      ⟨absent, rfl⟩ | ⟨block, records, present, decoded, taken⟩
    · rw [records_of_none absent, List.append_nil]
      exact declared
    · have well := wellFormed_of_records segment
      rw [records_of_decode present decoded] at well ⊢
      exact declared.of_applyRecords well taken
  have only : described.OnlyRuns (described.placed segment) := onlyRuns_pushSlots described _
  have kept := only.typed noted.typed
  exact ⟨⟨kept.1, kept.2, kept.3, kept.4, kept.5⟩,
    fun owner name => (only.type_eq owner name).trans (noted.type_eq owner name),
    noted.unanimous, noted.channels⟩

theorem of_segments {segments : List Segment} (declared : catalogue.Declared before)
    (applied : segments.foldlM Catalogue.apply catalogue = .ok next) :
    next.Declared (before ++ segments.flatMap Walk.records) := by
  induction segments generalizing catalogue before with
  | nil =>
    cases applied
    rw [List.flatMap_nil, List.append_nil]
    exact declared
  | cons segment rest ih =>
    rcases Outcome.foldlM_cons_eq_ok.1 applied with ⟨middle, first, later⟩
    rw [List.flatMap_cons, ← List.append_assoc]
    exact ih (declared.of_apply first) later

/-- A record that is refused for its type contradicts the records before it. -/
theorem contradicts {path : String} {existing found : ScalarType}
    (declared : catalogue.Declared before)
    (failed : applyRecord offset catalogue record =
      .error (.inconsistentType path existing found)) :
    Contradicts before record path existing found := by
  rcases inconsistent_of_applyRecord declared.typed failed with
    ⟨owner, name, index, place, rendered, declares, type, known, other⟩
  refine ⟨declared.unanimous, ⟨owner, name, place, rendered⟩, ⟨index, declares, type⟩, ?_, other⟩
  rw [place, ← declared.type_eq, known]

end Declared

/-! ## The record that is refused -/

/-- Taking up the segments of a source comes, after the records `before`, to this record of this
segment with this catalogue. -/
def Meets (source : Source) (before : List Record) (segment : Segment) (record : Record)
    (catalogue : Catalogue) : Prop :=
  ∃ done early start, done ++ [segment] <+: (scan source).segments ∧
    early ++ [record] <+: Walk.records segment ∧
    before = done.flatMap Walk.records ++ early ∧
    done.foldlM apply empty = .ok start ∧ start.applyRecords segment early = .ok catalogue

theorem Meets.declared (meets : Meets source before segment record catalogue) :
    catalogue.Declared before := by
  rcases meets with ⟨done, early, start, -, ⟨late, whole⟩, rfl, applied, recorded⟩
  have well : ∀ record ∈ early, ∀ index, record.declaration = .new index →
      index.WellFormed := by
    intro other listed
    apply wellFormed_of_records segment
    rw [← whole, List.append_assoc]
    exact List.mem_append_left _ listed
  have first := Declared.empty.of_segments applied
  rw [List.nil_append] at first
  exact first.of_applyRecords well recorded

/-- The records up to the one that is met are the first records of the source. -/
theorem Meets.records_listed (meets : Meets source before segment record catalogue) :
    before ++ [record] <+: Walk.allRecords source := by
  rcases meets with ⟨done, early, start, ⟨rest, segments⟩, ⟨late, whole⟩, rfl, -, -⟩
  refine ⟨late ++ rest.flatMap Walk.records, ?_⟩
  rw [Walk.allRecords, ← segments, List.flatMap_append, List.flatMap_append,
    List.flatMap_singleton, ← whole]
  simp only [List.append_assoc]

/-- A segment is refused for a type when one of its records is. -/
theorem inconsistent_of_apply {path : String} {existing found : ScalarType}
    (failed : catalogue.apply segment = .error (.inconsistentType path existing found)) :
    ∃ early record middle, early ++ [record] <+: Walk.records segment ∧
      catalogue.applyRecords segment early = .ok middle ∧
      applyRecord segment.offset middle record =
        .error (.inconsistentType path existing found) := by
  rcases apply_eq_error failed with recorded | ⟨fault, other⟩
  · unfold applyMetadata at recorded
    split at recorded
    · cases recorded
    · rename_i block present
      split at recorded
      · cases recorded
      · cases recorded
      · rename_i records decoded
        rcases Outcome.foldlM_eq_error recorded with
          ⟨early, record, late, middle, rfl, taken, refused⟩
        refine ⟨early, record, middle, ⟨late, ?_⟩, taken, refused⟩
        rw [records_of_decode present decoded, List.append_assoc, List.singleton_append]
  · cases other

/-- Building is refused for a type when a record that it comes to is. -/
theorem inconsistent_of_build {recover : Bool} {path : String} {existing found : ScalarType}
    {content : ByteArray} (grants : source.Grants content)
    (failed : build source recover = .error (.inconsistentType path existing found)) :
    ∃ before segment record catalogue, Meets source before segment record catalogue ∧
      applyRecord segment.offset catalogue record =
        .error (.inconsistentType path existing found) := by
  rw [build] at failed
  split at failed
  · rename_i folded
    cases failed
    rcases Outcome.foldlM_eq_error folded with
      ⟨done, segment, rest, start, segments, taken, refused⟩
    rcases inconsistent_of_apply refused with ⟨early, record, middle, listed, reached, stopped⟩
    refine ⟨_, segment, record, middle,
      ⟨done, early, start, ⟨rest, ?_⟩, listed, rfl, taken, reached⟩, stopped⟩
    rw [segments, List.append_assoc, List.singleton_append]
  · split at failed
    · cases failed
    · split at failed
      · cases failed
      · cases failed
    · rename_i ended
      cases failed
      exact (scanFrom_fails grants 0 0 _ ended).elim

end Catalogue

/-! ## Open files -/

/-- What a channel declares has one type in the whole file, which is the type of the channel. A
file that is refused for a type is refused at the first record that declares another type than
its channel did before. A record that refers to an earlier declaration is never refused for its
type. -/
theorem File.types_of_ofBytes (content : ByteArray) (recover : Bool) :
    (∀ file, File.ofBytes content recover = .ok file →
      (∀ record ∈ Walk.allRecords (.ofBytes content), ∀ index,
        record.declaration = .new index → ∃ owner name channel,
          record.path = .channel owner name ∧ file.channel owner name = .ok channel ∧
            channel.type = some index.type) ∧
      ∀ owner name channel, file.channel owner name = .ok channel →
        channel.type = firstType (.channel owner name) (Walk.allRecords (.ofBytes content))) ∧
    (∀ path existing found,
      File.ofBytes content recover = .error (.inconsistentType path existing found) →
        ∃ before segment record catalogue,
          Catalogue.Meets (.ofBytes content) before segment record catalogue ∧
          before ++ [record] <+: Walk.allRecords (.ofBytes content) ∧
          Catalogue.applyRecord segment.offset catalogue record =
            .error (.inconsistentType path existing found) ∧
          Contradicts before record path existing found) ∧
    ∀ before segment record catalogue,
      Catalogue.Meets (.ofBytes content) before segment record catalogue →
        record.declaration = .matchesPrevious → ∀ path existing found,
          Catalogue.applyRecord segment.offset catalogue record ≠
            .error (.inconsistentType path existing found) := by
  refine ⟨fun file opened => ?_, fun path existing found failed => ?_, ?_⟩
  · rcases File.of_ofBytes opened with ⟨-, built⟩
    have declared := Catalogue.Declared.empty.of_segments (Catalogue.foldlM_of_build built)
    rw [List.nil_append] at declared
    have lists := (File.lists_of_ofSource opened).2.2
    constructor
    · intro record listed index declares
      rcases declared.channels record listed index declares with ⟨owner, name, path⟩
      rcases lists.channel owner name ⟨record, listed, path⟩ with ⟨channel, looked, -⟩
      refine ⟨owner, name, channel, path, looked, ?_⟩
      rw [← Catalogue.channelAt_of_channel? (Catalogue.channel?_of_channel looked),
        declared.type_eq, ← path]
      exact declared.unanimous record listed index declares
    · intro owner name channel looked
      rw [← Catalogue.channelAt_of_channel? (Catalogue.channel?_of_channel looked)]
      exact declared.type_eq owner name
  · have refused := File.ofSource_eq_error_iff.1 failed
    rcases Catalogue.inconsistent_of_build (grants_ofBytes content) refused with
      ⟨before, segment, record, catalogue, meets, stopped⟩
    exact ⟨before, segment, record, catalogue, meets, meets.records_listed, stopped,
      meets.declared.contradicts stopped⟩
  · intro before segment record catalogue meets refers path existing found stopped
    rcases (meets.declared.contradicts stopped).declares with ⟨index, declares, -⟩
    rw [refers] at declares
    cases declares

/-- A file whose one segment declares a channel with values of two bytes, then with values of
four. -/
def contradictoryFile : ByteArray :=
  ⟨#[84, 68, 83, 109, 6, 0, 0, 0, 105, 18, 0, 0, 76, 0, 0, 0, 0, 0, 0, 0, 76, 0, 0, 0, 0, 0, 0, 0,
    2, 0, 0, 0, 8, 0, 0, 0, 47, 39, 103, 39, 47, 39, 97, 39, 20, 0, 0, 0, 2, 0, 0, 0, 1, 0, 0, 0,
    1, 0, 0, 0, 0, 0, 0, 0, 0, 0, 0, 0, 8, 0, 0, 0, 47, 39, 103, 39, 47, 39, 97, 39, 20, 0, 0, 0,
    3, 0, 0, 0, 1, 0, 0, 0, 1, 0, 0, 0, 0, 0, 0, 0, 0, 0, 0, 0]⟩

theorem File.types_contradictory :
    ∃ before segment record catalogue,
      Catalogue.Meets (.ofBytes contradictoryFile) before segment record catalogue ∧
        File.ofBytes contradictoryFile false = .error (.inconsistentType "/'g'/'a'" .int16 .int32) ∧
        Contradicts before record "/'g'/'a'" .int16 .int32 := by
  have unbuilt : (File.ofBytes contradictoryFile false).map File.catalogue =
      .error (.inconsistentType "/'g'/'a'" .int16 .int32) := by decide +kernel
  have refused := Outcome.map_eq_error.1 unbuilt
  rcases (File.types_of_ofBytes contradictoryFile false).2.1 _ _ _ refused with
    ⟨before, segment, record, catalogue, meets, -, -, contradicts⟩
  exact ⟨before, segment, record, catalogue, meets, refused, contradicts⟩

end Tdms
