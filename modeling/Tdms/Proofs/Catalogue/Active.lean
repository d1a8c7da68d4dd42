import Mathlib
import Tdms.Proofs.Catalogue.Positions
import Tdms.Proofs.Catalogue.Types
import Tdms.Proofs.Layout.Visits

/-!
The active objects of a catalogue, as the records of a file make them.

`Roster.note` merges one record into the active objects: its object gets the
raw data of the record where it stands, or is put last. What an object declared
last is looked up among all records before, by `lastNew`, and nothing is
remembered beside them. `Recalls` says that a catalogue remembers just that;
every record keeps it, so that `active_merges` can state what the active objects
are, and which records are refused, for every catalogue that segments lead to.
-/

namespace Tdms

open Metadata (RawIndex Record Declaration)

/-- The raw data index that a record declares anew for the object at `path`. -/
def Metadata.Record.newFor? (path : ObjectPath) (record : Record) : Option RawIndex :=
  if record.path = path then
    match record.declaration with
    | .new index => some index
    | .noData | .matchesPrevious => none
  else none

/-- The raw data index that the last record declares which declares one anew for the object at
`path`. -/
def lastNew (path : ObjectPath) (records : List Record) : Option RawIndex :=
  records.reverse.findSome? (Record.newFor? path)

/-- The records of a file so far, and the active objects with their raw data in each chunk. -/
structure Roster where
  records : List Record
  active : List (ObjectPath × Option RawIndex)

namespace Roster

/-- The raw data that `record` gives its object. -/
def given (roster : Roster) (record : Record) : Option RawIndex :=
  match record.declaration with
  | .noData => none
  | .new index => some index
  | .matchesPrevious => lastNew record.path roster.records

/-- Takes up one record: its object is replaced in place, or put last. -/
def note (roster : Roster) (record : Record) : Roster where
  records := roster.records ++ [record]
  active := Walk.place record.path (roster.given record) roster.active

end Roster

theorem lastNew_append (path : ObjectPath) (records : List Record) (record : Record) :
    lastNew path (records ++ [record]) = (record.newFor? path).or (lastNew path records) := by
  rw [lastNew, List.reverse_append, List.reverse_singleton, List.singleton_append,
    List.findSome?_cons]
  cases record.newFor? path with
  | none => rfl
  | some index => rfl

namespace Catalogue

variable {catalogue next : Catalogue} {segment : Segment} {segments : List Segment} {offset : Nat}
  {record : Record} {records before : List Record}

/-! ## One record -/

/-- What a record makes of the active objects, and of what objects declared last. -/
theorem memory_of_applyRecord (applied : applyRecord offset catalogue record = .ok next) :
    ∃ index?, catalogue.resolve offset record = .ok index? ∧
      next.active = catalogue.active.insert record.path index? ∧
      ∀ path, next.declared.get? path =
        if path = record.path then index?.or (catalogue.declared.get? path)
        else catalogue.declared.get? path := by
  obtain ⟨index?, declared, resolved, stored, rfl⟩ := applyRecord_eq_ok.1 applied
  have described := describes_describe declared record.path record.properties
  cases index? with
  | none =>
    cases stored
    refine ⟨none, resolved, rfl, fun path => ?_⟩
    rw [Option.none_or, ite_self]
    exact congrArg (OrderedMap.get? · path) described.declared_eq
  | some index =>
    obtain ⟨owner, name, here, declares⟩ := declares_of_declare stored
    refine ⟨some index, resolved, ?_, fun path => ?_⟩
    · rw [← declares.active_eq]
    · have remembered := OrderedMap.get?_insert catalogue.declared (.channel owner name) path index
      rw [← declares.declared_eq, ← described.declared_eq, ← here] at remembered
      exact remembered

/-- A catalogue remembers for every object what it declared last in some records, and channels
have the types that they declared. -/
structure Recalls (catalogue : Catalogue) (records : List Record) : Prop where
  distinct : catalogue.active.keys.Nodup
  declared_eq : ∀ path, catalogue.declared.get? path = lastNew path records
  typed : ∀ path index, catalogue.declared.get? path = some index →
    ∃ owner name, path = .channel owner name ∧
      (catalogue.channelAt owner name).type = some index.type

namespace Recalls

theorem empty : Catalogue.empty.Recalls [] :=
  ⟨List.nodup_nil, fun _ => rfl, nofun⟩

theorem clear (recalls : catalogue.Recalls before) :
    Recalls { catalogue with active := .empty } before :=
  ⟨List.nodup_nil, recalls.declared_eq, recalls.typed⟩

/-- A record is given what the roster says. -/
theorem given_of_resolve (recalls : catalogue.Recalls before) {index? : Option RawIndex}
    (resolved : catalogue.resolve offset record = .ok index?)
    (active : List (ObjectPath × Option RawIndex)) :
    index? = Roster.given ⟨before, active⟩ record := by
  have follows : catalogue.Follows ⟨catalogue.active.entries, fun path => lastNew path before⟩ :=
    ⟨rfl, recalls.declared_eq⟩
  rw [resolve_eq_of_ok follows resolved]
  rfl

/-- After a record, its object has declared last what the record gives it, if anything. -/
theorem lastNew_of_resolve (recalls : catalogue.Recalls before) {index? : Option RawIndex}
    (resolved : catalogue.resolve offset record = .ok index?) (path : ObjectPath) :
    lastNew path (before ++ [record]) =
      if path = record.path then index?.or (lastNew path before) else lastNew path before := by
  rw [lastNew_append, Record.newFor?]
  by_cases here : record.path = path
  · rw [if_pos here, if_pos here.symm]
    cases index? with
    | none =>
      rw [noData_of_resolve resolved]
    | some index =>
      rcases new_or_declared_of_resolve resolved with anew | ⟨refers, earlier⟩
      · rw [anew]
      · rw [refers, ← recalls.declared_eq, ← here, earlier]
        rfl
  · rw [if_neg here, if_neg (Ne.symm here), Option.none_or]

/-- Channels keep the types that they declared. -/
theorem typed_of_record (recalls : catalogue.Recalls before)
    (applied : applyRecord offset catalogue record = .ok next) {path : ObjectPath}
    {index : RawIndex} (found : next.declared.get? path = some index) :
    ∃ owner name, path = .channel owner name ∧
      (next.channelAt owner name).type = some index.type := by
  obtain ⟨index?, resolved, -, declared⟩ := memory_of_applyRecord applied
  rw [declared] at found
  rcases types_of_applyRecord applied with
    ⟨silent, same⟩ | ⟨given, owner, name, again, here, -, types⟩
  · have none : index? = none := by
      rw [resolve, silent] at resolved
      exact (Except.ok.inj resolved).symm
    rw [none, Option.none_or, ite_self] at found
    obtain ⟨owner, name, place, type⟩ := recalls.typed path index found
    exact ⟨owner, name, place, (same owner name).trans type⟩
  · obtain rfl := Except.ok.inj (resolved.symm.trans again)
    split at found
    · rename_i same
      obtain rfl := Option.some.inj found
      refine ⟨owner, name, same.trans here, ?_⟩
      rw [types, if_pos ⟨rfl, rfl⟩]
    · rename_i elsewhere
      obtain ⟨group, channel, place, type⟩ := recalls.typed path index found
      refine ⟨group, channel, place, ?_⟩
      rw [types, if_neg, type]
      rintro ⟨rfl, rfl⟩
      exact elsewhere (place.trans here.symm)

/-- A record is merged into the active objects, and what its object declares is remembered. -/
theorem of_record (recalls : catalogue.Recalls before)
    (applied : applyRecord offset catalogue record = .ok next) :
    next.Recalls (before ++ [record]) ∧
      next.active.entries = (Roster.note ⟨before, catalogue.active.entries⟩ record).active := by
  obtain ⟨index?, resolved, active, declared⟩ := memory_of_applyRecord applied
  rw [active]
  refine ⟨⟨?_, fun path => ?_, fun path index => recalls.typed_of_record applied⟩, ?_⟩
  · rw [active]
    exact OrderedMap.nodup_keys_insert recalls.distinct record.path index?
  · rw [declared, recalls.lastNew_of_resolve resolved, recalls.declared_eq]
  · rw [OrderedMap.entries_insert recalls.distinct, Roster.note,
      ← recalls.given_of_resolve resolved catalogue.active.entries]
    rfl

/-- A record that refers to an earlier declaration is refused if there is none. -/
theorem refused_of_none (recalls : catalogue.Recalls before)
    (refers : record.declaration = .matchesPrevious) (none : lastNew record.path before = none)
    (offset : Nat) :
    applyRecord offset catalogue record =
      .error (.corruptMetadata offset (.neverDeclared record.path)) := by
  have unresolved : catalogue.resolve offset record =
      .error (.corruptMetadata offset (.neverDeclared record.path)) := by
    rw [resolve, refers]
    dsimp only
    rw [recalls.declared_eq, none]
  rw [applyRecord, unresolved]
  rfl

/-- A record that refers to an earlier declaration is taken up if there is one: the channel has the
type that it declared. -/
theorem exists_of_some (recalls : catalogue.Recalls before)
    (refers : record.declaration = .matchesPrevious) {index : RawIndex}
    (some : lastNew record.path before = some index) (offset : Nat) :
    ∃ next, applyRecord offset catalogue record = .ok next := by
  rw [← recalls.declared_eq] at some
  have resolved : catalogue.resolve offset record = .ok (.some index) := by
    rw [resolve, refers]
    dsimp only
    rw [some]
  obtain ⟨owner, name, here, type⟩ := recalls.typed _ _ some
  have declared : catalogue.declare offset record.path index =
      .ok { catalogue with declared := catalogue.declared.insert record.path index } := by
    rw [here, declare, bind_type, type]
    exact if_pos rfl
  exact ⟨_, applyRecord_eq_ok.2 ⟨.some index, _, resolved, declared, rfl⟩⟩

/-! ## All records -/

theorem of_records (recalls : catalogue.Recalls before)
    (applied : records.foldlM (applyRecord offset) catalogue = .ok next) :
    next.Recalls (before ++ records) ∧ next.active.entries =
      (records.foldl Roster.note ⟨before, catalogue.active.entries⟩).active := by
  induction records generalizing catalogue before with
  | nil =>
    cases applied
    rw [List.append_nil]
    exact ⟨recalls, rfl⟩
  | cons record rest ih =>
    obtain ⟨middle, first, later⟩ := Outcome.foldlM_cons_eq_ok.1 applied
    obtain ⟨kept, merged⟩ := recalls.of_record first
    obtain ⟨final, all⟩ := ih kept later
    rw [List.append_assoc] at final
    refine ⟨final, ?_⟩
    rw [all, merged]
    rfl

/-- The records of a segment are merged into the objects that were active before, or into none if
the segment starts a new list of objects. -/
theorem of_applyRecords (recalls : catalogue.Recalls before)
    (applied : catalogue.applyRecords segment records = .ok next) :
    next.Recalls (before ++ records) ∧ next.active.entries =
      (records.foldl Roster.note
        ⟨before, if segment.hasNewObjectList then [] else catalogue.active.entries⟩).active := by
  unfold applyRecords at applied
  by_cases fresh : segment.hasNewObjectList = true
  · rw [if_pos fresh] at applied
    rw [if_pos fresh]
    exact recalls.clear.of_records applied
  · rw [if_neg fresh] at applied
    rw [if_neg fresh]
    exact recalls.of_records applied

/-! ## Segments -/

/-- Raw data leaves alone what the records of a segment made. -/
theorem of_onlyRuns (recalls : catalogue.Recalls before) (only : catalogue.OnlyRuns next) :
    next.Recalls before := by
  refine ⟨only.active_eq ▸ recalls.distinct, fun path => ?_, fun path index found => ?_⟩
  · rw [only.declared_eq, recalls.declared_eq]
  · rw [only.declared_eq] at found
    obtain ⟨owner, name, here, type⟩ := recalls.typed path index found
    exact ⟨owner, name, here, (only.type_eq owner name).trans type⟩

theorem of_apply (recalls : catalogue.Recalls before)
    (applied : catalogue.apply segment = .ok next) :
    next.Recalls (before ++ Walk.records segment) ∧
      (segment.metadata = none → next.active.entries = catalogue.active.entries) ∧
      (segment.metadata ≠ none → next.active.entries =
        ((Walk.records segment).foldl Roster.note
          ⟨before, if segment.hasNewObjectList then [] else catalogue.active.entries⟩).active) := by
  obtain ⟨described, recorded, -, rfl⟩ := apply_eq_ok.1 applied
  have only : described.OnlyRuns (described.placed segment) := onlyRuns_pushSlots described _
  have active : (described.placed segment).active = described.active := only.active_eq
  rw [active]
  rcases applyMetadata_eq_ok.1 recorded with
    ⟨absent, rfl⟩ | ⟨block, records, present, decoded, taken⟩
  · have kept := recalls.of_onlyRuns only
    rw [records_of_none absent, List.append_nil]
    exact ⟨⟨kept.1, kept.2, kept.3⟩, fun _ => rfl, fun some => absurd absent some⟩
  · obtain ⟨recalled, merged⟩ := recalls.of_applyRecords taken
    have kept := recalled.of_onlyRuns only
    rw [records_of_decode present decoded]
    refine ⟨⟨kept.1, kept.2, kept.3⟩, fun none => ?_, fun _ => merged⟩
    rw [none] at present
    cases present

theorem of_segments (recalls : catalogue.Recalls before)
    (applied : segments.foldlM Catalogue.apply catalogue = .ok next) :
    next.Recalls (before ++ segments.flatMap Walk.records) := by
  induction segments generalizing catalogue before with
  | nil =>
    cases applied
    rw [List.flatMap_nil, List.append_nil]
    exact recalls
  | cons segment rest ih =>
    obtain ⟨middle, first, later⟩ := Outcome.foldlM_cons_eq_ok.1 applied
    rw [List.flatMap_cons, ← List.append_assoc]
    exact ih (recalls.of_apply first).1 later

end Recalls

/-- Taking up records one after another goes on where the first of them end. -/
theorem applyRecords_append {early late : List Record} {middle : Catalogue}
    (taken : catalogue.applyRecords segment early = .ok middle) :
    catalogue.applyRecords segment (early ++ late) =
      late.foldlM (applyRecord segment.offset) middle := by
  unfold applyRecords at taken ⊢
  dsimp only at taken ⊢
  rw [List.foldlM_append, taken]
  rfl

theorem apply_of_refused {block : ByteArray} {error : Error}
    (present : segment.metadata = some block)
    (decoded : Metadata.decode segment.order block.data.toList = .ok records)
    (refused : catalogue.applyRecords segment records = .error error) :
    catalogue.apply segment = .error error := by
  have metadata : catalogue.applyMetadata segment = .error error := by
    rw [applyMetadata, present]
    dsimp only
    rw [decoded]
    exact refused
  rw [apply, metadata]
  rfl

/-- Whatever segments a catalogue has taken up, the records of the next one are merged into its
active objects one after another, each object in place or put last, and into none if the segment
starts a new list of objects. Finding objects by their positions changes nothing about that. A
record that refers to an earlier declaration gives the last one that any record before it made for
the same object, in this segment or an earlier one; it is refused, and the segment with it, if there
is none, and never otherwise. Without metadata the active objects stay as they are. -/
theorem active_merges (reached : segments.foldlM apply empty = .ok catalogue)
    (segment : Segment) :
    (∀ records next, catalogue.applyRecords segment records = .ok next →
      next.active.entries =
        (records.foldl Roster.note ⟨segments.flatMap Walk.records,
          if segment.hasNewObjectList then [] else catalogue.active.entries⟩).active) ∧
    (∀ records, catalogue.mergeRecords segment records =
      catalogue.applyRecords segment records) ∧
    (∀ early record middle, catalogue.applyRecords segment early = .ok middle →
      record.declaration = .matchesPrevious →
        (lastNew record.path (segments.flatMap Walk.records ++ early) = none → ∀ late,
          catalogue.applyRecords segment (early ++ record :: late) =
            .error (.corruptMetadata segment.offset (.neverDeclared record.path))) ∧
        (lastNew record.path (segments.flatMap Walk.records ++ early) ≠ none → ∃ after,
          catalogue.applyRecords segment (early ++ [record]) = .ok after)) ∧
    (∀ block records error, segment.metadata = some block →
      Metadata.decode segment.order block.data.toList = .ok records →
      catalogue.applyRecords segment records = .error error →
        catalogue.apply segment = .error error) ∧
    ∀ next, catalogue.apply segment = .ok next →
      (segment.metadata = none → next.active.entries = catalogue.active.entries) ∧
      (segment.metadata ≠ none → next.active.entries =
        ((Walk.records segment).foldl Roster.note ⟨segments.flatMap Walk.records,
          if segment.hasNewObjectList then [] else catalogue.active.entries⟩).active) := by
  have recalls : catalogue.Recalls (segments.flatMap Walk.records) :=
    Recalls.empty.of_segments reached
  refine ⟨fun records next applied => (recalls.of_applyRecords applied).2,
    mergeRecords_eq recalls.distinct segment, ?_, fun block records error => apply_of_refused,
    fun next applied => (recalls.of_apply applied).2⟩
  intro early record middle taken refers
  have met := (recalls.of_applyRecords taken).1
  constructor
  · intro none late
    rw [applyRecords_append taken, List.foldlM_cons, met.refused_of_none refers none]
    rfl
  · intro some
    obtain ⟨index, found⟩ := Option.ne_none_iff_exists'.1 some
    obtain ⟨after, applied⟩ := met.exists_of_some refers found segment.offset
    refine ⟨after, ?_⟩
    rw [applyRecords_append taken]
    exact Outcome.foldlM_cons_eq_ok.2 ⟨after, applied, rfl⟩

/-- Records that take the raw data of a channel away and bring it back, and that name a new channel
twice. -/
def returningRecords : List Record :=
  [⟨.channel "g" "a", .noData, []⟩, ⟨.channel "g" "b", .new ⟨.int16, 3, 6⟩, []⟩,
    ⟨.channel "g" "a", .matchesPrevious, []⟩, ⟨.channel "g" "b", .noData, []⟩]

/-- A segment that goes on with the list of objects before it. -/
def updatingSegment : Segment :=
  { Layout.sampleSegment with leadIn := ⟨⟨0x0A⟩, 4713, 91, 72⟩ }

theorem active_merges_returning :
    ∃ catalogue next, ((scan (.ofBytes sampleFile)).segments.take 1).foldlM apply empty =
        .ok catalogue ∧
      catalogue.applyRecords updatingSegment returningRecords = .ok next ∧
      next.active.entries = [(.channel "g" "a", some ⟨.int16, 1, 2⟩),
        (.channel "g" "t", some ⟨.string, 1, 5⟩), (.channel "g" "b", none)] := by
  have first : (((scan (.ofBytes sampleFile)).segments.take 1).foldlM apply empty).map
      (fun catalogue => (catalogue.active.entries,
        (catalogue.applyRecords updatingSegment returningRecords).toOption.isSome)) =
      .ok ([(.channel "g" "a", some ⟨.int16, 1, 2⟩), (.channel "g" "t", some ⟨.string, 1, 5⟩)],
        true) := by decide +kernel
  obtain ⟨catalogue, reached, held⟩ := Outcome.map_eq_ok.1 first
  obtain ⟨active, taken⟩ := Prod.mk.inj held
  obtain ⟨next, applied⟩ := Outcome.exists_of_isSome taken
  refine ⟨catalogue, next, reached, applied, ?_⟩
  rw [(active_merges reached updatingSegment).1 _ _ applied, active]
  decide +kernel

end Catalogue

end Tdms
