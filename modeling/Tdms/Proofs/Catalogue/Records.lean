import Mathlib
import Tdms.Proofs.Catalogue.Channels
import Tdms.Proofs.Metadata.Reader
import Tdms.Proofs.Outcome
import Tdms.Proofs.Walk

/-!
What a catalogue keeps true while it takes up records.

`Typed` relates the active objects, the declared raw data indexes and the types
of channels. `Follows` says that the plain reader remembers the same objects
and indexes. Taking up a record keeps both, and so does taking up the metadata
of a segment; neither touches the runs of any channel.
-/

namespace Tdms.Catalogue

open Metadata (RawIndex Record Declaration)
open Walk (Memory)

variable {catalogue next : Catalogue} {memory : Memory} {offset : Nat} {record : Record}

/-- How active objects, declared indexes and the types of channels fit together. -/
structure Typed (catalogue : Catalogue) : Prop where
  active_distinct : catalogue.active.keys.Nodup
  active_declared : ∀ path index, catalogue.active.get? path = some (some index) →
    catalogue.declared.get? path = some index
  declared_wellFormed : ∀ path index, catalogue.declared.get? path = some index →
    index.WellFormed
  declared_channel : ∀ path index, catalogue.declared.get? path = some index →
    ∃ owner name, path = .channel owner name
  type_eq : ∀ owner name, (catalogue.channelAt owner name).type =
    (catalogue.declared.get? (.channel owner name)).map RawIndex.type

/-- The plain reader remembers the same active objects and the same declared indexes. -/
structure Follows (catalogue : Catalogue) (memory : Memory) : Prop where
  active_eq : catalogue.active.entries = memory.active
  latest_eq : ∀ path, catalogue.declared.get? path = memory.latest path

/-- No run of any channel is touched, and no type is lost. -/
structure SameRuns (catalogue next : Catalogue) : Prop where
  runs_eq : ∀ owner name,
    (next.channelAt owner name).latestRuns = (catalogue.channelAt owner name).latestRuns
  count_eq : ∀ owner name,
    (next.channelAt owner name).sampleCount = (catalogue.channelAt owner name).sampleCount
  type_kept : ∀ owner name type, (catalogue.channelAt owner name).type = some type →
    (next.channelAt owner name).type = some type

theorem Typed.empty : Catalogue.empty.Typed where
  active_distinct := List.nodup_nil
  active_declared := nofun
  declared_wellFormed := nofun
  declared_channel := nofun
  type_eq _ _ := rfl

theorem Follows.empty : Catalogue.empty.Follows .blank :=
  ⟨rfl, fun _ => rfl⟩

theorem SameRuns.refl (catalogue : Catalogue) : catalogue.SameRuns catalogue :=
  ⟨fun _ _ => rfl, fun _ _ => rfl, fun _ _ _ typed => typed⟩

theorem SameRuns.trans {first second third : Catalogue} (early : first.SameRuns second)
    (late : second.SameRuns third) : first.SameRuns third where
  runs_eq owner name := (late.runs_eq owner name).trans (early.runs_eq owner name)
  count_eq owner name := (late.count_eq owner name).trans (early.count_eq owner name)
  type_kept owner name type typed :=
    late.type_kept owner name type (early.type_kept owner name type typed)

/-- A channel with a type is one that the file has named. -/
theorem channel?_of_type {owner name : String} {type : ScalarType}
    (typed : (catalogue.channelAt owner name).type = some type) :
    catalogue.channel? owner name = some (catalogue.channelAt owner name) := by
  unfold channelAt at typed ⊢
  cases found : catalogue.channel? owner name with
  | none =>
    rw [found] at typed
    cases typed
  | some channel => rfl

theorem Typed.type_of_declared (typed : catalogue.Typed) {owner name : String} {index : RawIndex}
    (found : catalogue.declared.get? (.channel owner name) = some index) :
    (catalogue.channelAt owner name).type = some index.type := by
  rw [typed.type_eq, found]
  rfl

/-! ## Declaring -/

/-- What declaring raw data for the channel `name` of `owner` leaves behind. -/
structure Declares (catalogue : Catalogue) (owner name : String) (index : RawIndex)
    (next : Catalogue) : Prop where
  active_eq : next.active = catalogue.active
  declared_eq : next.declared = catalogue.declared.insert (.channel owner name) index
  channelAt_eq : ∀ group channel, next.channelAt group channel =
    if group = owner ∧ channel = name then
      { catalogue.channelAt owner name with type := some index.type }
    else catalogue.channelAt group channel
  type_fits : ∀ type, (catalogue.channelAt owner name).type = some type → type = index.type
  named : catalogue.Named → next.Named

theorem bind_type (catalogue : Catalogue) (owner name : String) :
    (catalogue.channel? owner name).bind Channel.type = (catalogue.channelAt owner name).type := by
  unfold channelAt
  cases catalogue.channel? owner name with
  | none => rfl
  | some channel => rfl

theorem declares_of_declare {path : ObjectPath} {index : RawIndex}
    (declared : catalogue.declare offset path index = .ok next) :
    ∃ owner name, path = .channel owner name ∧ catalogue.Declares owner name index next := by
  cases path with
  | root => cases declared
  | group name => cases declared
  | channel owner name =>
    refine ⟨owner, name, rfl, ?_⟩
    rw [declare, bind_type] at declared
    dsimp only at declared
    cases known : (catalogue.channelAt owner name).type with
    | some existing =>
      rw [known] at declared
      dsimp only at declared
      split at declared
      · rename_i same
        cases declared
        refine ⟨rfl, rfl, fun group channel => ?_, ?_, fun named => ⟨named.1, named.2⟩⟩
        · change catalogue.channelAt group channel = _
          split
          · rename_i here
            rw [here.1, here.2, ← same, ← known]
          · rfl
        · intro type typed
          cases known.symm.trans typed
          exact same
      · cases declared
    | none =>
      rw [known] at declared
      cases declared
      refine ⟨rfl, rfl, fun group channel => ?_, ?_, fun named => ?_⟩
      · exact channelAt_alterChannel catalogue owner name _ group channel
      · rintro type typed
        cases known.symm.trans typed
      · have kept : (catalogue.alterChannel owner name fun channel =>
            { channel with type := some index.type }).Named :=
          named.alterChannel owner name fun channel => ⟨rfl, rfl⟩
        exact ⟨kept.1, kept.2⟩

/-- A channel that declared the same type before, if any, may declare it again. -/
theorem declare_of_same {owner name : String} {index : RawIndex} (typed : catalogue.Typed)
    (same : ∀ previous, catalogue.declared.get? (.channel owner name) = some previous →
      index.type = previous.type) (offset : Nat) :
    ∃ next, catalogue.declare offset (.channel owner name) index = .ok next := by
  rw [declare, bind_type, typed.type_eq]
  dsimp only
  cases found : catalogue.declared.get? (.channel owner name) with
  | none => exact ⟨_, rfl⟩
  | some previous =>
    rw [Option.map_some]
    dsimp only
    rw [if_pos (same previous found).symm]
    exact ⟨_, rfl⟩

/-- A channel may not declare another type than before. -/
theorem declare_of_other {owner name : String} {index previous : RawIndex}
    (typed : catalogue.Typed)
    (found : catalogue.declared.get? (.channel owner name) = some previous)
    (other : previous.type ≠ index.type) (offset : Nat) :
    catalogue.declare offset (.channel owner name) index =
      .error (.inconsistentType (ObjectPath.channel owner name).render previous.type
        index.type) := by
  rw [declare, bind_type, typed.type_eq, found, Option.map_some]
  dsimp only
  rw [if_neg other]

/-! ## Describing -/

/-- What naming an object and writing its properties leaves behind. -/
structure Describes (catalogue next : Catalogue) : Prop where
  active_eq : next.active = catalogue.active
  declared_eq : next.declared = catalogue.declared
  type_eq : ∀ owner name, (next.channelAt owner name).type = (catalogue.channelAt owner name).type
  runs_eq : ∀ owner name,
    (next.channelAt owner name).latestRuns = (catalogue.channelAt owner name).latestRuns
  count_eq : ∀ owner name,
    (next.channelAt owner name).sampleCount = (catalogue.channelAt owner name).sampleCount
  named : catalogue.Named → next.Named

theorem describes_describe (catalogue : Catalogue) (path : ObjectPath)
    (properties : List (String × Property)) :
    catalogue.Describes (catalogue.describe path properties) := by
  cases path with
  | root => exact ⟨rfl, rfl, fun _ _ => rfl, fun _ _ => rfl, fun _ _ => rfl, fun h => ⟨h.1, h.2⟩⟩
  | group name =>
    have same : ∀ group channel,
        (catalogue.describe (.group name) properties).channelAt group channel =
          catalogue.channelAt group channel := by
      intro group channel
      rw [channelAt, channelAt]
      congr 1
      apply channel?_alterGroup
      intro group
      rfl
    refine ⟨rfl, rfl, fun _ _ => by rw [same], fun _ _ => by rw [same], fun _ _ => by rw [same],
      fun named => ?_⟩
    exact named.alterGroup name fun group inside =>
      ⟨inside.name_eq, inside.distinct, inside.channel_named⟩
  | channel owner name =>
    have altered := channelAt_alterChannel catalogue owner name fun channel =>
      { channel with properties := channel.properties.insertAll properties }
    refine ⟨rfl, rfl, fun group channel => ?_, fun group channel => ?_, fun group channel => ?_,
      fun named => named.alterChannel owner name fun _ => ⟨rfl, rfl⟩⟩
    all_goals
      rw [describe, altered]
      split
      · rename_i here
        rw [here.1, here.2]
      · rfl

/-! ## One record -/

/-- Declares the raw data index that a record gives its object, if it gives one. -/
def declareAny (catalogue : Catalogue) (offset : Nat) (path : ObjectPath) :
    Option RawIndex → Except Error Catalogue
  | none => .ok catalogue
  | some index => catalogue.declare offset path index

/-- A record is taken up in three stages: its raw data is resolved, declared, and its object
described. -/
theorem applyRecord_eq_ok :
    applyRecord offset catalogue record = .ok next ↔
      ∃ index? declared, catalogue.resolve offset record = .ok index? ∧
        catalogue.declareAny offset record.path index? = .ok declared ∧
        next =
          { declared.describe record.path record.properties with
            active := declared.active.insert record.path index? } := by
  have active : ∀ declared : Catalogue,
      (declared.describe record.path record.properties).active = declared.active :=
    fun declared => (describes_describe declared record.path record.properties).active_eq
  rw [applyRecord, Outcome.bind_eq_ok]
  constructor
  · rintro ⟨index?, resolved, rest⟩
    cases index? with
    | none =>
      cases rest
      exact ⟨none, catalogue, resolved, rfl, by rw [active]⟩
    | some index =>
      obtain ⟨declared, stored, final⟩ := Outcome.bind_eq_ok.1 rest
      cases final
      exact ⟨some index, declared, resolved, stored, by rw [active]⟩
  · rintro ⟨index?, declared, resolved, stored, rfl⟩
    refine ⟨index?, resolved, ?_⟩
    cases index? with
    | none =>
      cases stored
      rw [← active]
      rfl
    | some index =>
      refine Outcome.bind_eq_ok.2 ⟨declared, stored, ?_⟩
      rw [← active]
      rfl

theorem resolve_eq_of_ok (follows : catalogue.Follows memory) {index? : Option RawIndex}
    (resolved : catalogue.resolve offset record = .ok index?) :
    index? = memory.resolve record := by
  rw [resolve] at resolved
  rw [Memory.resolve]
  cases declaration : record.declaration with
  | noData =>
    rw [declaration] at resolved
    cases resolved
    rfl
  | new index =>
    rw [declaration] at resolved
    cases resolved
    rfl
  | matchesPrevious =>
    rw [declaration] at resolved
    dsimp only at resolved ⊢
    rw [← follows.latest_eq]
    cases found : catalogue.declared.get? record.path with
    | none =>
      rw [found] at resolved
      cases resolved
    | some index =>
      rw [found] at resolved
      cases resolved
      rfl

/-- Putting an object among the active ones is what the plain reader does. -/
theorem Follows.place (follows : catalogue.Follows memory) (typed : catalogue.Typed)
    (path : ObjectPath) (index? : Option RawIndex) :
    (catalogue.active.insert path index?).entries = Walk.place path index? memory.active := by
  rw [OrderedMap.entries_insert typed.active_distinct, Walk.place, OrderedMap.keys,
    follows.active_eq]

/-- The raw data index that a record gives its object is well formed and the one the object
declares last. -/
theorem resolve_wellFormed (typed : catalogue.Typed) (follows : catalogue.Follows memory)
    (well : ∀ index, record.declaration = .new index → index.WellFormed) {index : RawIndex}
    (given : memory.resolve record = some index) :
    index.WellFormed ∧ (memory.note record).latest record.path = some index := by
  rw [Memory.resolve] at given
  rw [Memory.note]
  cases declaration : record.declaration with
  | noData =>
    rw [declaration] at given
    cases given
  | new other =>
    rw [declaration] at given
    cases given
    exact ⟨well index declaration, Function.update_self _ _ _⟩
  | matchesPrevious =>
    rw [declaration] at given
    dsimp only at given ⊢
    refine ⟨?_, given⟩
    rw [← follows.latest_eq] at given
    exact typed.declared_wellFormed _ _ given

theorem note_latest_of_ne {path : ObjectPath} (other : path ≠ record.path) :
    (memory.note record).latest path = memory.latest path := by
  unfold Memory.note
  cases record.declaration with
  | noData => rfl
  | new index => exact Function.update_of_ne other (some index) memory.latest
  | matchesPrevious => rfl

theorem note_latest_of_none (absent : memory.resolve record = none) :
    (memory.note record).latest = memory.latest := by
  rw [Memory.resolve] at absent
  rw [Memory.note]
  cases declaration : record.declaration with
  | noData => rfl
  | new index =>
    rw [declaration] at absent
    cases absent
  | matchesPrevious => rfl

theorem Typed.insert_none (typed : catalogue.Typed) (path : ObjectPath)
    (properties : List (String × Property)) :
    Typed
      { catalogue.describe path properties with
        active := catalogue.active.insert path none } := by
  have described := describes_describe catalogue path properties
  refine ⟨OrderedMap.nodup_keys_insert typed.active_distinct path none, ?_, ?_, ?_, ?_⟩
  · intro other index active
    change (catalogue.active.insert path none).get? other = _ at active
    change (catalogue.describe path properties).declared.get? other = _
    rw [OrderedMap.get?_insert] at active
    split at active
    · cases active
    · rw [described.declared_eq]
      exact typed.active_declared other index active
  · rw [described.declared_eq]
    exact typed.declared_wellFormed
  · rw [described.declared_eq]
    exact typed.declared_channel
  · intro owner name
    rw [described.declared_eq, ← typed.type_eq]
    exact described.type_eq owner name

theorem Typed.insert_some (typed : catalogue.Typed) {owner name : String} {index : RawIndex}
    {declared : Catalogue} (declares : catalogue.Declares owner name index declared)
    (wellFormed : index.WellFormed) (properties : List (String × Property)) :
    Typed
      { declared.describe (.channel owner name) properties with
        active := declared.active.insert (.channel owner name) (some index) } := by
  have described := describes_describe declared (.channel owner name) properties
  have stored : (declared.describe (.channel owner name) properties).declared =
      catalogue.declared.insert (.channel owner name) index :=
    described.declared_eq.trans declares.declared_eq
  have active : declared.active.insert (.channel owner name) (some index) =
      catalogue.active.insert (.channel owner name) (some index) := by
    rw [declares.active_eq]
  refine ⟨?_, ?_, ?_, ?_, ?_⟩
  · change (declared.active.insert (.channel owner name) (some index)).keys.Nodup
    rw [active]
    exact OrderedMap.nodup_keys_insert typed.active_distinct _ _
  · intro other found listed
    change (declared.active.insert (.channel owner name) (some index)).get? other = _ at listed
    change (declared.describe (.channel owner name) properties).declared.get? other = _
    rw [active, OrderedMap.get?_insert] at listed
    rw [stored, OrderedMap.get?_insert]
    split at listed
    · rename_i here
      rw [if_pos here]
      exact Option.some.inj listed
    · rename_i elsewhere
      rw [if_neg elsewhere]
      exact typed.active_declared other found listed
  · intro other found listed
    change (declared.describe (.channel owner name) properties).declared.get? other = _ at listed
    rw [stored, OrderedMap.get?_insert] at listed
    split at listed
    · cases listed
      exact wellFormed
    · exact typed.declared_wellFormed other found listed
  · intro other found listed
    change (declared.describe (.channel owner name) properties).declared.get? other = _ at listed
    rw [stored, OrderedMap.get?_insert] at listed
    split at listed
    · rename_i here
      exact ⟨owner, name, here⟩
    · exact typed.declared_channel other found listed
  · intro group channel
    change ((declared.describe (.channel owner name) properties).channelAt group channel).type =
      ((declared.describe (.channel owner name) properties).declared.get? _).map RawIndex.type
    rw [described.type_eq, declares.channelAt_eq, stored, OrderedMap.get?_insert]
    by_cases here : group = owner ∧ channel = name
    · rw [if_pos here, if_pos (by rw [here.1, here.2])]
      rfl
    · have elsewhere : ObjectPath.channel group channel ≠ .channel owner name := by
        intro same
        injection same with sameGroup sameName
        exact here ⟨sameGroup, sameName⟩
      rw [if_neg here, if_neg elsewhere]
      exact typed.type_eq group channel

/-- What taking up records with a catalogue that the plain reader follows leaves behind. -/
structure Taken (memory : Memory) (catalogue next : Catalogue) : Prop where
  typed : next.Typed
  follows : next.Follows memory
  named : catalogue.Named → next.Named
  sameRuns : catalogue.SameRuns next

theorem Describes.sameRuns (described : catalogue.Describes next) : catalogue.SameRuns next :=
  ⟨described.runs_eq, described.count_eq, fun owner name _ typed =>
    (described.type_eq owner name).trans typed⟩

theorem Declares.sameRuns {owner name : String} {index : RawIndex}
    (declares : catalogue.Declares owner name index next) : catalogue.SameRuns next := by
  refine ⟨fun group channel => ?_, fun group channel => ?_, fun group channel type typed => ?_⟩
  · rw [declares.channelAt_eq]
    split
    · rename_i here
      rw [here.1, here.2]
    · rfl
  · rw [declares.channelAt_eq]
    split
    · rename_i here
      rw [here.1, here.2]
    · rfl
  · rw [declares.channelAt_eq]
    split
    · rename_i here
      rw [here.1, here.2] at typed
      rw [declares.type_fits type typed]
    · exact typed

theorem SameRuns.of_record (applied : applyRecord offset catalogue record = .ok next) :
    catalogue.SameRuns next := by
  obtain ⟨index?, declared, -, stored, rfl⟩ := applyRecord_eq_ok.1 applied
  have first : catalogue.SameRuns declared := by
    cases index? with
    | none =>
      cases stored
      exact .refl catalogue
    | some index =>
      obtain ⟨owner, name, -, declares⟩ := declares_of_declare stored
      exact declares.sameRuns
  have all := first.trans (describes_describe declared record.path record.properties).sameRuns
  exact ⟨all.runs_eq, all.count_eq, all.type_kept⟩

theorem Taken.of_record (typed : catalogue.Typed) (follows : catalogue.Follows memory)
    (well : ∀ index, record.declaration = .new index → index.WellFormed)
    (applied : applyRecord offset catalogue record = .ok next) :
    Taken (memory.note record) catalogue next := by
  obtain ⟨index?, declared, resolved, stored, rfl⟩ := applyRecord_eq_ok.1 applied
  have given := resolve_eq_of_ok follows resolved
  have described := describes_describe declared record.path record.properties
  have placed := follows.place typed record.path index?
  rw [given] at placed
  cases index? with
  | none =>
    cases stored
    have latest := note_latest_of_none given.symm
    refine ⟨typed.insert_none _ _, ⟨?_, fun path => ?_⟩, fun named => ?_, .of_record applied⟩
    · rw [given]
      exact placed
    · rw [latest, ← follows.latest_eq]
      change (catalogue.describe record.path record.properties).declared.get? path = _
      rw [described.declared_eq]
    · exact ⟨(described.named named).1, (described.named named).2⟩
  | some index =>
    obtain ⟨owner, name, here, declares⟩ := declares_of_declare stored
    obtain ⟨wellFormed, latest⟩ := resolve_wellFormed typed follows well given.symm
    refine ⟨?_, ⟨?_, fun path => ?_⟩, fun named => ?_, .of_record applied⟩
    · rw [here]
      exact typed.insert_some declares wellFormed record.properties
    · rw [declares.active_eq, given]
      exact placed
    · change (declared.describe record.path record.properties).declared.get? path = _
      rw [described.declared_eq, declares.declared_eq, OrderedMap.get?_insert, ← here]
      split
      · rename_i same
        rw [same, latest]
      · rename_i other
        rw [note_latest_of_ne other]
        exact follows.latest_eq path
    · have kept := described.named (declares.named named)
      exact ⟨kept.1, kept.2⟩

/-! ## The metadata of a segment -/

theorem Taken.refl (typed : catalogue.Typed) (follows : catalogue.Follows memory) :
    Taken memory catalogue catalogue :=
  ⟨typed, follows, id, .refl catalogue⟩

theorem Taken.of_records {records : List Record} (typed : catalogue.Typed)
    (follows : catalogue.Follows memory)
    (well : ∀ record ∈ records, ∀ index, record.declaration = .new index → index.WellFormed)
    (applied : records.foldlM (applyRecord offset) catalogue = .ok next) :
    Taken (records.foldl Memory.note memory) catalogue next := by
  induction records generalizing catalogue memory with
  | nil =>
    cases applied
    exact .refl typed follows
  | cons record rest ih =>
    obtain ⟨middle, first, later⟩ := Outcome.foldlM_cons_eq_ok.1 applied
    have one := Taken.of_record typed follows (well record List.mem_cons_self) first
    have others := ih one.typed one.follows
      (fun record listed => well record (List.mem_cons_of_mem _ listed)) later
    exact ⟨others.typed, others.follows, fun named => others.named (one.named named),
      one.sameRuns.trans others.sameRuns⟩

theorem SameRuns.of_records {records : List Record}
    (applied : records.foldlM (applyRecord offset) catalogue = .ok next) :
    catalogue.SameRuns next := by
  induction records generalizing catalogue with
  | nil =>
    cases applied
    exact .refl next
  | cons record rest ih =>
    obtain ⟨middle, first, later⟩ := Outcome.foldlM_cons_eq_ok.1 applied
    exact (SameRuns.of_record first).trans (ih later)

theorem Typed.clear (typed : catalogue.Typed) :
    Typed { catalogue with active := .empty } where
  active_distinct := List.nodup_nil
  active_declared := nofun
  declared_wellFormed := typed.declared_wellFormed
  declared_channel := typed.declared_channel
  type_eq := typed.type_eq

theorem records_of_none {segment : Segment} (absent : segment.metadata = none) :
    Walk.records segment = [] := by
  unfold Walk.records
  rw [absent]

theorem records_of_decode {segment : Segment} {block : ByteArray} {records : List Record}
    (present : segment.metadata = some block)
    (decoded : Metadata.decode segment.order block.data.toList = .ok records) :
    Walk.records segment = records := by
  unfold Walk.records
  rw [present]
  dsimp only
  rw [decoded]

/-- The metadata of a segment is taken up if there is none, or if it is read and all its records
are taken up. -/
theorem applyMetadata_eq_ok {segment : Segment} :
    catalogue.applyMetadata segment = .ok next ↔
      (segment.metadata = none ∧ next = catalogue) ∨
        ∃ block records, segment.metadata = some block ∧
          Metadata.decode segment.order block.data.toList = .ok records ∧
          catalogue.applyRecords segment records = .ok next := by
  unfold applyMetadata
  cases present : segment.metadata with
  | none =>
    simp only [Except.ok.injEq, reduceCtorEq, false_and, exists_false, or_false, true_and]
    exact eq_comm
  | some block =>
    simp only [reduceCtorEq, false_and, false_or, Option.some.injEq]
    constructor
    · intro applied
      cases decoded : Metadata.decode segment.order block.data.toList with
      | error refusal =>
        rw [decoded] at applied
        cases refusal with
        | corrupt fault => cases applied
        | unknownType code path => cases applied
      | ok records =>
        rw [decoded] at applied
        exact ⟨block, records, rfl, decoded, applied⟩
    · intro taken
      rcases taken with ⟨found, records, rfl, decoded, applied⟩
      rw [decoded]
      exact applied

theorem SameRuns.of_metadata {segment : Segment}
    (applied : catalogue.applyMetadata segment = .ok next) : catalogue.SameRuns next := by
  obtain ⟨-, rfl⟩ | ⟨block, records, -, -, recorded⟩ := applyMetadata_eq_ok.1 applied
  · exact .refl next
  · unfold applyRecords at recorded
    split at recorded
    · have all := SameRuns.of_records recorded
      exact ⟨all.runs_eq, all.count_eq, all.type_kept⟩
    · exact .of_records recorded

/-- Taking up the metadata of a segment keeps the catalogue in step with the plain reader. -/
theorem Taken.of_metadata {segment : Segment} (typed : catalogue.Typed)
    (follows : catalogue.Follows memory)
    (applied : catalogue.applyMetadata segment = .ok next) :
    Taken (memory.enter segment) catalogue next := by
  unfold Memory.enter
  rcases applyMetadata_eq_ok.1 applied with
    ⟨absent, rfl⟩ | ⟨block, records, present, decoded, recorded⟩
  · rw [records_of_none absent, absent]
    simpa using Taken.refl typed follows
  · have well : ∀ record ∈ records, ∀ index, record.declaration = .new index →
        index.WellFormed := fun record listed index declares =>
      Metadata.declared_of_decode decoded listed declares
    rw [records_of_decode present decoded, present]
    unfold applyRecords at recorded
    by_cases fresh : segment.hasNewObjectList = true
    · have start : Follows { catalogue with active := .empty } { memory with active := [] } :=
        ⟨rfl, follows.latest_eq⟩
      rw [if_pos fresh] at recorded
      rw [if_pos ⟨rfl, fresh⟩]
      have taken := Taken.of_records typed.clear start well recorded
      exact ⟨taken.typed, taken.follows, fun named => taken.named ⟨named.1, named.2⟩,
        ⟨taken.sameRuns.1, taken.sameRuns.2, taken.sameRuns.3⟩⟩
    · rw [if_neg fresh] at recorded
      rw [if_neg fun both => fresh both.2]
      exact Taken.of_records typed follows well recorded

end Tdms.Catalogue
