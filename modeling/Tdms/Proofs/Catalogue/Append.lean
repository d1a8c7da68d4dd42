import Mathlib
import Tdms.Proofs.Catalogue.Apply
import Tdms.Proofs.Shift

/-!
Catalogues of a file that is appended to another.

Taking up the segments of the second file on its own is compared with taking
them up behind the first. `Overlay` relates the two catalogues: the active
objects are the same, and an object is declared as in the second file, or as in
the first if the second has not declared it yet. Every record either keeps the
relation or declares another type than the first file (`Clash`), for which the
appended file is refused.
-/

namespace Tdms.Catalogue

open Metadata (RawIndex Record)
open Walk (Memory Stage)

variable {first second both next : Catalogue} {small big : Memory}

/-- `both` has taken up behind `first` what `second` has taken up on its own. -/
structure Overlay (first second both : Catalogue) : Prop where
  active_eq : both.active = second.active
  declared_eq : ∀ path,
    both.declared.get? path = (second.declared.get? path).or (first.declared.get? path)
  agrees : ∀ path later earlier, second.declared.get? path = some later →
    first.declared.get? path = some earlier → earlier.type = later.type

/-- A channel has the type that one of the files declares. -/
theorem Overlay.type_eq (overlay : Overlay first second both) (early : first.Typed)
    (late : second.Typed) (typed : both.Typed) (owner name : String) :
    (both.channelAt owner name).type =
      (first.channelAt owner name).type.or (second.channelAt owner name).type := by
  rw [typed.type_eq, early.type_eq, late.type_eq, overlay.declared_eq]
  cases before : first.declared.get? (.channel owner name) with
  | none => simp
  | some earlier =>
    cases now : second.declared.get? (.channel owner name) with
    | none => rfl
    | some later => simp [overlay.agrees _ later earlier now before]

theorem Overlay.types_agree (overlay : Overlay first second both) (early : first.Typed)
    (late : second.Typed) {owner name : String} {earlier later : ScalarType}
    (before : (first.channelAt owner name).type = some earlier)
    (now : (second.channelAt owner name).type = some later) : earlier = later := by
  rw [early.type_eq, Option.map_eq_some_iff] at before
  rw [late.type_eq, Option.map_eq_some_iff] at now
  obtain ⟨index, declared, rfl⟩ := before
  obtain ⟨latest, again, rfl⟩ := now
  exact overlay.agrees _ latest index again declared

/-- A channel has another type in `second` than in `first`, for which the outcome is an error. -/
def Clash {α : Type} (first second : Catalogue) (outcome : Except Error α) : Prop :=
  ∃ owner name existing found, (first.channelAt owner name).type = some existing ∧
    (second.channelAt owner name).type = some found ∧ existing ≠ found ∧
    outcome = .error (.inconsistentType (ObjectPath.channel owner name).render existing found)

theorem Clash.bind {α β : Type} {outcome : Except Error α} (clash : Clash first second outcome)
    (kept : ∀ owner name type, (second.channelAt owner name).type = some type →
      (next.channelAt owner name).type = some type) (later : α → Except Error β) :
    Clash first next (outcome >>= later) := by
  obtain ⟨owner, name, existing, found, early, late, other, rfl⟩ := clash
  exact ⟨owner, name, existing, found, early, kept owner name found late, other, rfl⟩

/-! ## Records -/

theorem Overlay.resolve (overlay : Overlay first second both) {offset : Nat} {record : Record}
    {index? : Option RawIndex} (resolved : second.resolve offset record = .ok index?)
    (place : Nat) : both.resolve place record = .ok index? := by
  unfold Catalogue.resolve at resolved ⊢
  cases declaration : record.declaration with
  | noData | new index =>
    rw [declaration] at resolved
    exact resolved
  | matchesPrevious =>
    rw [declaration] at resolved
    dsimp only at resolved ⊢
    rw [overlay.declared_eq]
    cases found : second.declared.get? record.path with
    | none =>
      rw [found] at resolved
      cases resolved
    | some index =>
      rw [found] at resolved
      exact resolved

/-- The same declaration on both sides keeps the overlay, if it keeps the known type. -/
theorem Overlay.declares (overlay : Overlay first second both) {owner name : String}
    {index : RawIndex} {joined : Catalogue} (alone : second.Declares owner name index next)
    (behind : both.Declares owner name index joined)
    (same : ∀ previous, both.declared.get? (.channel owner name) = some previous →
      index.type = previous.type) : Overlay first next joined where
  active_eq := by rw [behind.active_eq, alone.active_eq, overlay.active_eq]
  declared_eq path := by
    rw [behind.declared_eq, alone.declared_eq, OrderedMap.get?_insert, OrderedMap.get?_insert]
    split
    · rfl
    · exact overlay.declared_eq path
  agrees path later earlier now before := by
    rw [alone.declared_eq, OrderedMap.get?_insert] at now
    split at now
    · rename_i equal
      cases now
      subst equal
      have known := overlay.declared_eq (.channel owner name)
      cases own : second.declared.get? (.channel owner name) with
      | none =>
        rw [own, before] at known
        exact (same earlier known).symm
      | some previous =>
        rw [own] at known
        exact (overlay.agrees _ previous earlier own before).trans (same previous known).symm
    · exact overlay.agrees path later earlier now before

/-- A second file keeps its own type, so that another known one is of the first file. -/
theorem Overlay.first_of_other (overlay : Overlay first second both) (late : second.Typed)
    {owner name : String} {index previous : RawIndex}
    (alone : second.Declares owner name index next)
    (found : both.declared.get? (.channel owner name) = some previous)
    (other : index.type ≠ previous.type) :
    first.declared.get? (.channel owner name) = some previous := by
  have known := overlay.declared_eq (.channel owner name)
  cases own : second.declared.get? (.channel owner name) with
  | none => rwa [found, own, Option.none_or, eq_comm] at known
  | some latest =>
    rw [found, own, Option.some_or] at known
    cases known
    exact absurd (alone.type_fits previous.type (late.type_of_declared own)).symm other

/-- Declaring behind the first file succeeds as well, or the first file has another type. -/
theorem Overlay.declareAny (overlay : Overlay first second both) (early : first.Typed)
    (late : second.Typed) (typed : both.Typed) {offset : Nat} {path : ObjectPath}
    {index? : Option RawIndex} (stored : second.declareAny offset path index? = .ok next)
    (place : Nat) :
    (∃ joined, both.declareAny place path index? = .ok joined ∧ Overlay first next joined) ∨
      Clash first next (both.declareAny place path index?) := by
  cases index? with
  | none =>
    cases stored
    exact .inl ⟨both, rfl, overlay⟩
  | some index =>
    obtain ⟨owner, name, rfl, alone⟩ := declares_of_declare stored
    by_cases same : ∀ previous, both.declared.get? (.channel owner name) = some previous →
        index.type = previous.type
    · obtain ⟨joined, declared⟩ := declare_of_same typed same place
      obtain ⟨group, channel, here, behind⟩ := declares_of_declare declared
      obtain ⟨rfl, rfl⟩ := ObjectPath.channel.inj here
      exact .inl ⟨joined, declared, overlay.declares alone behind same⟩
    · push Not at same
      obtain ⟨previous, found, other⟩ := same
      have before := overlay.first_of_other late alone found other
      refine .inr ⟨owner, name, previous.type, index.type, early.type_of_declared before, ?_,
        Ne.symm other, declare_of_other typed found (Ne.symm other) place⟩
      rw [alone.channelAt_eq, if_pos ⟨rfl, rfl⟩]

theorem applyRecord_of_refused {catalogue : Catalogue} {place : Nat} {record : Record}
    {index? : Option RawIndex} {error : Error}
    (resolved : catalogue.resolve place record = .ok index?)
    (refused : catalogue.declareAny place record.path index? = .error error) :
    applyRecord place catalogue record = .error error := by
  rw [applyRecord, resolved]
  cases index? with
  | none => cases refused
  | some index =>
    change (catalogue.declare place record.path index >>= _) = _
    change catalogue.declare place record.path index = _ at refused
    rw [refused]
    rfl

theorem Overlay.applyRecord (overlay : Overlay first second both) (early : first.Typed)
    (late : second.Typed) (typed : both.Typed) {offset : Nat} {record : Record}
    (applied : applyRecord offset second record = .ok next) (place : Nat) :
    (∃ joined, Catalogue.applyRecord place both record = .ok joined ∧ Overlay first next joined) ∨
      Clash first next (Catalogue.applyRecord place both record) := by
  obtain ⟨index?, declared, resolved, stored, rfl⟩ := applyRecord_eq_ok.1 applied
  have also := overlay.resolve resolved place
  have described := describes_describe declared record.path record.properties
  rcases overlay.declareAny early late typed stored place with ⟨joined, taken, after⟩ | clash
  · have beside := describes_describe joined record.path record.properties
    refine .inl ⟨_, applyRecord_eq_ok.2 ⟨index?, joined, also, taken, rfl⟩, ?_, fun path => ?_,
      fun path later earlier now before => ?_⟩
    · dsimp only
      rw [after.active_eq]
    · dsimp only
      rw [beside.declared_eq, described.declared_eq]
      exact after.declared_eq path
    · dsimp only at now
      rw [described.declared_eq] at now
      exact after.agrees path later earlier now before
  · obtain ⟨owner, name, existing, found, before, now, other, refused⟩ := clash
    refine .inr ⟨owner, name, existing, found, before, ?_, other,
      applyRecord_of_refused also refused⟩
    exact (described.type_eq owner name).trans now

/-! ## In step with the plain reader -/

/-- An overlay with what the plain reader remembers on either side. -/
structure InStep (first second both : Catalogue) (small big : Memory) : Prop where
  overlay : Overlay first second both
  typed : second.Typed
  follows : second.Follows small
  typedBoth : both.Typed
  followsBoth : both.Follows big

theorem InStep.applyRecords (inStep : InStep first second both small big) (early : first.Typed)
    {records : List Record}
    (well : ∀ record ∈ records, ∀ index, record.declaration = .new index → index.WellFormed)
    {offset : Nat} (applied : records.foldlM (applyRecord offset) second = .ok next)
    (place : Nat) :
    (∃ joined, records.foldlM (applyRecord place) both = .ok joined ∧ Overlay first next joined) ∨
      Clash first next (records.foldlM (applyRecord place) both) := by
  induction records generalizing second both small big with
  | nil =>
    cases applied
    exact .inl ⟨both, rfl, inStep.overlay⟩
  | cons record rest ih =>
    obtain ⟨one, others⟩ := List.forall_mem_cons.1 well
    obtain ⟨middle, now, later⟩ := Outcome.foldlM_cons_eq_ok.1 applied
    rw [List.foldlM_cons]
    rcases inStep.overlay.applyRecord early inStep.typed inStep.typedBoth now place with
      ⟨joined, taken, after⟩ | clash
    · have alone := Taken.of_record inStep.typed inStep.follows one now
      have behind := Taken.of_record inStep.typedBoth inStep.followsBoth one taken
      rw [taken]
      exact ih ⟨after, alone.typed, alone.follows, behind.typed, behind.follows⟩ others later
    · exact .inr (clash.bind (SameRuns.of_records later).type_kept _)

theorem applyMetadata_of_decode {catalogue : Catalogue} {segment : Segment} {block : ByteArray}
    {records : List Record} (present : segment.metadata = some block)
    (decoded : Metadata.decode segment.order block.data.toList = .ok records) :
    catalogue.applyMetadata segment = catalogue.applyRecords segment records := by
  rw [applyMetadata, present]
  dsimp only
  rw [decoded]

theorem InStep.applyMetadata (inStep : InStep first second both small big) (early : first.Typed)
    {segment : Segment} (applied : second.applyMetadata segment = .ok next) (bytes count : Nat) :
    (∃ joined, both.applyMetadata (segment.shift bytes count) = .ok joined ∧
        InStep first next joined (small.enter segment) (big.enter (segment.shift bytes count))) ∨
      Clash first next (both.applyMetadata (segment.shift bytes count)) := by
  have alone := Taken.of_metadata inStep.typed inStep.follows applied
  have cases : (∃ joined, both.applyMetadata (segment.shift bytes count) = .ok joined ∧
        Overlay first next joined) ∨
      Clash first next (both.applyMetadata (segment.shift bytes count)) := by
    rcases applyMetadata_eq_ok.1 applied with
      ⟨absent, rfl⟩ | ⟨block, records, present, decoded, recorded⟩
    · exact .inl ⟨both, applyMetadata_eq_ok.2 (.inl ⟨absent, rfl⟩), inStep.overlay⟩
    · have well : ∀ record ∈ records, ∀ index, record.declaration = .new index →
          index.WellFormed := fun record listed index declares =>
        Metadata.declared_of_decode decoded listed declares
      have moved : both.applyMetadata (segment.shift bytes count) =
          both.applyRecords (segment.shift bytes count) records :=
        applyMetadata_of_decode present decoded
      have fresh : (segment.shift bytes count).hasNewObjectList = segment.hasNewObjectList := rfl
      rw [moved]
      unfold Catalogue.applyRecords at recorded ⊢
      rw [fresh]
      split at recorded
      · rename_i starts
        rw [if_pos starts]
        have clear : InStep first { second with active := .empty } { both with active := .empty }
            { small with active := [] } { big with active := [] } :=
          ⟨⟨rfl, inStep.overlay.declared_eq, inStep.overlay.agrees⟩, inStep.typed.clear,
            ⟨rfl, inStep.follows.latest_eq⟩, inStep.typedBoth.clear,
            ⟨rfl, inStep.followsBoth.latest_eq⟩⟩
        exact clear.applyRecords early well recorded _
      · rename_i goes
        rw [if_neg goes]
        exact inStep.applyRecords early well recorded _
  rcases cases with ⟨joined, taken, after⟩ | clash
  · have behind := Taken.of_metadata inStep.typedBoth inStep.followsBoth taken
    exact .inl ⟨joined, taken, after, alone.typed, alone.follows, behind.typed, behind.follows⟩
  · exact .inr clash

/-! ## Segments -/

theorem InStep.owners_eq (inStep : InStep first second both small big) :
    big.owners = small.owners := by
  rw [← inStep.followsBoth.owners_eq, ← inStep.follows.owners_eq, owners, owners,
    inStep.overlay.active_eq]

theorem InStep.apply (inStep : InStep first second both small big) (early : first.Typed)
    {segment : Segment} (applied : second.apply segment = .ok next) (bytes count : Nat) :
    (∃ joined, both.apply (segment.shift bytes count) = .ok joined ∧
        InStep first next joined (small.enter segment) (big.enter (segment.shift bytes count))) ∨
      Clash first next (both.apply (segment.shift bytes count)) := by
  obtain ⟨described, recorded, laidOut, rfl⟩ := apply_eq_ok.1 applied
  have only : described.OnlyRuns (described.placed segment) := onlyRuns_pushSlots described _
  rcases inStep.applyMetadata early recorded bytes count with ⟨joined, taken, after⟩ | clash
  · have same : joined.owners = described.owners := by
      rw [owners, owners, after.overlay.active_eq]
    have behind := apply_eq_ok.2 ⟨joined, taken, fun some => by
      rw [same]
      exact laidOut some, rfl⟩
    have beside : joined.OnlyRuns (joined.placed (segment.shift bytes count)) :=
      onlyRuns_pushSlots joined _
    obtain ⟨typed, follows⟩ := follows_of_apply inStep.typed inStep.follows applied
    obtain ⟨typedBoth, followsBoth⟩ := follows_of_apply inStep.typedBoth inStep.followsBoth behind
    refine .inl ⟨_, behind, ⟨?_, fun path => ?_, fun path later earlier now before => ?_⟩, typed,
      follows, typedBoth, followsBoth⟩
    · dsimp only
      rw [beside.active_eq, only.active_eq, after.overlay.active_eq]
    · dsimp only
      rw [beside.declared_eq, only.declared_eq, after.overlay.declared_eq]
    · dsimp only at now
      rw [only.declared_eq] at now
      exact after.overlay.agrees path later earlier now before
  · exact .inr (clash.bind (fun owner name type => (only.type_eq owner name).trans) _)

theorem InStep.foldlM (inStep : InStep first second both small big) (early : first.Typed)
    {segments : List Segment} (applied : segments.foldlM Catalogue.apply second = .ok next)
    (bytes count : Nat) :
    (∃ joined, (segments.map (Segment.shift bytes count)).foldlM Catalogue.apply both =
          .ok joined ∧ Overlay first next joined ∧
        Walk.stages big (segments.map (Segment.shift bytes count)) =
          (Walk.stages small segments).map (Stage.shift bytes count)) ∨
      Clash first next
        ((segments.map (Segment.shift bytes count)).foldlM Catalogue.apply both) := by
  induction segments generalizing second both small big with
  | nil =>
    cases applied
    exact .inl ⟨both, rfl, inStep.overlay, rfl⟩
  | cons segment rest ih =>
    obtain ⟨middle, now, later⟩ := Outcome.foldlM_cons_eq_ok.1 applied
    rw [List.map_cons, List.foldlM_cons, Walk.stages, Walk.stages, List.map_cons]
    rcases inStep.apply early now bytes count with ⟨joined, taken, after⟩ | clash
    · rw [taken, after.owners_eq]
      rcases ih after later with ⟨final, folded, overlay, stages⟩ | clash
      · refine .inl ⟨final, folded, overlay, ?_⟩
        rw [stages]
        rfl
      · exact .inr clash
    · exact .inr (clash.bind (fun _ _ _ => type_kept_of_foldlM later) _)

/-! ## Starting anew -/

/-- A segment that starts a new list of objects does not care which ones are active. -/
theorem apply_clear {segment : Segment} (present : segment.metadata.isSome)
    (fresh : segment.hasNewObjectList = true) (catalogue : Catalogue) :
    Catalogue.apply { catalogue with active := .empty } segment = catalogue.apply segment := by
  have same : Catalogue.applyMetadata { catalogue with active := .empty } segment =
      catalogue.applyMetadata segment := by
    obtain ⟨block, found⟩ := Option.isSome_iff_exists.1 present
    unfold Catalogue.applyMetadata Catalogue.applyRecords
    rw [found, if_pos fresh]
    dsimp only
    rw [if_pos fresh]
  rw [Catalogue.apply, same, Catalogue.apply]

theorem stages_clear {segment : Segment} (present : segment.metadata.isSome)
    (fresh : segment.hasNewObjectList = true) (memory : Memory) (rest : List Segment) :
    Walk.stages { memory with active := [] } (segment :: rest) =
      Walk.stages memory (segment :: rest) := by
  have same : Memory.enter { memory with active := [] } segment = memory.enter segment := by
    unfold Memory.enter
    rw [if_pos ⟨present, fresh⟩, if_pos ⟨present, fresh⟩]
  rw [Walk.stages, same, Walk.stages]

theorem InStep.start {memory : Memory} (early : first.Typed) (follows : first.Follows memory) :
    InStep first .empty { first with active := .empty } .blank { memory with active := [] } where
  overlay := ⟨rfl, fun _ => rfl, nofun⟩
  typed := .empty
  follows := .empty
  typedBoth := early.clear
  followsBoth := ⟨rfl, follows.latest_eq⟩

/-- The segments of a second file that starts anew are taken up behind a first one as they are on
their own, unless a channel changes its type. -/
theorem foldlM_append {memory : Memory} (early : first.Typed) (follows : first.Follows memory)
    {opening : Segment} {rest : List Segment} (present : opening.metadata.isSome)
    (fresh : opening.hasNewObjectList = true)
    (applied : (opening :: rest).foldlM Catalogue.apply .empty = .ok second) (bytes count : Nat) :
    (∃ joined, ((opening :: rest).map (Segment.shift bytes count)).foldlM Catalogue.apply first =
          .ok joined ∧ Overlay first second joined ∧
        Walk.stages memory ((opening :: rest).map (Segment.shift bytes count)) =
          (Walk.stages .blank (opening :: rest)).map (Stage.shift bytes count)) ∨
      Clash first second
        (((opening :: rest).map (Segment.shift bytes count)).foldlM Catalogue.apply first) := by
  have answer := (InStep.start early follows).foldlM early applied bytes count
  rw [List.map_cons, List.foldlM_cons] at answer ⊢
  rwa [@apply_clear (opening.shift bytes count) present fresh,
    @stages_clear (opening.shift bytes count) present fresh] at answer

end Tdms.Catalogue
