import Mathlib
import Tdms.Proofs.Catalogue.Runs

/-!
What holds of a catalogue that takes up segments, whatever they are.

The catalogue stays in step with the plain reader, counts the segments, and
never changes the type of a channel. A segment is only refused for what its
metadata says: that it is truncated or has a corrupt header is left to the scan.
-/

namespace Tdms

/-- The errors for which a segment that was read is refused. -/
def Error.RefusesSegment : Error → Prop
  | .unknownType _ _ | .inconsistentType _ _ _ | .corruptMetadata _ _ => True
  | _ => False

namespace Catalogue

open Metadata (RawIndex Record)
open Walk (Memory)

variable {catalogue next : Catalogue} {segment : Segment} {segments : List Segment}

/-- Taking up a segment keeps the catalogue in step with the plain reader. -/
theorem follows_of_apply {memory : Memory} (typed : catalogue.Typed)
    (follows : catalogue.Follows memory) (applied : catalogue.apply segment = .ok next) :
    next.Typed ∧ next.Follows (memory.enter segment) := by
  rcases apply_eq_ok.1 applied with ⟨described, recorded, -, rfl⟩
  have taken := Taken.of_metadata typed follows recorded
  have only : described.OnlyRuns (described.placed segment) := onlyRuns_pushSlots described _
  have kept := only.typed taken.typed
  refine ⟨⟨kept.1, kept.2, kept.3, kept.4, kept.5⟩, ?_, ?_⟩
  · exact (congrArg OrderedMap.entries only.active_eq).trans taken.follows.active_eq
  · intro path
    rw [← taken.follows.latest_eq, ← only.declared_eq]

theorem follows_of_foldlM {memory : Memory} (typed : catalogue.Typed)
    (follows : catalogue.Follows memory)
    (applied : segments.foldlM Catalogue.apply catalogue = .ok next) :
    next.Typed ∧ next.Follows (segments.foldl Memory.enter memory) := by
  induction segments generalizing catalogue memory with
  | nil =>
    cases applied
    exact ⟨typed, follows⟩
  | cons segment rest ih =>
    obtain ⟨middle, first, later⟩ := Outcome.foldlM_cons_eq_ok.1 applied
    have step := follows_of_apply typed follows first
    exact ih step.1 step.2 later

/-! ## Types -/

theorem type_kept_of_apply (applied : catalogue.apply segment = .ok next) {owner name : String}
    {type : ScalarType} (typed : (catalogue.channelAt owner name).type = some type) :
    (next.channelAt owner name).type = some type := by
  obtain ⟨described, recorded, -, rfl⟩ := apply_eq_ok.1 applied
  have only : described.OnlyRuns (described.placed segment) := onlyRuns_pushSlots described _
  change ((described.placed segment).channelAt owner name).type = some type
  rw [only.type_eq]
  exact (SameRuns.of_metadata recorded).type_kept owner name type typed

/-- The type of a channel is never changed. -/
theorem type_kept_of_foldlM (applied : segments.foldlM Catalogue.apply catalogue = .ok next)
    {owner name : String} {type : ScalarType}
    (typed : (catalogue.channelAt owner name).type = some type) :
    (next.channelAt owner name).type = some type := by
  induction segments generalizing catalogue with
  | nil =>
    cases applied
    exact typed
  | cons segment rest ih =>
    obtain ⟨middle, first, later⟩ := Outcome.foldlM_cons_eq_ok.1 applied
    exact ih later (type_kept_of_apply first typed)

/-! ## Counting segments -/

theorem segmentCount_describe (catalogue : Catalogue) (path : ObjectPath)
    (pairs : List (String × Property)) :
    (catalogue.describe path pairs).segmentCount = catalogue.segmentCount := by
  cases path with
  | _ => rfl

theorem segmentCount_declareAny {offset : Nat} {path : ObjectPath} {index? : Option RawIndex}
    (declared : catalogue.declareAny offset path index? = .ok next) :
    next.segmentCount = catalogue.segmentCount := by
  cases index? with
  | none =>
    cases declared
    rfl
  | some index =>
    cases path with
    | root | group name => cases declared
    | channel owner name =>
      rw [declareAny, declare] at declared
      dsimp only at declared
      split at declared
      · split at declared
        · cases declared
          rfl
        · cases declared
      · cases declared
        rfl

theorem segmentCount_applyRecords {offset : Nat} {records : List Record}
    (applied : records.foldlM (applyRecord offset) catalogue = .ok next) :
    next.segmentCount = catalogue.segmentCount := by
  induction records generalizing catalogue with
  | nil =>
    cases applied
    rfl
  | cons record rest ih =>
    obtain ⟨middle, first, later⟩ := Outcome.foldlM_cons_eq_ok.1 applied
    obtain ⟨index?, declared, -, stored, rfl⟩ := applyRecord_eq_ok.1 first
    rw [ih later, ← segmentCount_declareAny stored]
    exact segmentCount_describe declared record.path record.properties

theorem segmentCount_applyMetadata (applied : catalogue.applyMetadata segment = .ok next) :
    next.segmentCount = catalogue.segmentCount := by
  obtain ⟨-, rfl⟩ | ⟨block, records, -, -, recorded⟩ := applyMetadata_eq_ok.1 applied
  · rfl
  · rw [segmentCount_applyRecords recorded]
    split
    · rfl
    · rfl

theorem segmentCount_pushSlots (slots : List ((ObjectPath × RawIndex) × Option Run)) :
    (slots.foldl pushSlot catalogue).segmentCount = catalogue.segmentCount := by
  induction slots generalizing catalogue with
  | nil => rfl
  | cons slot rest ih =>
    obtain ⟨⟨path, index⟩, run?⟩ := slot
    rw [List.foldl_cons, ih]
    cases run? with
    | none => rfl
    | some run =>
      cases path with
      | _ => rfl

/-- The catalogue counts the segments that it takes up. -/
theorem segmentCount_foldlM (applied : segments.foldlM Catalogue.apply catalogue = .ok next) :
    next.segmentCount = catalogue.segmentCount + segments.length := by
  induction segments generalizing catalogue with
  | nil =>
    cases applied
    rfl
  | cons segment rest ih =>
    obtain ⟨middle, first, later⟩ := Outcome.foldlM_cons_eq_ok.1 applied
    obtain ⟨described, recorded, -, rfl⟩ := apply_eq_ok.1 first
    have placed : (described.placed segment).segmentCount = catalogue.segmentCount :=
      (segmentCount_pushSlots _).trans (segmentCount_applyMetadata recorded)
    rw [ih later, List.length_cons]
    change (described.placed segment).segmentCount + 1 + rest.length = _
    omega

/-! ## Errors -/

theorem declare_fails (catalogue : Catalogue) (offset : Nat) (path : ObjectPath)
    (index : RawIndex) :
    Outcome.FailsOnly Error.RefusesSegment (catalogue.declare offset path index) := by
  unfold declare
  cases path with
  | root | group name => exact .error trivial
  | channel owner name =>
    dsimp only
    split
    · split
      · exact .ok _
      · exact .error trivial
    · exact .ok _

theorem resolve_fails (catalogue : Catalogue) (offset : Nat) (record : Record) :
    Outcome.FailsOnly Error.RefusesSegment (catalogue.resolve offset record) := by
  unfold resolve
  split
  · exact .ok _
  · exact .ok _
  · split
    · exact .ok _
    · exact .error trivial

theorem applyRecord_fails (offset : Nat) (catalogue : Catalogue) (record : Record) :
    Outcome.FailsOnly Error.RefusesSegment (applyRecord offset catalogue record) := by
  refine .bind (resolve_fails catalogue offset record) fun index? => ?_
  cases index? with
  | none => exact .ok _
  | some index => exact .bind (declare_fails catalogue offset record.path index) fun _ => .ok _

theorem applyMetadata_fails (catalogue : Catalogue) (segment : Segment) :
    Outcome.FailsOnly Error.RefusesSegment (catalogue.applyMetadata segment) := by
  unfold applyMetadata
  split
  · exact .ok _
  · split
    · exact .error trivial
    · exact .error trivial
    · exact .foldlM (applyRecord_fails segment.offset) _ _

/-- Raw data is refused for one reason, that the metadata declares no layout of it. -/
theorem applyData_error {error : Error} (failed : catalogue.applyData segment = .error error) :
    ∃ fault, error = .corruptMetadata segment.offset fault := by
  unfold applyData at failed
  dsimp only at failed
  split at failed
  · cases failed
    exact ⟨_, rfl⟩
  · cases failed

/-- A segment is refused for its metadata, or because its raw data has no layout. -/
theorem apply_eq_error {error : Error} (failed : catalogue.apply segment = .error error) :
    catalogue.applyMetadata segment = .error error ∨
      ∃ fault, error = .corruptMetadata segment.offset fault := by
  rw [apply] at failed
  rcases Outcome.bind_eq_error.1 failed with recorded | ⟨described, -, refused⟩
  · exact .inl recorded
  · dsimp only at refused
    split at refused
    · rcases Outcome.bind_eq_error.1 refused with placed | ⟨next, -, none⟩
      · exact .inr (applyData_error placed)
      · cases none
    · cases refused

/-- A segment is only refused for an unknown or an inconsistent type or for corrupt metadata. -/
theorem apply_fails (catalogue : Catalogue) (segment : Segment) :
    Outcome.FailsOnly Error.RefusesSegment (catalogue.apply segment) := by
  intro error failed
  rcases apply_eq_error failed with recorded | ⟨fault, rfl⟩
  · exact applyMetadata_fails catalogue segment error recorded
  · trivial

end Catalogue

end Tdms
