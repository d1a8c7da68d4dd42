import Mathlib
import Tdms.Proofs.Catalogue.Apply
import Tdms.Proofs.Catalogue.Consistent
import Tdms.Proofs.Catalogue.Directory

/-!
A catalogue only grows.

Names and the keys of properties are put last and never move, which
`Directory.Grows` says of any number of records. `Extends` says what one segment
of a scan may change besides, and what it leaves alone: every channel keeps its
runs and gets one more at most, behind them. `extends_of_scan` states it for
every segment that follows the ones a catalogue has taken up.
-/

namespace Tdms

open Metadata (RawIndex Record)
open Walk (Memory Stage)

/-! ## Keys -/

namespace OrderedMap

variable {κ α : Type} [DecidableEq κ]

theorem prefix_addKey (key? : Option κ) (keys : List κ) : keys <+: addKey key? keys := by
  cases key? with
  | none => exact List.prefix_rfl
  | some key =>
    rw [addKey]
    split
    · exact List.prefix_rfl
    · exact List.prefix_append _ _

/-- Inserting pairs leaves all keys where they are. -/
theorem prefix_keys_insertAll (map : OrderedMap κ α) (pairs : List (κ × α)) :
    map.keys <+: (map.insertAll pairs).keys := by
  induction pairs generalizing map with
  | nil => exact List.prefix_rfl
  | cons pair rest ih =>
    have one : map.keys <+: (map.insert pair.1 pair.2).keys := by
      rw [keys_insert]
      exact prefix_addKey (some pair.1) map.keys
    exact one.trans (ih (map.insert pair.1 pair.2))

end OrderedMap

/-! ## Names and properties -/

namespace Directory

/-- No name and no key of a property is lost or moved. -/
structure Grows (before after : Directory) : Prop where
  groups : before.groups <+: after.groups
  channels : ∀ owner, before.channels owner <+: after.channels owner
  properties : ∀ path, (before.properties path).keys <+: (after.properties path).keys

theorem Grows.refl (directory : Directory) : directory.Grows directory :=
  ⟨List.prefix_rfl, fun _ => List.prefix_rfl, fun _ => List.prefix_rfl⟩

theorem Grows.trans {first second third : Directory} (early : first.Grows second)
    (late : second.Grows third) : first.Grows third where
  groups := early.groups.trans late.groups
  channels owner := (early.channels owner).trans (late.channels owner)
  properties path := (early.properties path).trans (late.properties path)

theorem grows_write (directory : Directory) (path : ObjectPath)
    (pairs : List (String × Property)) : directory.Grows (directory.write path pairs) where
  groups := OrderedMap.prefix_addKey _ _
  channels _ := OrderedMap.prefix_addKey _ _
  properties other := by
    by_cases same : other = path
    · rw [same, properties_write_self]
      exact OrderedMap.prefix_keys_insertAll _ pairs
    · rw [properties_write_of_ne directory same]

theorem grows_foldl_note (directory : Directory) (records : List Record) :
    directory.Grows (records.foldl note directory) := by
  induction records generalizing directory with
  | nil => exact .refl directory
  | cons record rest ih =>
    exact (directory.grows_write record.path record.properties).trans (ih (directory.note record))

end Directory

namespace Catalogue

variable {catalogue next : Catalogue} {memory : Memory} {stages : List Stage} {segment : Segment}
  {source : Source} {count : Nat}

/-- What a segment does to a catalogue, and what it leaves alone. A group or a channel that is not
named yet has nothing. -/
structure Extends (segment : Segment) (catalogue next : Catalogue) : Prop where
  /-- Groups, their channels, and the keys of all properties stay where they are. -/
  directory : catalogue.directory.Grows next.directory
  type_kept : ∀ owner name type, (catalogue.channelAt owner name).type = some type →
    (next.channelAt owner name).type = some type
  /-- Every channel gets at most one more run, behind those it has, and counts its samples. -/
  run_added : ∀ owner name, ∃ run? : Option Run,
    (next.channelAt owner name).runs = (catalogue.channelAt owner name).runs ++ run?.toList ∧
    (next.channelAt owner name).sampleCount =
      (catalogue.channelAt owner name).sampleCount + (run?.map Run.totalSamples).getD 0
  /-- A channel that is not active with raw data keeps its runs. -/
  idle : ∀ owner name,
    (∀ index, next.active.get? (.channel owner name) ≠ some (some index)) →
      (next.channelAt owner name).runs = (catalogue.channelAt owner name).runs ∧
      (next.channelAt owner name).sampleCount = (catalogue.channelAt owner name).sampleCount
  /-- Without metadata nothing but runs is changed. -/
  without_metadata : segment.metadata = none →
    next.directory = catalogue.directory ∧
    (∀ owner name, (next.channelAt owner name).type = (catalogue.channelAt owner name).type) ∧
    next.active = catalogue.active ∧ next.declared = catalogue.declared
  /-- Without raw data no run is added. -/
  without_data : segment.dataLength = 0 → ∀ owner name,
    (next.channelAt owner name).runs = (catalogue.channelAt owner name).runs ∧
    (next.channelAt owner name).sampleCount = (catalogue.channelAt owner name).sampleCount

/-- The runs of one more stage follow those of the stages before, and are counted. -/
theorem Tracks.runs_of_stage {before after : Memory} {stage : Stage}
    (tracks : catalogue.Tracks before stages) (later : next.Tracks after (stages ++ [stage]))
    (owner name : String) :
    (next.channelAt owner name).runs =
        (catalogue.channelAt owner name).runs ++ stage.runsAt (.channel owner name) ∧
      (next.channelAt owner name).sampleCount = (catalogue.channelAt owner name).sampleCount +
        ((stage.runsAt (.channel owner name)).map Run.totalSamples).sum := by
  have runs : (next.channelAt owner name).runs =
      (catalogue.channelAt owner name).runs ++ stage.runsAt (.channel owner name) := by
    rw [later.runs_eq, tracks.runs_eq, List.flatMap_append, List.flatMap_singleton]
  refine ⟨runs, ?_⟩
  rw [later.count_eq, tracks.count_eq, runs, List.map_append, List.sum_append]

/-- Where a stage adds no run to a channel, the channel keeps its runs. -/
theorem Tracks.kept_of_stage {before after : Memory} {stage : Stage}
    (tracks : catalogue.Tracks before stages) (later : next.Tracks after (stages ++ [stage]))
    {owner name : String} (none : stage.runsAt (.channel owner name) = []) :
    (next.channelAt owner name).runs = (catalogue.channelAt owner name).runs ∧
      (next.channelAt owner name).sampleCount = (catalogue.channelAt owner name).sampleCount := by
  have added := tracks.runs_of_stage later owner name
  rw [none] at added
  exact ⟨added.1.trans (List.append_nil _), added.2⟩

/-- A segment without metadata changes runs only. -/
theorem onlyRuns_of_apply (absent : segment.metadata = none)
    (applied : catalogue.apply segment = .ok next) :
    next.directory = catalogue.directory ∧
    (∀ owner name, (next.channelAt owner name).type = (catalogue.channelAt owner name).type) ∧
    next.active = catalogue.active ∧ next.declared = catalogue.declared := by
  have same := directory_apply applied
  rw [records_of_none absent] at same
  obtain ⟨described, recorded, -, rfl⟩ := apply_eq_ok.1 applied
  rcases applyMetadata_eq_ok.1 recorded with ⟨-, rfl⟩ | ⟨block, -, present, -⟩
  · have only : described.OnlyRuns (described.placed segment) := onlyRuns_pushSlots described _
    exact ⟨same, only.type_eq, only.active_eq, only.declared_eq⟩
  · rw [absent] at present
    cases present

/-- A channel without active raw data owns none of what the plain reader visits next. -/
theorem Tracks.absent_of_idle (tracks : next.Tracks memory stages) {owner name : String}
    (idle : ∀ index, next.active.get? (.channel owner name) ≠ some (some index)) :
    ObjectPath.channel owner name ∉ memory.owners.map Prod.fst := by
  rw [← tracks.follows.owners_eq]
  intro present
  obtain ⟨⟨path, index⟩, listed, rfl⟩ := List.mem_map.1 present
  exact idle index (tracks.typed.of_mem_owners listed).1

/-- Taking up the segment behind those that a catalogue tracks extends it. -/
theorem Tracks.extends (tracks : catalogue.Tracks memory stages)
    (short : segment.dataLength < UInt64.size)
    (last : ∀ stage ∈ stages, stage.segment.ordinal < segment.ordinal)
    (applied : catalogue.apply segment = .ok next) : Extends segment catalogue next where
  directory := by
    rw [directory_apply applied]
    exact Directory.grows_foldl_note _ _
  type_kept owner name type typed := type_kept_of_apply applied typed
  run_added owner name := by
    have later := tracks.apply short last applied
    have sound := later.sound _ (List.mem_append_right _ (List.mem_singleton_self _))
    have single := sound.length_runsAt_le (.channel owner name)
    obtain ⟨runs, count⟩ := tracks.runs_of_stage later owner name
    rcases added : Stage.runsAt _ (.channel owner name) with - | ⟨run, rest⟩
    · rw [added] at runs count
      exact ⟨none, runs, count⟩
    · rw [added, List.length_cons] at single
      obtain rfl : rest = [] := List.eq_nil_of_length_eq_zero (by omega)
      rw [added] at runs count
      exact ⟨some run, runs, count⟩
  idle owner name idle := by
    have later := tracks.apply short last applied
    exact tracks.kept_of_stage later (Stage.runsAt_of_absent (later.absent_of_idle idle))
  without_metadata absent := onlyRuns_of_apply absent applied
  without_data empty owner name := by
    have rounds : Stage.rounds ⟨segment, (memory.enter segment).owners⟩ = 0 := by
      rw [Stage.rounds, empty, Nat.zero_div]
    exact tracks.kept_of_stage (tracks.apply short last applied)
      (Stage.runsAt_of_rounds rounds _)

/-- Whatever bytes a source holds, the segment that follows the first ones of its scan extends the
catalogue of these, as long as none of them is refused. -/
theorem extends_of_scan (reached : ((scan source).segments.take count).foldlM apply empty =
      .ok catalogue)
    (found : (scan source).segments[count]? = some segment)
    (applied : catalogue.apply segment = .ok next) : Extends segment catalogue next := by
  have scanned := scan_scanned source
  have short : segment.dataLength < UInt64.size := by
    obtain ⟨-, -, -, fits⟩ := scanned.bounds_of_mem (List.mem_of_getElem? found)
    exact (Nat.le_add_left _ _).trans_lt fits
  refine (Tracks.of_scan reached).extends short (fun stage listed => ?_) applied
  -- Segments are numbered by their positions, and those taken up so far stand before `count`.
  obtain ⟨position, here⟩ := List.getElem?_of_mem (mem_of_mem_stages listed)
  have early : position < count := by
    have inside := (List.getElem?_eq_some_iff.1 here).1
    rw [List.length_take] at inside
    omega
  have before := (scanned.take count).ordinal_of_getElem? here
  have behind := scanned.ordinal_of_getElem? found
  omega

theorem extends_of_sample :
    ∃ catalogue segment next,
      ((scan (.ofBytes sampleFile)).segments.take 1).foldlM apply empty = .ok catalogue ∧
      (scan (.ofBytes sampleFile)).segments[1]? = some segment ∧
      catalogue.apply segment = .ok next ∧ Extends segment catalogue next := by
  have second : (scan (.ofBytes sampleFile)).segments[1]?.isSome = true := by decide +kernel
  have built : (((scan (.ofBytes sampleFile)).segments.take 2).foldlM apply
      empty).toOption.isSome = true := by decide +kernel
  obtain ⟨segment, found⟩ := Option.isSome_iff_exists.1 second
  obtain ⟨next, both⟩ := Outcome.exists_of_isSome built
  rw [List.take_add_one, found, List.foldlM_append] at both
  obtain ⟨catalogue, first, last⟩ := Outcome.bind_eq_ok.1 both
  obtain ⟨after, applied, -⟩ := Outcome.foldlM_cons_eq_ok.1 last
  exact ⟨catalogue, segment, after, first, found, applied, extends_of_scan first found applied⟩

end Catalogue

end Tdms
