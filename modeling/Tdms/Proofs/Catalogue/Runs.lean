import Mathlib
import Tdms.Proofs.Catalogue.Records
import Tdms.Proofs.Segment
import Tdms.Proofs.Stage

/-!
The runs that a catalogue collects.

`Tracks` says what a catalogue holds after some stages of the plain walk: every
channel has exactly its runs in these stages, in order. Taking up a segment
adds its stage, so that the catalogue of all segments of a scan tracks the
whole walk.
-/

namespace Tdms.Catalogue

open Metadata (RawIndex Record)
open Walk (Memory Stage)

variable {catalogue next : Catalogue} {memory : Memory}

/-! ## Pushing runs -/

/-- Gives the channel of a slot its run, if the slot holds one. -/
def pushSlot (catalogue : Catalogue) (slot : (ObjectPath × RawIndex) × Option Run) : Catalogue :=
  match slot.2 with
  | some run => catalogue.pushRun slot.1.1 run
  | none => catalogue

/-- The runs of the object at `path` among some slots. -/
def slotRuns (path : ObjectPath) (slots : List ((ObjectPath × RawIndex) × Option Run)) :
    List Run :=
  slots.filterMap fun slot => if slot.1.1 = path then slot.2 else none

/-- Everything but runs and their counts is left as it was. -/
structure OnlyRuns (catalogue next : Catalogue) : Prop where
  active_eq : next.active = catalogue.active
  declared_eq : next.declared = catalogue.declared
  channel?_isSome : ∀ owner name,
    (next.channel? owner name).isSome = (catalogue.channel? owner name).isSome
  type_eq : ∀ owner name, (next.channelAt owner name).type = (catalogue.channelAt owner name).type
  named : catalogue.Named → next.Named

theorem OnlyRuns.refl (catalogue : Catalogue) : catalogue.OnlyRuns catalogue :=
  ⟨rfl, rfl, fun _ _ => rfl, fun _ _ => rfl, id⟩

theorem OnlyRuns.trans {first second third : Catalogue} (early : first.OnlyRuns second)
    (late : second.OnlyRuns third) : first.OnlyRuns third where
  active_eq := late.active_eq.trans early.active_eq
  declared_eq := late.declared_eq.trans early.declared_eq
  channel?_isSome owner name :=
    (late.channel?_isSome owner name).trans (early.channel?_isSome owner name)
  type_eq owner name := (late.type_eq owner name).trans (early.type_eq owner name)
  named kept := late.named (early.named kept)

theorem OnlyRuns.typed (only : catalogue.OnlyRuns next) (typed : catalogue.Typed) :
    next.Typed where
  active_distinct := by
    rw [only.active_eq]
    exact typed.active_distinct
  active_declared := by
    rw [only.active_eq, only.declared_eq]
    exact typed.active_declared
  declared_wellFormed := by
    rw [only.declared_eq]
    exact typed.declared_wellFormed
  declared_channel := by
    rw [only.declared_eq]
    exact typed.declared_channel
  type_eq owner name := by
    rw [only.type_eq, only.declared_eq]
    exact typed.type_eq owner name

theorem onlyRuns_modifyChannel (catalogue : Catalogue) (owner name : String)
    {change : Channel → Channel}
    (kept : ∀ channel, (change channel).group = channel.group ∧
      (change channel).name = channel.name ∧ (change channel).type = channel.type) :
    catalogue.OnlyRuns (catalogue.modifyChannel owner name change) := by
  refine ⟨rfl, rfl, fun group channel => ?_, fun group channel => ?_, fun named => ?_⟩
  · rw [channel?_modifyChannel]
    split
    · rename_i here
      rw [here.1, here.2, Option.isSome_map]
    · rfl
  · rw [channelAt, channelAt, channel?_modifyChannel]
    split
    · rename_i here
      rw [here.1, here.2]
      cases catalogue.channel? owner name with
      | none => rfl
      | some found => exact (kept found).2.2
    · rfl
  · exact named.modifyChannel owner name fun channel => ⟨(kept channel).1, (kept channel).2.1⟩

theorem onlyRuns_pushSlot (catalogue : Catalogue) (slot : (ObjectPath × RawIndex) × Option Run) :
    catalogue.OnlyRuns (catalogue.pushSlot slot) := by
  obtain ⟨⟨path, index⟩, run?⟩ := slot
  cases run? with
  | none => exact .refl catalogue
  | some run =>
    cases path with
    | root => exact .refl catalogue
    | group name => exact .refl catalogue
    | channel owner name =>
      exact onlyRuns_modifyChannel catalogue owner name fun channel => ⟨rfl, rfl, rfl⟩

theorem onlyRuns_pushSlots (catalogue : Catalogue)
    (slots : List ((ObjectPath × RawIndex) × Option Run)) :
    catalogue.OnlyRuns (slots.foldl pushSlot catalogue) := by
  induction slots generalizing catalogue with
  | nil => exact .refl catalogue
  | cons slot rest ih => exact (onlyRuns_pushSlot catalogue slot).trans (ih _)

/-- A slot of a channel that the file has named pushes its run, and no other channel changes. -/
theorem channelAt_pushSlot {slot : (ObjectPath × RawIndex) × Option Run}
    (present : ∀ owner name, slot.1.1 = .channel owner name →
      (catalogue.channel? owner name).isSome) (owner name : String) :
    (catalogue.pushSlot slot).channelAt owner name =
      (slotRuns (.channel owner name) [slot]).foldl Channel.push
        (catalogue.channelAt owner name) := by
  obtain ⟨⟨path, index⟩, run?⟩ := slot
  rw [slotRuns, List.filterMap_cons, List.filterMap_nil]
  cases run? with
  | none => simp [pushSlot]
  | some run =>
    by_cases here : path = .channel owner name
    · subst here
      obtain ⟨channel, found⟩ := Option.isSome_iff_exists.1 (present owner name rfl)
      simp [pushSlot, pushRun, channelAt, channel?_modifyChannel, found]
    · simp only [if_neg here, List.foldl_nil]
      cases path with
      | root => rfl
      | group name => rfl
      | channel group channel =>
        have other : ¬ (owner = group ∧ name = channel) := by
          rintro ⟨rfl, rfl⟩
          exact here rfl
        simp only [pushSlot, pushRun, channelAt, channel?_modifyChannel, if_neg other]

/-- Pushing the runs of all slots gives every channel its own, in order. -/
theorem channelAt_pushSlots {slots : List ((ObjectPath × RawIndex) × Option Run)}
    (present : ∀ slot ∈ slots, ∀ owner name, slot.1.1 = .channel owner name →
      (catalogue.channel? owner name).isSome) (owner name : String) :
    (slots.foldl pushSlot catalogue).channelAt owner name =
      (slotRuns (.channel owner name) slots).foldl Channel.push
        (catalogue.channelAt owner name) := by
  induction slots generalizing catalogue with
  | nil => rfl
  | cons slot rest ih =>
    obtain ⟨first, later⟩ := List.forall_mem_cons.1 present
    have split : slotRuns (.channel owner name) (slot :: rest) =
        slotRuns (.channel owner name) [slot] ++ slotRuns (.channel owner name) rest := by
      rw [slotRuns, ← List.singleton_append, List.filterMap_append]
      rfl
    rw [List.foldl_cons, ih, channelAt_pushSlot first, ← List.foldl_append, split]
    intro other listed group channel here
    rw [(onlyRuns_pushSlot catalogue slot).channel?_isSome]
    exact later other listed group channel here

/-- A run of another segment than those before it is merged into none of them. -/
theorem runs_push_of_lt {channel : Channel} {run : Run}
    (later : ∀ before ∈ channel.runs, before.segment < run.segment) :
    (channel.push run).runs = channel.runs ++ [run] := by
  have apart : Run.push channel.latestRuns run = run :: channel.latestRuns := by
    cases held : channel.latestRuns with
    | nil => rfl
    | cons latest before =>
      have listed : latest ∈ channel.runs := by
        rw [Channel.runs, held, List.mem_reverse]
        exact List.mem_cons_self
      have other := later latest listed
      have broken : ¬ latest.isContinuedBy run = true := by
        simp only [Run.isContinuedBy, Bool.and_eq_true, beq_iff_eq]
        omega
      rw [Run.push, if_neg broken]
  rw [Channel.runs, Channel.push, apart, List.reverse_cons]
  rfl

/-! ## Runs of whole stages -/

/-- A catalogue holds what the plain walk over some stages leaves behind: every channel has its
runs in these stages, in order, and nothing else. -/
structure Tracks (catalogue : Catalogue) (memory : Memory) (stages : List Stage) : Prop where
  typed : catalogue.Typed
  follows : catalogue.Follows memory
  named : catalogue.Named
  sound : ∀ stage ∈ stages, stage.Sound
  owners_typed : ∀ stage ∈ stages, ∀ owner ∈ stage.owners,
    ∃ group name, owner.1 = .channel group name ∧
      (catalogue.channelAt group name).type = some owner.2.type
  runs_eq : ∀ group name, (catalogue.channelAt group name).runs =
    stages.flatMap fun stage => stage.runsAt (.channel group name)
  count_eq : ∀ group name, (catalogue.channelAt group name).sampleCount =
    ((catalogue.channelAt group name).runs.map Run.totalSamples).sum

theorem Tracks.empty : Catalogue.empty.Tracks .blank [] where
  typed := .empty
  follows := .empty
  named := .empty
  sound := nofun
  owners_typed := nofun
  runs_eq _ _ := rfl
  count_eq _ _ := rfl

theorem Follows.owners_eq (follows : catalogue.Follows memory) :
    catalogue.owners = memory.owners := by
  rw [owners, Memory.owners, follows.active_eq]

/-- An object that owns raw data is active and has declared it last. -/
theorem Typed.of_mem_owners (typed : catalogue.Typed) {owner : ObjectPath × RawIndex}
    (listed : owner ∈ catalogue.owners) :
    catalogue.active.get? owner.1 = some (some owner.2) ∧
      catalogue.declared.get? owner.1 = some owner.2 := by
  obtain ⟨⟨path, index?⟩, member, given⟩ := List.mem_filterMap.1 listed
  obtain ⟨index, rfl, rfl⟩ := Option.map_eq_some_iff.1 given
  have active := (OrderedMap.get?_eq_some_iff typed.active_distinct).2 member
  exact ⟨active, typed.active_declared path index active⟩

theorem Typed.owners_distinct (typed : catalogue.Typed) :
    (catalogue.owners.map Prod.fst).Nodup := by
  have names : ∀ entries : List (ObjectPath × Option RawIndex),
      (entries.filterMap fun entry => entry.2.map fun index => (entry.1, index)).map Prod.fst =
        (entries.filter fun entry => entry.2.isSome).map Prod.fst := by
    intro entries
    induction entries with
    | nil => rfl
    | cons entry rest ih =>
      obtain ⟨path, index?⟩ := entry
      cases index? with
      | none => simpa using ih
      | some index => simpa using ih
  rw [owners, names]
  exact typed.active_distinct.sublist (List.filter_sublist.map Prod.fst)

/-- The stage of a segment that a catalogue has taken up the metadata of is sound, once its raw
data is known to be laid out. -/
theorem Typed.sound (typed : catalogue.Typed) {segment : Segment}
    (short : segment.dataLength < UInt64.size)
    (laidOut : 0 < segment.dataLength → Stage.LaidOut ⟨segment, catalogue.owners⟩) :
    Stage.Sound ⟨segment, catalogue.owners⟩ where
  laidOut := laidOut
  distinct := typed.owners_distinct
  wellFormed _ listed := typed.declared_wellFormed _ _ (typed.of_mem_owners listed).2
  short := short

/-! ## Taking up a segment -/

/-- The catalogue with all runs of the raw data of `segment`. -/
def placed (catalogue : Catalogue) (segment : Segment) : Catalogue :=
  (catalogue.owners.zip (Stage.runs ⟨segment, catalogue.owners⟩)).foldl pushSlot catalogue

theorem applyData_eq_ok {segment : Segment} :
    catalogue.applyData segment = .ok next ↔
      Stage.LaidOut ⟨segment, catalogue.owners⟩ ∧ next = catalogue.placed segment := by
  rw [applyData, placed]
  dsimp only
  have answers := @Layout.runs_eq_ok ⟨segment, catalogue.owners⟩
  cases found : Layout.runs segment (catalogue.owners.map Prod.snd) with
  | error fault =>
    simp only [reduceCtorEq, false_iff]
    rintro ⟨laidOut, -⟩
    cases found.symm.trans (answers.2 ⟨laidOut, rfl⟩)
  | ok runs =>
    obtain ⟨laidOut, rfl⟩ := answers.1 found
    simp only [Except.ok.injEq, laidOut, true_and]
    exact eq_comm

theorem placed_of_empty {segment : Segment} (empty : segment.dataLength = 0) :
    catalogue.placed segment = catalogue := by
  have none : Stage.rounds ⟨segment, catalogue.owners⟩ = 0 := by
    rw [Stage.rounds, empty, Nat.zero_div]
  rw [placed, Stage.runs, if_pos none]
  generalize catalogue.owners = owners
  induction owners with
  | nil => rfl
  | cons owner rest ih => exact ih

/-- A segment is taken up in two stages: its metadata, then the runs of its raw data. -/
theorem apply_eq_ok {segment : Segment} :
    catalogue.apply segment = .ok next ↔
      ∃ described, catalogue.applyMetadata segment = .ok described ∧
        (0 < segment.dataLength → Stage.LaidOut ⟨segment, described.owners⟩) ∧
        next = { described.placed segment with
          segmentCount := (described.placed segment).segmentCount + 1 } := by
  rw [apply, Outcome.bind_eq_ok]
  refine exists_congr fun described => and_congr_right fun _ => ?_
  dsimp only
  by_cases some : 0 < segment.dataLength
  · rw [if_pos some, Outcome.bind_eq_ok]
    constructor
    · rintro ⟨final, data, rest⟩
      obtain ⟨laidOut, rfl⟩ := applyData_eq_ok.1 data
      cases rest
      exact ⟨fun _ => laidOut, rfl⟩
    · rintro ⟨laidOut, rfl⟩
      exact ⟨described.placed segment, applyData_eq_ok.2 ⟨laidOut some, rfl⟩, rfl⟩
  · rw [if_neg some, placed_of_empty (Nat.eq_zero_of_not_pos some)]
    constructor
    · intro rest
      cases rest
      exact ⟨fun filled => absurd filled some, rfl⟩
    · rintro ⟨-, rfl⟩
      rfl

/-! ## Tracking the plain walk -/

theorem Tracks.type_of_owner {stages : List Stage} (tracks : catalogue.Tracks memory stages)
    {stage : Stage} (member : stage ∈ stages) {owner name : String} {index : RawIndex}
    (owned : (ObjectPath.channel owner name, index) ∈ stage.owners) {type : ScalarType}
    (typed : (catalogue.channelAt owner name).type = some type) : index.type = type := by
  obtain ⟨group, channel, here, known⟩ := tracks.owners_typed stage member _ owned
  obtain ⟨rfl, rfl⟩ := ObjectPath.channel.inj here
  exact Option.some.inj (known.symm.trans typed)

/-- All runs of a channel expand to the pieces of its blocks in all stages, in the same order. -/
theorem Tracks.pieces_eq {stages : List Stage} (tracks : catalogue.Tracks memory stages)
    {group name : String} {type : ScalarType}
    (typed : (catalogue.channelAt group name).type = some type) :
    (catalogue.channelAt group name).runs.flatMap (Run.pieces type) =
      (((stages.flatMap Stage.blocks).filter fun block =>
        block.path = .channel group name).flatMap Walk.Block.pieces).filter
          fun piece => 0 < piece.count := by
  have each : ∀ stage ∈ stages, (stage.runsAt (.channel group name)).flatMap (Run.pieces type) =
      ((stage.blocks.filter fun block => block.path = .channel group name).flatMap
        Walk.Block.pieces).filter fun piece => 0 < piece.count := by
    intro stage member
    exact (tracks.sound stage member).pieces_runsAt fun index owned =>
      tracks.type_of_owner member owned typed
  have joined : ((stages.flatMap Stage.blocks).filter fun block =>
      block.path = .channel group name) = stages.flatMap fun stage =>
        stage.blocks.filter fun block => block.path = .channel group name :=
    List.filter_flatMap
  rw [tracks.runs_eq, List.flatMap_assoc, joined, List.flatMap_assoc, List.filter_flatMap]
  exact List.flatMap_congr each

/-- The number of segments taken up plays no part. -/
theorem Tracks.counted {stages : List Stage} (tracks : catalogue.Tracks memory stages)
    (count : Nat) : Tracks { catalogue with segmentCount := count } memory stages where
  typed := ⟨tracks.typed.1, tracks.typed.2, tracks.typed.3, tracks.typed.4, tracks.typed.5⟩
  follows := ⟨tracks.follows.1, tracks.follows.2⟩
  named := ⟨tracks.named.1, tracks.named.2⟩
  sound := tracks.sound
  owners_typed := tracks.owners_typed
  runs_eq := tracks.runs_eq
  count_eq := tracks.count_eq

/-- Runs of one stage, if they are later than all before them, follow those of a channel. -/
theorem runs_foldl_push {channel : Channel} {runs : List Run} (single : runs.length ≤ 1)
    (later : ∀ before ∈ channel.runs, ∀ run ∈ runs, before.segment < run.segment) :
    (runs.foldl Channel.push channel).runs = channel.runs ++ runs ∧
      (runs.foldl Channel.push channel).sampleCount =
        channel.sampleCount + (runs.map Run.totalSamples).sum := by
  cases runs with
  | nil => exact ⟨(List.append_nil _).symm, rfl⟩
  | cons run rest =>
    obtain rfl : rest = [] := List.eq_nil_of_length_eq_zero (by simpa using single)
    refine ⟨runs_push_of_lt fun before listed => later before listed run List.mem_cons_self, ?_⟩
    rw [List.map_singleton, List.sum_singleton]
    rfl

/-- The channels of a catalogue after the runs of a stage were pushed. -/
theorem channelAt_placed (typed : catalogue.Typed) (segment : Segment) (group name : String) :
    (catalogue.placed segment).channelAt group name =
      (Stage.runsAt ⟨segment, catalogue.owners⟩ (.channel group name)).foldl Channel.push
        (catalogue.channelAt group name) := by
  refine channelAt_pushSlots (fun slot listed owner channel here => ?_) group name
  have declared := (typed.of_mem_owners (List.of_mem_zip listed).1).2
  rw [here] at declared
  rw [channel?_of_type (typed.type_of_declared declared)]
  rfl

/-- Taking up a segment adds its stage. -/
theorem Tracks.apply {stages : List Stage} (tracks : catalogue.Tracks memory stages)
    {segment : Segment} (short : segment.dataLength < UInt64.size)
    (later : ∀ stage ∈ stages, stage.segment.ordinal < segment.ordinal)
    (applied : catalogue.apply segment = .ok next) :
    next.Tracks (memory.enter segment)
      (stages ++ [⟨segment, (memory.enter segment).owners⟩]) := by
  obtain ⟨described, recorded, laidOut, rfl⟩ := apply_eq_ok.1 applied
  have taken := Taken.of_metadata tracks.typed tracks.follows recorded
  have sound := taken.typed.sound short laidOut
  have only : described.OnlyRuns (described.placed segment) := onlyRuns_pushSlots described _
  have before : ∀ group name, (described.channelAt group name).runs =
      stages.flatMap fun stage => stage.runsAt (.channel group name) := by
    intro group name
    rw [← tracks.runs_eq, Channel.runs, Channel.runs, taken.sameRuns.runs_eq]
  -- Runs are merged within a segment only, and every run so far is of an earlier one.
  have earlier : ∀ group name, ∀ run ∈ (described.channelAt group name).runs,
      ∀ other ∈ Stage.runsAt ⟨segment, described.owners⟩ (.channel group name),
        run.segment < other.segment := by
    intro group name run listed other added
    rw [before] at listed
    obtain ⟨stage, member, inside⟩ := List.mem_flatMap.1 listed
    obtain ⟨-, -, -, within⟩ := (tracks.sound stage member).shaped_of_mem_runsAt inside
    obtain ⟨-, -, -, here⟩ := sound.shaped_of_mem_runsAt added
    rw [within.segment_eq, here.segment_eq]
    exact later stage member
  have pushed := fun group name => runs_foldl_push
    (sound.length_runsAt_le (.channel group name)) (earlier group name)
  rw [← taken.follows.owners_eq]
  refine Tracks.counted ?_ _
  refine ⟨only.typed taken.typed, ⟨?_, ?_⟩, only.named (taken.named tracks.named), ?_, ?_,
    fun group name => ?_, fun group name => ?_⟩
  · rw [only.active_eq]
    exact taken.follows.active_eq
  · rw [only.declared_eq]
    exact taken.follows.latest_eq
  · intro stage listed
    rcases List.mem_append.1 listed with old | new
    · exact tracks.sound stage old
    · rw [List.mem_singleton.1 new]
      exact sound
  · intro stage listed owner member
    rcases List.mem_append.1 listed with old | new
    · obtain ⟨group, name, here, type⟩ := tracks.owners_typed stage old owner member
      refine ⟨group, name, here, ?_⟩
      rw [only.type_eq]
      exact taken.sameRuns.type_kept group name _ type
    · rw [List.mem_singleton.1 new] at member
      have declared := (taken.typed.of_mem_owners member).2
      obtain ⟨group, name, here⟩ := taken.typed.declared_channel _ _ declared
      rw [here] at declared
      refine ⟨group, name, here, ?_⟩
      rw [only.type_eq]
      exact taken.typed.type_of_declared declared
  · rw [channelAt_placed taken.typed, (pushed group name).1, before, List.flatMap_append,
      List.flatMap_singleton]
  · rw [channelAt_placed taken.typed, (pushed group name).1, (pushed group name).2,
      taken.sameRuns.count_eq, tracks.count_eq, List.map_append, List.sum_append, before,
      tracks.runs_eq]

/-- The catalogue of segments that were read one after another tracks the plain walk. -/
theorem Tracks.of_foldlM {source : Source} {offset ordinal : Nat} {segments : List Segment}
    (scanned : Scanned source offset ordinal segments) {stages : List Stage}
    (tracks : catalogue.Tracks memory stages)
    (later : ∀ stage ∈ stages, stage.segment.ordinal < ordinal)
    (applied : segments.foldlM Catalogue.apply catalogue = .ok next) :
    next.Tracks (segments.foldl Memory.enter memory) (stages ++ Walk.stages memory segments) := by
  induction scanned generalizing catalogue memory stages with
  | done =>
    cases applied
    rw [Walk.stages, List.append_nil]
    exact tracks
  | more reads rest ih =>
    rename_i offset ordinal following segment segments
    obtain ⟨middle, first, others⟩ := Outcome.foldlM_cons_eq_ok.1 applied
    have placed := reads.ordinal_eq
    have short : segment.dataLength < UInt64.size := by
      have inside := reads.endOffset_le
      have small := reads.next_lt
      unfold Segment.endOffset at inside
      omega
    have one := tracks.apply short (fun stage listed => placed ▸ later stage listed) first
    have all := ih one ?_ others
    · rwa [List.append_assoc] at all
    · intro stage listed
      rcases List.mem_append.1 listed with old | new
      · exact (later stage old).trans (Nat.lt_succ_self _)
      · rw [List.mem_singleton.1 new, placed]
        exact Nat.lt_succ_self _

/-- The catalogue of some first segments of a scan tracks the plain walk over them. -/
theorem Tracks.of_scan {source : Source} {count : Nat}
    (applied : ((scan source).segments.take count).foldlM Catalogue.apply .empty = .ok catalogue) :
    catalogue.Tracks (((scan source).segments.take count).foldl Memory.enter .blank)
      (Walk.stages .blank ((scan source).segments.take count)) :=
  Tracks.of_foldlM ((scan_scanned source).take count) .empty nofun applied

/-- What `build` answers with is the catalogue of all segments of the scan. -/
theorem foldlM_of_build {source : Source} {recover : Bool} {stop : Option Nat}
    (built : build source recover = .ok (catalogue, stop)) :
    (scan source).segments.foldlM Catalogue.apply .empty = .ok catalogue := by
  unfold build at built
  dsimp only at built
  split at built
  · cases built
  · rename_i found folded
    rw [folded]
    split at built
    · cases built
      rfl
    · split at built
      · cases built
        rfl
      · cases built
    · cases built

theorem Tracks.of_build {source : Source} {recover : Bool} {stop : Option Nat}
    (built : build source recover = .ok (catalogue, stop)) :
    catalogue.Tracks ((scan source).segments.foldl Memory.enter .blank)
      (Walk.stages .blank (scan source).segments) :=
  Tracks.of_foldlM (scan_scanned source) .empty nofun (foldlM_of_build built)

end Tdms.Catalogue
