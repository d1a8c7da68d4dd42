import Mathlib
import Tdms.Proofs.Catalogue.Apply
import Tdms.Proofs.Catalogue.Partition
import Tdms.Proofs.Inquiry.Opening
import Tdms.Proofs.Layout.Checked
import Tdms.Proofs.Metadata.Grammar

/-!
The arithmetic of catalogues in 64 bits.

`checkedBuild` builds a catalogue as `build` does, and has no answer as soon as
a number on the way does not fit 64 bits. `Accounted` is the invariant that
rules this out: what a catalogue counts takes no more than the bytes before the
next segment. `arithmetic_exact` is the main result.
-/

namespace Tdms

open Metadata (RawIndex Record)
open Walk (Memory Stage)

/-! ## Changes in place -/

theorem OrderedMap.modify_congr {κ α : Type} [DecidableEq κ] {map : OrderedMap κ α} {key : κ}
    {change other : α → α} (distinct : map.keys.Nodup)
    (same : ∀ value, map.get? key = some value → change value = other value) :
    map.modify key change = map.modify key other := by
  rw [modify, modify]
  congr 1
  refine List.map_congr_left fun entry listed => ?_
  by_cases here : entry.1 = key
  · subst here
    rw [if_pos rfl, if_pos rfl, same entry.2 ((get?_eq_some_iff distinct).2 listed)]
  · rw [if_neg here, if_neg here]

/-- Two changes of a channel are the same if they do the same to the channel that is there. -/
theorem Catalogue.modifyChannel_congr {catalogue : Catalogue} (named : catalogue.Named)
    {owner name : String} {change other : Channel → Channel}
    (same : ∀ channel, catalogue.channel? owner name = some channel →
      change channel = other channel) :
    catalogue.modifyChannel owner name change = catalogue.modifyChannel owner name other := by
  rw [modifyChannel, modifyChannel]
  congr 1
  refine OrderedMap.modify_congr named.distinct fun group found => ?_
  have inside := (named.group_named owner group found).distinct
  rw [OrderedMap.modify_congr inside fun channel listed => same channel ?_]
  rw [channel?, found, Option.bind_some, listed]

/-! ## Pushing runs -/

/-- `Run.isPacked`, with the product checked. -/
def Run.checkedPacked (run : Run) : Option Bool :=
  if run.stride = 0 then some false
  else do
    let bytes ← word? (run.sampleCount * run.stride)
    some (run.byteLength == bytes)

/-- `Run.isContinuedBy`, with the sum and both products checked where they are needed. -/
def Run.checkedContinued (run next : Run) : Option Bool :=
  if run.segment = next.segment ∧ run.stride = next.stride ∧ run.order = next.order ∧
      run.chunkCount = 1 ∧ next.chunkCount = 1 then do
    let stop ← word? (run.offset + run.byteLength)
    if stop = next.offset then
      let packed ← run.checkedPacked
      if packed then next.checkedPacked else some false
    else some false
  else some false

/-- `Run.merge`, with both sums checked. -/
def Run.checkedMerge (run next : Run) : Option Run := do
  let byteLength ← word? (run.byteLength + next.byteLength)
  let sampleCount ← word? (run.sampleCount + next.sampleCount)
  some { run with byteLength, sampleCount, chunkStride := byteLength }

/-- `Run.push`, with all numbers checked. -/
def Run.checkedPush : (runs : List Run) → (next : Run) → Option (List Run)
  | [], next => some [next]
  | latest :: before, next => do
    let continued ← latest.checkedContinued next
    if continued then
      let merged ← latest.checkedMerge next
      some (merged :: before)
    else some (next :: latest :: before)

/-- `Channel.push`, with all numbers checked: samples are counted without a limit that would hide
an overflow. -/
def Channel.checkedPush (channel : Channel) (run : Run) : Option Channel := do
  let total ← word? (run.sampleCount * run.chunkCount)
  let sampleCount ← word? (channel.sampleCount + total)
  let latestRuns ← Run.checkedPush channel.latestRuns run
  some { channel with latestRuns, sampleCount }

/-- A run of a later segment is pushed without overflow if its samples can be counted. -/
theorem Channel.checkedPush_eq {channel : Channel} {run : Run}
    (total : run.totalSamples = run.sampleCount * run.chunkCount)
    (counted : channel.sampleCount + run.totalSamples < UInt64.size)
    (later : ∀ before ∈ channel.runs, before.segment < run.segment) :
    channel.checkedPush run = some (channel.push run) := by
  have pushed : Run.checkedPush channel.latestRuns run =
      some (Run.push channel.latestRuns run) := by
    cases held : channel.latestRuns with
    | nil => rfl
    | cons latest before =>
      have listed : latest ∈ channel.runs := by
        rw [Channel.runs, held, List.mem_reverse]
        exact List.mem_cons_self
      have other : latest.segment ≠ run.segment := (later latest listed).ne
      simp [Run.checkedPush, Run.push, Run.checkedContinued, Run.isContinuedBy, other]
  rw [Channel.checkedPush, ← total, word?_of_lt (by omega)]
  simp only [Option.bind_eq_bind, Option.bind_some]
  rw [word?_of_lt counted, pushed]
  rfl

namespace Catalogue

/-- `pushRun`, with all numbers checked. -/
def checkedPushRun (catalogue : Catalogue) (path : ObjectPath) (run : Run) : Option Catalogue :=
  match path with
  | .channel owner name =>
    match catalogue.channel? owner name with
    | some channel => do
      let pushed ← channel.checkedPush run
      some (catalogue.modifyChannel owner name fun _ => pushed)
    | none => some catalogue
  | .root | .group _ => some catalogue

/-- `pushSlot`, with all numbers checked. -/
def checkedPushSlot (catalogue : Catalogue) (slot : (ObjectPath × RawIndex) × Option Run) :
    Option Catalogue :=
  match slot.2 with
  | some run => catalogue.checkedPushRun slot.1.1 run
  | none => some catalogue

/-- `applyData`, with all numbers checked. -/
def checkedApplyData (catalogue : Catalogue) (segment : Segment) :
    Option (Except Error Catalogue) := do
  let owners := catalogue.owners
  match ← Layout.checkedRuns segment (owners.map Prod.snd) with
  | .error fault => some (.error (.corruptMetadata segment.offset fault))
  | .ok runs =>
    let placed ← (owners.zip runs).foldlM checkedPushSlot catalogue
    some (.ok placed)

/-- `apply`, with all numbers checked. -/
def checkedApply (catalogue : Catalogue) (segment : Segment) : Option (Except Error Catalogue) :=
  match catalogue.applyMetadata segment with
  | .error error => some (.error error)
  | .ok described => do
    match ← if 0 < segment.dataLength then described.checkedApplyData segment
      else some (.ok described) with
    | .error error => some (.error error)
    | .ok placed =>
      let segmentCount ← word? (placed.segmentCount + 1)
      some (.ok { placed with segmentCount })

/-- Takes up segments one after another, with all numbers checked. -/
def checkedApplyAll (catalogue : Catalogue) : List Segment → Option (Except Error Catalogue)
  | [] => some (.ok catalogue)
  | segment :: rest => do
    match ← catalogue.checkedApply segment with
    | .error error => some (.error error)
    | .ok next => next.checkedApplyAll rest

/-- `build`, with all numbers checked. There is no answer if one of them does not fit 64 bits. -/
def checkedBuild (source : Source) (recover : Bool) :
    Option (Except Error (Catalogue × Option Nat)) := do
  let found := scan source
  match ← checkedApplyAll .empty found.segments with
  | .error error => some (.error error)
  | .ok catalogue => some (catalogue.conclude recover found.error?)

variable {catalogue next : Catalogue}

/-! ## Bytes of metadata -/

/-- A path takes at least one byte for each of its letters. -/
theorem length_le_encode (text : String) : text.toList.length ≤ (Utf8.encode text).length := by
  have letters : ∀ letters : List Char, letters.length ≤ String.utf8Len letters := by
    intro letters
    induction letters with
    | nil => exact Nat.zero_le _
    | cons letter rest ih =>
      have one := Char.utf8Size_pos letter
      rw [String.utf8Len_cons, List.length_cons]
      omega
  have size : (Utf8.encode text).length = text.utf8ByteSize := rfl
  have spelled := String.utf8ByteSize_ofList text.toList
  rw [String.ofList_toList] at spelled
  rw [size, spelled]
  exact letters text.toList

theorem six_le_letters (owner name : String) :
    6 ≤ (ObjectPath.channel owner name).letters.length := by
  simp only [ObjectPath.letters, ObjectPath.component, List.length_append, List.length_cons,
    List.length_nil]
  omega

/-- The record of a channel that declares a new raw data index takes at least 32 bytes. -/
theorem le_length_of_new {order : ByteOrder} {record : Record} {bytes : List UInt8}
    (spelled : Metadata.SpellsRecord order record bytes) {owner name : String} {index : RawIndex}
    (path : record.path = .channel owner name) (declares : record.declaration = .new index) :
    32 ≤ bytes.length := by
  rcases spelled with ⟨-, saying, ⟨-, -⟩⟩
  subst path declares
  rcases saying with - | - | ⟨-, indexed⟩
  have letters := six_le_letters owner name
  have text := length_le_encode (ObjectPath.channel owner name).render
  rw [ObjectPath.render, String.toList_ofList] at text
  simp only [List.length_append, Draft.textBytes, ObjectPath.render, ByteOrder.length_bytes]
  cases indexed with
  | values =>
    simp only [List.length_append, ByteOrder.length_bytes]
    omega
  | strings =>
    simp only [List.length_append, ByteOrder.length_bytes]
    omega

theorem length_keys_insert (map : OrderedMap ObjectPath RawIndex) (path : ObjectPath)
    (index : RawIndex) :
    (map.insert path index).keys.length = if path ∈ map.keys then map.keys.length
      else map.keys.length + 1 := by
  rw [OrderedMap.keys_insert]
  split
  · rfl
  · rw [List.length_append, List.length_singleton]

/-- Every object that a record declares for the first time has paid for it in bytes. -/
theorem declared_le_of_record {offset : Nat} {order : ByteOrder} {record : Record}
    {bytes : List UInt8} (spelled : Metadata.SpellsRecord order record bytes)
    (applied : applyRecord offset catalogue record = .ok next) :
    32 * next.declared.keys.length ≤ 32 * catalogue.declared.keys.length + bytes.length := by
  rcases applyRecord_eq_ok.1 applied with ⟨index?, declared, resolved, stored, rfl⟩
  have described := (describes_describe declared record.path record.properties).declared_eq
  dsimp only
  rw [described]
  cases index? with
  | none =>
    cases stored
    exact Nat.le_add_right _ _
  | some index =>
    rcases declares_of_declare stored with ⟨owner, name, here, declares⟩
    rw [declares.declared_eq, length_keys_insert, ← here]
    rw [resolve] at resolved
    split
    · exact Nat.le_add_right _ _
    · rename_i absent
      cases declaration : record.declaration with
      | noData =>
        rw [declaration] at resolved
        cases resolved
      | new other =>
        have paid := le_length_of_new spelled here declaration
        omega
      | matchesPrevious =>
        rw [declaration] at resolved
        dsimp only at resolved
        cases found : catalogue.declared.get? record.path with
        | none =>
          rw [found] at resolved
          cases resolved
        | some previous => exact absurd (OrderedMap.mem_keys_iff.2 ⟨previous, found⟩) absent

theorem declared_le_of_records {offset : Nat} {order : ByteOrder} {records : List Record}
    {bytes : List UInt8}
    (spelled : Metadata.SpellsEach (Metadata.SpellsRecord order) records bytes)
    (applied : records.foldlM (applyRecord offset) catalogue = .ok next) :
    32 * next.declared.keys.length ≤ 32 * catalogue.declared.keys.length + bytes.length := by
  induction spelled generalizing catalogue with
  | nil =>
    cases applied
    exact Nat.le_add_right _ _
  | cons one _ ih =>
    rcases Outcome.foldlM_cons_eq_ok.1 applied with ⟨middle, first, later⟩
    have step := declared_le_of_record one first
    have others := ih later
    rw [List.length_append]
    omega

/-- The bytes that a metadata block is read from. -/
theorem spelled_of_decode {order : ByteOrder} {bytes : List UInt8} {records : List Record}
    (decoded : Metadata.decode order bytes = .ok records) :
    ∃ taken, Metadata.SpellsEach (Metadata.SpellsRecord order) records taken ∧
      taken.length ≤ bytes.length := by
  rcases Outcome.map_eq_ok.1 decoded with ⟨⟨_, after⟩, parsed, rfl⟩
  rcases (Metadata.Reader.accepts_records order ..).1 parsed with ⟨block, ⟨-, each⟩, rfl, -⟩
  refine ⟨_, each, ?_⟩
  simp only [List.length_append]
  omega

theorem declared_le_of_metadata {segment : Segment}
    (applied : catalogue.applyMetadata segment = .ok next) :
    32 * next.declared.keys.length ≤ 32 * catalogue.declared.keys.length +
      (segment.metadata.elim 0 ByteArray.size) := by
  rcases applyMetadata_eq_ok.1 applied with
    ⟨absent, rfl⟩ | ⟨block, records, present, decoded, taken⟩
  · exact Nat.le_add_right _ _
  · rcases spelled_of_decode decoded with ⟨bytes, spelled, short⟩
    rw [present, Option.elim_some]
    rw [size_of_toList rfl]
    unfold applyRecords at taken
    have counted := declared_le_of_records spelled taken
    split at counted
    · exact counted.trans (Nat.add_le_add_left short _)
    · exact counted.trans (Nat.add_le_add_left short _)

/-! ## The runs of a segment -/

/-- The run in a slot, if there is one, can be pushed onto its channel without overflow. -/
def SlotFits (catalogue : Catalogue) (slot : (ObjectPath × RawIndex) × Option Run) : Prop :=
  ∀ run, slot.2 = some run → ∀ owner name, slot.1.1 = .channel owner name →
    ∃ channel, catalogue.channel? owner name = some channel ∧
      channel.checkedPush run = some (channel.push run)

theorem checkedPushSlot_eq (named : catalogue.Named)
    {slot : (ObjectPath × RawIndex) × Option Run} (fits : catalogue.SlotFits slot) :
    catalogue.checkedPushSlot slot = some (catalogue.pushSlot slot) := by
  rcases slot with ⟨⟨path, index⟩, run?⟩
  cases run? with
  | none => rfl
  | some run =>
    cases path with
    | root | group name => rfl
    | channel owner name =>
      rcases fits run rfl owner name rfl with ⟨channel, found, pushed⟩
      have same : catalogue.modifyChannel owner name (fun _ => channel.push run) =
          catalogue.modifyChannel owner name fun channel => channel.push run := by
        refine modifyChannel_congr named fun other present => ?_
        rw [found] at present
        cases present
        rfl
      simp only [checkedPushSlot, checkedPushRun, found, pushed, Option.bind_eq_bind,
        Option.bind_some, same, pushSlot, pushRun]

/-- A slot of another object leaves a channel as it is. -/
theorem SlotFits.pushSlot {slot other : (ObjectPath × RawIndex) × Option Run}
    (fits : catalogue.SlotFits slot) (different : other.1.1 ≠ slot.1.1) :
    (catalogue.pushSlot other).SlotFits slot := by
  intro run held owner name here
  rcases fits run held owner name here with ⟨channel, found, pushed⟩
  refine ⟨channel, ?_, pushed⟩
  rw [← found]
  rcases other with ⟨⟨path, index⟩, run?⟩
  cases run? with
  | none => rfl
  | some run =>
    cases path with
    | root | group name => rfl
    | channel group title =>
      change (catalogue.modifyChannel group title fun channel => channel.push run).channel?
        owner name = _
      rw [channel?_modifyChannel, if_neg]
      rintro ⟨rfl, rfl⟩
      exact different here.symm

/-- Slots of different objects are pushed without overflow if each of them fits. -/
theorem checkedPushSlots_eq (named : catalogue.Named)
    {slots : List ((ObjectPath × RawIndex) × Option Run)}
    (distinct : (slots.map fun slot => slot.1.1).Nodup)
    (fits : ∀ slot ∈ slots, catalogue.SlotFits slot) :
    slots.foldlM checkedPushSlot catalogue = some (slots.foldl pushSlot catalogue) := by
  induction slots generalizing catalogue with
  | nil => rfl
  | cons slot rest ih =>
    rcases List.forall_mem_cons.1 fits with ⟨first, later⟩
    rw [List.map_cons, List.nodup_cons] at distinct
    rw [List.foldlM_cons, checkedPushSlot_eq named first, List.foldl_cons]
    refine ih ((onlyRuns_pushSlot catalogue slot).named named) distinct.2 fun other listed => ?_
    refine (later other listed).pushSlot fun same => distinct.1 ?_
    rw [same]
    exact List.mem_map_of_mem listed

/-! ## What is counted takes bytes -/

/-- What a catalogue counts takes no more than the bytes before `offset`. -/
structure Accounted (catalogue : Catalogue) (offset : Nat) : Prop where
  samples_le : ∀ owner name, (catalogue.channelAt owner name).sampleCount ≤ offset
  declared_le : 32 * catalogue.declared.keys.length ≤ offset
  segments_le : leadInLength * catalogue.segmentCount ≤ offset

theorem Accounted.empty : Catalogue.empty.Accounted 0 where
  samples_le _ _ := le_rfl
  declared_le := le_rfl
  segments_le := le_rfl

/-- Objects with raw data have all been declared. -/
theorem Typed.length_owners_le (typed : catalogue.Typed) :
    catalogue.owners.length ≤ catalogue.declared.keys.length := by
  have among : catalogue.owners.map Prod.fst ⊆ catalogue.declared.keys := by
    intro path listed
    rcases List.mem_map.1 listed with ⟨owner, member, rfl⟩
    exact OrderedMap.mem_keys_iff.2 ⟨owner.2, (typed.of_mem_owners member).2⟩
  rw [← List.length_map (Prod.fst : ObjectPath × RawIndex → ObjectPath)]
  exact (List.subperm_of_subset typed.owners_distinct among).length_le

theorem length_runs (stage : Stage) : stage.runs.length = stage.owners.length := by
  unfold Stage.runs Stage.slots
  split
  · exact List.length_map _
  · rw [Layout.length_slotsFrom, List.length_map]

/-- A run of a stage counts no more samples than the raw data has bytes. -/
theorem total_le_of_mem_runsAt {stage : Stage} (sound : stage.Sound) {path : ObjectPath}
    {run : Run} (listed : run ∈ stage.runsAt path) :
    run.totalSamples ≤ stage.segment.dataLength ∧
      run.totalSamples = run.sampleCount * run.chunkCount ∧
      run.segment = stage.segment.ordinal := by
  rcases sound.shaped_of_mem_runsAt listed with ⟨index, -, shaped, within⟩
  refine ⟨?_, shaped.total_eq, within.segment_eq⟩
  have wide : 0 < index.type.width?.getD 4 := by
    cases fixed : index.type.width? with
    | none => exact Nat.succ_pos 3
    | some width => exact (ScalarType.width_of_width? fixed).2
  exact (Nat.le_mul_of_pos_right _ wide).trans
    (shaped.held_le.trans (shaped.bytes_le within))

/-- The metadata of a segment that was read lies before its raw data. -/
theorem metadata_le {source : Source} {offset ordinal after : Nat} {segment : Segment}
    (reads : Segment.Reads source offset ordinal segment after) :
    offset + leadInLength + segment.metadata.elim 0 ByteArray.size ≤ segment.dataOffset := by
  have taken := reads.metadata_read
  rw [reads.dataOffset_eq]
  refine Nat.add_le_add_left ?_ _
  unfold Segment.readMetadata at taken
  split at taken
  · split at taken
    · cases taken
    · rename_i block found
      injection taken with taken
      rw [← taken, Option.elim_some]
      exact (source.size_of_read found).le
  · injection taken with taken
    rw [← taken]
    exact Nat.zero_le _

/-! ## Taking up a segment -/

section

variable {source : Source} {offset ordinal after : Nat} {segment : Segment} {memory : Memory}
  {stages : List Stage} {described : Catalogue}

theorem Accounted.of_metadata (accounted : catalogue.Accounted offset)
    (reads : Segment.Reads source offset ordinal segment after)
    (recorded : catalogue.applyMetadata segment = .ok described) :
    described.Accounted segment.dataOffset ∧
      leadInLength * (described.segmentCount + 1) ≤ segment.dataOffset := by
  have start := reads.leadIn_le
  have before := metadata_le reads
  have declared := declared_le_of_metadata recorded
  have earlier := accounted.declared_le
  have count := segmentCount_applyMetadata recorded
  have segments := accounted.segments_le
  refine ⟨⟨fun owner name => ?_, by omega, ?_⟩, ?_⟩
  · rw [(SameRuns.of_metadata recorded).count_eq]
    exact (accounted.samples_le owner name).trans (by omega)
  · rw [count]
    omega
  · rw [count, Nat.mul_succ]
    omega

/-- The runs of a stage all fit the channels that they are pushed onto. -/
theorem slots_fit (tracks : catalogue.Tracks memory stages)
    (later : ∀ stage ∈ stages, stage.segment.ordinal < segment.ordinal)
    (same : catalogue.SameRuns described) (typed : described.Typed)
    (sound : Stage.Sound ⟨segment, described.owners⟩)
    (accounted : described.Accounted segment.dataOffset)
    (fits : segment.endOffset < UInt64.size) :
    ∀ slot ∈ described.owners.zip (Stage.runs ⟨segment, described.owners⟩),
      described.SlotFits slot := by
  intro slot listed run held owner name here
  have declared := (typed.of_mem_owners (List.of_mem_zip listed).1).2
  rw [here] at declared
  have added : run ∈ Stage.runsAt ⟨segment, described.owners⟩ (.channel owner name) :=
    List.mem_filterMap.2 ⟨slot, listed, by rw [if_pos here, held]⟩
  rcases total_le_of_mem_runsAt sound added with ⟨total, exact, number⟩
  have counted := accounted.samples_le owner name
  refine ⟨_, channel?_of_type (typed.type_of_declared declared),
    Channel.checkedPush_eq exact ?_ fun before old => ?_⟩
  · unfold Segment.endOffset at fits
    dsimp only at total
    omega
  · rw [Channel.runs, same.runs_eq] at old
    rcases tracks.of_mem_runs old with ⟨stage, member, -, -, -, -, within⟩
    rw [within.segment_eq, number]
    exact later stage member

theorem checkedApplyData_eq (tracks : catalogue.Tracks memory stages)
    (later : ∀ stage ∈ stages, stage.segment.ordinal < segment.ordinal)
    (same : catalogue.SameRuns described) (typed : described.Typed) (named : described.Named)
    (accounted : described.Accounted segment.dataOffset)
    (fits : segment.endOffset < UInt64.size) :
    described.checkedApplyData segment = some (described.applyData segment) := by
  have short : segment.dataOffset + segment.dataLength < UInt64.size := fits
  have few : (described.owners.map Prod.snd).length < 2 ^ 59 := by
    have owners := typed.length_owners_le
    have declared := accounted.declared_le
    rw [List.length_map]
    norm_num [UInt64.size] at short ⊢
    omega
  have wellFormed : ∀ index ∈ described.owners.map Prod.snd, index.WellFormed := by
    intro index listed
    rcases List.mem_map.1 listed with ⟨owner, member, rfl⟩
    exact typed.declared_wellFormed _ _ (typed.of_mem_owners member).2
  rw [checkedApplyData, Layout.checkedRuns_eq fits few wellFormed, applyData]
  simp only [Option.bind_eq_bind, Option.bind_some]
  have answers := @Layout.runs_eq_ok ⟨segment, described.owners⟩
  cases found : Layout.runs segment (described.owners.map Prod.snd) with
  | error fault => rfl
  | ok runs =>
    rcases answers.1 found with ⟨laidOut, rfl⟩
    have sound := typed.sound (by omega) fun _ => laidOut
    have distinct : ((described.owners.zip (Stage.runs ⟨segment, described.owners⟩)).map
        fun slot => slot.1.1).Nodup := by
      have names : ∀ slots : List ((ObjectPath × RawIndex) × Option Run),
          slots.map (fun slot => slot.1.1) = (slots.map Prod.fst).map Prod.fst := fun slots =>
        (List.map_map ..).symm
      have whole : described.owners.length ≤
          (Stage.runs ⟨segment, described.owners⟩).length :=
        (length_runs ⟨segment, described.owners⟩).ge
      rw [names, List.map_fst_zip whole]
      exact typed.owners_distinct
    have pushed := checkedPushSlots_eq named distinct
      (slots_fit tracks later same typed sound accounted fits)
    dsimp only
    rw [Stage.runs] at pushed
    rw [pushed]
    rfl

/-- A segment is taken up without overflow. -/
theorem checkedApply_eq (tracks : catalogue.Tracks memory stages)
    (accounted : catalogue.Accounted offset)
    (reads : Segment.Reads source offset ordinal segment after)
    (later : ∀ stage ∈ stages, stage.segment.ordinal < segment.ordinal) :
    catalogue.checkedApply segment = some (catalogue.apply segment) := by
  have fits := reads.endOffset_le.trans_lt reads.next_lt
  unfold checkedApply Catalogue.apply
  cases recorded : catalogue.applyMetadata segment with
  | error error => rfl
  | ok described =>
    have taken := Taken.of_metadata tracks.typed tracks.follows recorded
    rcases accounted.of_metadata reads recorded with ⟨counted, segments⟩
    have small : described.segmentCount + 1 < UInt64.size := by
      have start := reads.dataOffset_le_next
      have ends := reads.next_lt
      simp only [leadInLength] at segments
      omega
    dsimp only
    by_cases data : 0 < segment.dataLength
    · rw [if_pos data, checkedApplyData_eq tracks later taken.sameRuns taken.typed
        (taken.named tracks.named) counted fits]
      simp only [Option.bind_eq_bind, Option.bind_some, if_pos data, Outcome.ok_bind]
      cases placed : described.applyData segment with
      | error error => rfl
      | ok final =>
        have same : final.segmentCount = described.segmentCount := by
          rcases applyData_eq_ok.1 placed with ⟨-, rfl⟩
          exact segmentCount_pushSlots _
        dsimp only
        rw [same, word?_of_lt small, Outcome.ok_bind, same]
        rfl
    · simp only [if_neg data, Option.bind_eq_bind, Option.bind_some, Outcome.ok_bind]
      rw [word?_of_lt small]
      rfl

/-- What is counted with the runs of a segment takes no more than the bytes before the next one. -/
theorem Accounted.apply (tracks : catalogue.Tracks memory stages)
    (accounted : catalogue.Accounted offset)
    (reads : Segment.Reads source offset ordinal segment after)
    (applied : catalogue.apply segment = .ok next) : next.Accounted after := by
  rcases apply_eq_ok.1 applied with ⟨described, recorded, laidOut, rfl⟩
  have taken := Taken.of_metadata tracks.typed tracks.follows recorded
  have only : described.OnlyRuns (described.placed segment) := onlyRuns_pushSlots described _
  have inside := reads.endOffset_le
  have small := reads.next_lt
  have start := reads.dataOffset_le_next
  rcases accounted.of_metadata reads recorded with ⟨counted, segments⟩
  unfold Segment.endOffset at inside
  refine ⟨fun owner name => ?_, ?_, ?_⟩
  · have sound := taken.typed.sound (by omega) laidOut
    have single := sound.length_runsAt_le (.channel owner name)
    have before := counted.samples_le owner name
    change ((described.placed segment).channelAt owner name).sampleCount ≤ after
    rw [channelAt_placed taken.typed]
    cases runs : Stage.runsAt ⟨segment, described.owners⟩ (.channel owner name) with
    | nil => exact before.trans start
    | cons run rest =>
      have listed : run ∈ Stage.runsAt ⟨segment, described.owners⟩ (.channel owner name) := by
        rw [runs]
        exact List.mem_cons_self
      have total := (total_le_of_mem_runsAt sound listed).1
      rw [runs, List.length_cons] at single
      obtain rfl : rest = [] := List.eq_nil_of_length_eq_zero (by omega)
      change (described.channelAt owner name).sampleCount + run.totalSamples ≤ after
      dsimp only at total
      omega
  · change 32 * (described.placed segment).declared.keys.length ≤ after
    rw [only.declared_eq]
    exact counted.declared_le.trans start
  · change leadInLength * ((described.placed segment).segmentCount + 1) ≤ after
    rw [placed, segmentCount_pushSlots]
    exact segments.trans start

end

/-! ## Taking up all segments -/

/-- Segments that were read one after another are taken up without overflow, and no channel has more
samples than the source has bytes. -/
theorem checkedApplyAll_eq {source : Source} {offset ordinal : Nat} {segments : List Segment}
    (scanned : Scanned source offset ordinal segments) (inside : offset ≤ source.length)
    {memory : Memory} {stages : List Stage} (tracks : catalogue.Tracks memory stages)
    (accounted : catalogue.Accounted offset)
    (later : ∀ stage ∈ stages, stage.segment.ordinal < ordinal) :
    catalogue.checkedApplyAll segments = some (segments.foldlM Catalogue.apply catalogue) ∧
      ∀ final, segments.foldlM Catalogue.apply catalogue = .ok final →
        ∀ owner name, (final.channelAt owner name).sampleCount ≤ source.length := by
  induction scanned generalizing catalogue memory stages with
  | done =>
    refine ⟨rfl, fun final applied owner name => ?_⟩
    cases applied
    exact (accounted.samples_le owner name).trans inside
  | more reads rest ih =>
    rename_i offset ordinal after segment segments
    have number := reads.ordinal_eq
    have before : ∀ stage ∈ stages, stage.segment.ordinal < segment.ordinal :=
      fun stage listed => number ▸ later stage listed
    have short : segment.dataLength < UInt64.size := by
      have ends := reads.endOffset_le.trans_lt reads.next_lt
      unfold Segment.endOffset at ends
      omega
    rw [checkedApplyAll, checkedApply_eq tracks accounted reads before, List.foldlM_cons]
    cases applied : catalogue.apply segment with
    | error error => exact ⟨rfl, nofun⟩
    | ok next =>
      refine ih reads.next_le (tracks.apply short before applied)
        (accounted.apply tracks reads applied) fun stage listed => ?_
      rcases List.mem_append.1 listed with old | new
      · exact (later stage old).trans (Nat.lt_succ_self _)
      · rw [List.mem_singleton.1 new, number]
        exact Nat.lt_succ_self _

theorem checkedBuild_eq (source : Source) (recover : Bool) :
    checkedBuild source recover = some (build source recover) := by
  have all := (checkedApplyAll_eq (scan_scanned source) (Nat.zero_le _) .empty .empty nofun).1
  rw [checkedBuild, build_eq_conclude]
  simp only [all, Option.bind_eq_bind, Option.bind_some]
  cases (scan source).segments.foldlM Catalogue.apply .empty with
  | error error => rfl
  | ok catalogue => rfl

/-- No channel has more samples than the source has bytes. -/
theorem sampleCount_le_of_build {source : Source} {recover : Bool} {stop : Option Nat}
    (built : build source recover = .ok (catalogue, stop)) {channel : Channel}
    (listed : channel ∈ catalogue.channels) : channel.sampleCount ≤ source.length := by
  have all := (checkedApplyAll_eq (scan_scanned source) (Nat.zero_le _) .empty .empty nofun).2
  rw [eq_channelAt_of_mem (Tracks.of_build built).named listed]
  exact all catalogue (foldlM_of_build built) _ _

/-- The arithmetic of layouts and catalogues fits 64 bits. Raw data that ends below 2^64 is laid out
as with numbers of any size, and refused only if a chunk is too large or a record holds strings.
Every source is built as with numbers of any size, and then no channel has more samples than the
source has bytes. -/
theorem arithmetic_exact :
    (∀ (segment : Segment) (indexes : List RawIndex), segment.endOffset < UInt64.size →
      indexes.length < 2 ^ 59 → (∀ index ∈ indexes, index.WellFormed) →
        Layout.Exact segment indexes) ∧
      ∀ (source : Source) (recover : Bool),
        checkedBuild source recover = some (build source recover) ∧
          ∀ catalogue stop, build source recover = .ok (catalogue, stop) →
            ∀ channel ∈ catalogue.channels, channel.sampleCount ≤ source.length :=
  ⟨fun _ _ fits few wellFormed => Layout.exact_of_fits fits few wellFormed, fun source recover =>
    ⟨checkedBuild_eq source recover,
      fun _ _ built _ listed => sampleCount_le_of_build built listed⟩⟩

/-- The raw data of a contiguous segment that ends at the last byte below 2^64. -/
def lastSegment : Segment :=
  { Layout.sampleSegment with dataOffset := UInt64.size - 20 }

theorem arithmetic_exact_sample :
    lastSegment.endOffset = UInt64.size - 1 ∧ Layout.Exact lastSegment Layout.sampleIndexes ∧
      ∃ catalogue stop, build (.ofBytes sampleFile) false = .ok (catalogue, stop) ∧
        ∀ channel ∈ catalogue.channels, channel.sampleCount ≤ sampleFile.size := by
  have built : (build (.ofBytes sampleFile) false).toOption.isSome = true := by decide +kernel
  rcases Outcome.exists_of_isSome built with ⟨⟨catalogue, stop⟩, found⟩
  have ends : lastSegment.endOffset = UInt64.size - 1 := rfl
  exact ⟨ends, arithmetic_exact.1 lastSegment Layout.sampleIndexes (ends ▸ by decide) (by decide)
    Layout.wellFormed_sampleIndexes, catalogue, stop, found,
    (arithmetic_exact.2 (.ofBytes sampleFile) false).2 catalogue stop found⟩

/-- Where the first chunk ends at 2^64, the place behind its last object does not fit. -/
example : Layout.checkedRuns { lastSegment with dataOffset := UInt64.size - 9 }
    Layout.sampleIndexes = none := by
  decide

end Catalogue

end Tdms
