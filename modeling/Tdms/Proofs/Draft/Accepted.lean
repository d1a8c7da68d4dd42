import Mathlib
import Tdms.Proofs.Catalogue.Apply
import Tdms.Proofs.Draft.Scan

/-!
The segments of well-formed drafts are taken up, one after another.

A record that fits what is remembered is never refused, and records of distinct
objects do not get in each other's way. Raw data that fills its rounds is always
laid out.
-/

namespace Tdms

open Metadata (RawIndex Record)
open Walk (Memory Share Stage)

/-! ## Records -/

/-- Whether a record fits what is remembered. -/
def Walk.Memory.Accepts (memory : Memory) (record : Record) : Prop :=
  match record.declaration with
  | .noData => True
  | .matchesPrevious => (memory.latest record.path).isSome
  | .new index =>
    record.path.isChannel = true ∧ index.WellFormed ∧
      ∀ previous, memory.latest record.path = some previous → index.type = previous.type

namespace Catalogue

variable {catalogue next : Catalogue} {memory : Memory} {offset : Nat} {record : Record}

/-- A record that fits is taken up. -/
theorem applyRecord_of_accepts (typed : catalogue.Typed) (follows : catalogue.Follows memory)
    (accepts : memory.Accepts record) (offset : Nat) :
    ∃ next, applyRecord offset catalogue record = .ok next := by
  have ready : ∃ index? declared, catalogue.resolve offset record = .ok index? ∧
      catalogue.declareAny offset record.path index? = .ok declared := by
    rw [Memory.Accepts] at accepts
    rw [resolve]
    cases declaration : record.declaration with
    | noData => exact ⟨none, catalogue, rfl, rfl⟩
    | new index =>
      rw [declaration] at accepts
      rcases accepts with ⟨isChannel, -, same⟩
      cases path : record.path with
      | root =>
        rw [path] at isChannel
        cases isChannel
      | group name =>
        rw [path] at isChannel
        cases isChannel
      | channel owner name =>
        rw [path] at same
        rcases declare_of_same typed (fun previous found => same previous
          ((follows.latest_eq _).symm.trans found)) offset with ⟨next, declared⟩
        exact ⟨some index, next, rfl, declared⟩
    | matchesPrevious =>
      rw [declaration] at accepts
      rcases Option.isSome_iff_exists.1 accepts with ⟨index, latest⟩
      have found : catalogue.declared.get? record.path = some index :=
        (follows.latest_eq _).trans latest
      rcases typed.declared_channel _ _ found with ⟨owner, name, path⟩
      dsimp only
      rw [found, path]
      rw [path] at found
      have same : ∀ previous, catalogue.declared.get? (.channel owner name) = some previous →
          index.type = previous.type := by
        intro previous again
        cases found.symm.trans again
        rfl
      rcases declare_of_same typed same offset with ⟨next, declared⟩
      exact ⟨some index, next, rfl, declared⟩
  rcases ready with ⟨index?, declared, resolved, stored⟩
  exact ⟨_, applyRecord_eq_ok.2 ⟨index?, declared, resolved, stored, rfl⟩⟩

theorem accepts_note {later : Record} (accepts : memory.Accepts later)
    (other : later.path ≠ record.path) : (memory.note record).Accepts later := by
  rw [Memory.Accepts, note_latest_of_ne other]
  exact accepts

/-- Records of distinct objects that all fit are taken up. -/
theorem applyRecords_of_accepts {records : List Record} (typed : catalogue.Typed)
    (follows : catalogue.Follows memory) (distinct : (records.map Record.path).Nodup)
    (accepts : ∀ record ∈ records, memory.Accepts record) (offset : Nat) :
    ∃ next, records.foldlM (applyRecord offset) catalogue = .ok next := by
  induction records generalizing catalogue memory with
  | nil => exact ⟨catalogue, rfl⟩
  | cons record rest ih =>
    rw [List.map_cons, List.nodup_cons] at distinct
    rcases List.forall_mem_cons.1 accepts with ⟨first, others⟩
    rcases applyRecord_of_accepts typed follows first offset with ⟨middle, applied⟩
    have well : ∀ index, record.declaration = .new index → index.WellFormed := by
      intro index declaration
      rw [Memory.Accepts, declaration] at first
      exact first.2.1
    have taken := Taken.of_record typed follows well applied
    -- A record changes what is remembered of its own object alone.
    have still : ∀ later ∈ rest, (memory.note record).Accepts later := by
      intro later listed
      refine accepts_note (others later listed) fun same => distinct.1 ?_
      rw [← same]
      exact List.mem_map_of_mem listed
    rcases ih taken.typed taken.follows distinct.2 still with ⟨next, applied'⟩
    exact ⟨next, Outcome.foldlM_cons_eq_ok.2 ⟨middle, applied, applied'⟩⟩

end Catalogue

namespace Draft

variable {draft : Draft} {memory : Memory}

theorem records_eq (draft : Draft) : draft.records = draft.listed.map Object.record := by
  rw [records, listed]
  split
  · rfl
  · rfl

theorem metadata_of_flag (flag : draft.contents.hasMetadata = true) (ordinal offset : Nat) :
    (draft.segmentAt ordinal offset).metadata = some draft.metadataBytes.toByteArray :=
  if_pos flag

theorem metadata_of_not_flag (flag : ¬ draft.contents.hasMetadata = true) (ordinal offset : Nat) :
    (draft.segmentAt ordinal offset).metadata = none :=
  if_neg flag

/-- The metadata of a draft is read back. -/
theorem decode_metadata (fits : draft.Fits memory) (encodable : draft.Encodable)
    (flag : draft.contents.hasMetadata = true) (ordinal offset : Nat) :
    Metadata.decode (draft.segmentAt ordinal offset).order
      draft.metadataBytes.toByteArray.data.toList = .ok draft.records := by
  have listed : draft.listed = draft.objects := if_pos flag
  have each : ∀ object ∈ draft.objects, Metadata.SpellsRecord draft.order object.record
      (object.bytes draft.order) := by
    intro object member
    rw [← listed] at member
    have owes := fits.objects object member
    have small := encodable.objects object member
    exact Metadata.spells_object draft.order owes.shortPath owes.shortProperties
      small.fewProperties owes.known small.wellFormed
  have few := encodable.fewObjects
  rw [listed] at few
  have decoded := Metadata.decode_append few each []
  rw [List.append_nil] at decoded
  rw [List.data_toByteArray, metadataBytes, if_pos flag, records, if_pos flag]
  exact decoded

theorem records_segmentAt (fits : draft.Fits memory) (encodable : draft.Encodable)
    (ordinal offset : Nat) : Walk.records (draft.segmentAt ordinal offset) = draft.records := by
  by_cases flag : draft.contents.hasMetadata = true
  · exact Catalogue.records_of_decode (metadata_of_flag flag ordinal offset)
      (decode_metadata fits encodable flag ordinal offset)
  · rw [Catalogue.records_of_none (metadata_of_not_flag flag ordinal offset), records,
      if_neg flag]

/-- The metadata of a draft leaves behind what the draft says. -/
theorem enter_segmentAt (fits : draft.Fits memory) (encodable : draft.Encodable)
    (ordinal offset : Nat) :
    memory.enter (draft.segmentAt ordinal offset) = draft.enter memory := by
  have flags : ((draft.segmentAt ordinal offset).metadata.isSome = true ∧
      (draft.segmentAt ordinal offset).hasNewObjectList = true) ↔
        draft.contents.hasMetadata = true ∧ draft.contents.hasNewObjectList = true := by
    by_cases flag : draft.contents.hasMetadata = true
    · rw [metadata_of_flag flag, Option.isSome_some, flag]
      rfl
    · rw [metadata_of_not_flag flag]
      simp [flag]
  rw [Memory.enter, records_segmentAt fits encodable, enter]
  simp only [flags]

theorem accepts_record (fits : draft.Fits memory) (encodable : draft.Encodable) :
    ∀ record ∈ draft.records, memory.Accepts record := by
  intro record member
  rw [records_eq] at member
  rcases List.mem_map.1 member with ⟨object, listed, rfl⟩
  have owes := fits.objects object listed
  have isNew : ∀ index, object.declared.index? = some index →
      object.path.isChannel = true ∧ index.WellFormed ∧
        ∀ previous, memory.latest object.path = some previous → index.type = previous.type :=
    fun index declares => ⟨owes.channel (by rw [declares]; rfl),
      (encodable.objects object listed).wellFormed index declares,
      owes.sameType index declares⟩
  rw [Memory.Accepts, Object.record]
  dsimp only
  cases declared : object.declared with
  | noData => trivial
  | matchesPrevious => exact owes.declaredBefore declared
  | values code count =>
    rw [declared] at isNew
    have known := owes.known
    rw [declared] at known
    rcases known with ⟨type, known, -⟩
    have meaning : (Declared.values code count).declaration =
        .new ⟨type, count.toNat, count.toNat * type.width⟩ := by
      simp [Declared.declaration, Declared.index?, known]
    rw [meaning]
    exact isNew _ (congrArg (Option.map _) known)
  | strings count size =>
    rw [declared] at isNew
    exact isNew _ rfl

theorem applyMetadata_segmentAt {catalogue : Catalogue} (typed : catalogue.Typed)
    (follows : catalogue.Follows memory) (fits : draft.Fits memory)
    (encodable : draft.Encodable) (ordinal offset : Nat) :
    ∃ next, catalogue.applyMetadata (draft.segmentAt ordinal offset) = .ok next := by
  by_cases flag : draft.contents.hasMetadata = true
  · have distinct : (draft.records.map Record.path).Nodup := by
      rw [records_eq, List.map_map]
      exact fits.distinct
    have accepts := accepts_record fits encodable
    have recorded : ∃ next, catalogue.applyRecords (draft.segmentAt ordinal offset) draft.records =
        .ok next := by
      rw [Catalogue.applyRecords]
      split
      · have start : Catalogue.Follows { catalogue with active := .empty }
            { memory with active := [] } := ⟨rfl, follows.latest_eq⟩
        exact Catalogue.applyRecords_of_accepts typed.clear start distinct accepts offset
      · exact Catalogue.applyRecords_of_accepts typed follows distinct accepts offset
    rcases recorded with ⟨next, applied⟩
    exact ⟨next, Catalogue.applyMetadata_eq_ok.2 (.inr ⟨_, _, metadata_of_flag flag ordinal offset,
      decode_metadata fits encodable flag ordinal offset, applied⟩)⟩
  · exact ⟨catalogue, Catalogue.applyMetadata_eq_ok.2
      (.inl ⟨metadata_of_not_flag flag ordinal offset, rfl⟩)⟩

/-! ## Raw data -/

theorem length_round {order : ByteOrder} {shares : List Share} {round : List Column}
    (filled : List.Forall₂ (Column.Fills order) shares round) :
    (round.flatMap (Column.bytes order)).length = Walk.roundSize shares := by
  induction filled with
  | nil => rfl
  | cons fills _ ih =>
    rw [List.flatMap_cons, List.length_append, ih, fills.size, Walk.roundSize, Walk.roundSize,
      List.map_cons, List.sum_cons]

/-- Raw data is as long as its rounds. -/
theorem length_dataBytes (fits : draft.Fits memory) :
    draft.dataBytes.length = draft.rounds.length * Walk.roundSize (draft.shares memory) := by
  have filled := fits.filled
  unfold dataBytes
  generalize draft.rounds = rounds at filled ⊢
  induction rounds with
  | nil => rw [List.flatMap_nil, List.length_nil, List.length_nil, Nat.zero_mul]
  | cons round rest ih =>
    rcases List.forall_mem_cons.1 filled with ⟨first, others⟩
    rw [List.flatMap_cons, List.length_append, length_round first, ih others, List.length_cons,
      Nat.succ_mul, Nat.add_comm]

theorem laidOut_segmentAt (fits : draft.Fits memory) (writable : draft.Writable)
    (ordinal offset : Nat) (some : 0 < draft.dataBytes.length) :
    Stage.LaidOut ⟨draft.segmentAt ordinal offset, (draft.enter memory).owners⟩ := by
  have length := length_dataBytes fits
  have rounds : draft.rounds ≠ [] := by
    intro none
    rw [none, List.length_nil, Nat.zero_mul] at length
    omega
  rw [Stage.LaidOut]
  split
  · rename_i interleaved
    intro owner owns values
    have share : (⟨owner.1, owner.2.type, 1, owner.2.type.width⟩ : Share) ∈
        draft.shares memory := by
      refine List.mem_filterMap.2 ⟨owner, owns, ?_⟩
      have flag : draft.contents.isInterleaved = true := interleaved
      rw [Walk.share?, if_pos flag, if_pos values]
    have notString := fits.fixedRecords interleaved rounds _ share
    cases fixed : owner.2.type.width? with
    | none => exact absurd (ScalarType.width?_eq_none_iff.1 fixed) notString
    | some width => rfl
  · -- There is a whole round, so a round is no longer than all raw data.
    have small := writable.size_lt
    have one : Walk.roundSize (draft.shares memory) ≤ draft.dataBytes.length := by
      rw [length]
      exact Nat.le_mul_of_pos_left _ (List.length_pos_iff.2 rounds)
    exact (one.trans_lt (by omega))

/-! ## Whole files -/

/-- The segments of drafts that fit each other are taken up. -/
theorem foldlM_drafts {drafts : List Draft} {catalogue : Catalogue} (fits : FitsAll memory drafts)
    (encodable : ∀ draft ∈ drafts, draft.Encodable) (writable : ∀ draft ∈ drafts, draft.Writable)
    (typed : catalogue.Typed) (follows : catalogue.Follows memory) (ordinal offset : Nat) :
    ∃ next, (segmentsFrom ordinal offset drafts).foldlM Catalogue.apply catalogue = .ok next := by
  induction drafts generalizing catalogue memory ordinal offset with
  | nil => exact ⟨catalogue, rfl⟩
  | cons draft rest ih =>
    rcases fits with ⟨first, others⟩
    rcases List.forall_mem_cons.1 encodable with ⟨encodes, encodeRest⟩
    rcases List.forall_mem_cons.1 writable with ⟨writes, writeRest⟩
    have entered := enter_segmentAt first encodes ordinal offset
    rcases applyMetadata_segmentAt typed follows first encodes ordinal offset with
      ⟨described, recorded⟩
    have taken := Catalogue.Taken.of_metadata typed follows recorded
    have laidOut : 0 < (draft.segmentAt ordinal offset).dataLength →
        Stage.LaidOut ⟨draft.segmentAt ordinal offset, described.owners⟩ := by
      intro some
      rw [taken.follows.owners_eq, entered]
      exact laidOut_segmentAt first writes ordinal offset some
    have applied := Catalogue.apply_eq_ok.2 ⟨described, recorded, laidOut, rfl⟩
    rcases Catalogue.follows_of_apply typed follows applied with ⟨typedNext, followsNext⟩
    rw [entered] at followsNext
    rcases ih others encodeRest writeRest typedNext followsNext (ordinal + 1)
      (offset + draft.bytes.length) with ⟨next, later⟩
    exact ⟨next, Outcome.foldlM_cons_eq_ok.2 ⟨_, applied, later⟩⟩

end Draft

end Tdms
