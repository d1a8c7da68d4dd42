import Mathlib
import Tdms.Proofs.Catalogue.Apply
import Tdms.Proofs.Catalogue.Directory
import Tdms.Proofs.Catalogue.Partition
import Tdms.Proofs.Segment.Cut

/-!
Catalogues of a file that ends early.

Where all segments of a file are taken up, those that are left of it are taken
up as well, for a segment is refused for its metadata alone. Their catalogue
names the first groups and channels of the whole file, and its channels own the
first pieces that they own there.
-/

namespace Tdms

variable {segments others : List Segment}

namespace Walk

theorem records_shortened (shortened : Segment.Shortened segments others) :
    others.flatMap records <+: segments.flatMap records := by
  induction shortened with
  | done => exact List.nil_prefix
  | last short =>
    rw [List.flatMap_singleton, List.flatMap_cons]
    exact List.prefix_append _ _
  | more _ ih =>
    rw [List.flatMap_cons, List.flatMap_cons]
    exact (List.prefix_append_right_inj _).2 ih

/-- Less raw data has fewer rounds, and the same blocks in each. -/
theorem Stage.blocks_shortened (stage : Stage) {dataLength : Nat}
    (short : dataLength ≤ stage.segment.dataLength) :
    Stage.blocks ⟨{ stage.segment with dataLength }, stage.owners⟩ <+: stage.blocks := by
  have fewer : dataLength / roundSize stage.shares ≤ stage.rounds := Nat.div_le_div_right short
  have first : List.range (dataLength / roundSize stage.shares) <+: List.range stage.rounds := by
    rw [← Nat.add_sub_cancel' fewer, List.range_add]
    exact List.prefix_append _ _
  exact first.flatMap _

/-- What is left of some segments has the first of their blocks. -/
theorem blocks_shortened (shortened : Segment.Shortened segments others) (memory : Memory) :
    (stages memory others).flatMap Stage.blocks <+:
      (stages memory segments).flatMap Stage.blocks := by
  induction shortened generalizing memory with
  | done => exact List.nil_prefix
  | @last segment rest dataLength short =>
    have blocks := Stage.blocks_shortened ⟨segment, (memory.enter segment).owners⟩ short
    rw [stages, stages, stages, List.flatMap_singleton, List.flatMap_cons]
    exact blocks.trans (List.prefix_append _ _)
  | more _ ih =>
    rw [stages, stages, List.flatMap_cons, List.flatMap_cons]
    exact (List.prefix_append_right_inj _).2 (ih _)

end Walk

/-! ## Directories -/

namespace Directory

theorem eraseDups_prefix {items others : List String} (first : items <+: others) :
    items.eraseDups <+: others.eraseDups := by
  obtain ⟨rest, rfl⟩ := first
  rw [List.eraseDups_append]
  exact List.prefix_append _ _

variable {records others : List Metadata.Record}

theorem groups_prefix (first : records <+: others) :
    (records.foldl note blank).groups <+: (others.foldl note blank).groups := by
  rw [foldl_note, foldl_note]
  exact eraseDups_prefix (first.filterMap _)

theorem channels_prefix (first : records <+: others) (owner : String) :
    (records.foldl note blank).channels owner <+: (others.foldl note blank).channels owner := by
  rw [foldl_note, foldl_note]
  exact eraseDups_prefix (first.filterMap _)

end Directory

namespace Catalogue

open Walk (Memory Stage)

variable {catalogue next : Catalogue} {memory : Memory}

theorem apply_shortened {segment : Segment} {dataLength : Nat}
    (short : dataLength ≤ segment.dataLength) (applied : catalogue.apply segment = .ok next) :
    ∃ cut, catalogue.apply { segment with dataLength } = .ok cut ∧
      ∀ owner name, (cut.channelAt owner name).type = (next.channelAt owner name).type := by
  obtain ⟨described, recorded, laidOut, rfl⟩ := apply_eq_ok.1 applied
  have only : described.OnlyRuns (described.placed segment) := onlyRuns_pushSlots described _
  have less : described.OnlyRuns (described.placed { segment with dataLength }) :=
    onlyRuns_pushSlots described _
  refine ⟨_, apply_eq_ok.2 ⟨described, recorded, fun some => ?_, rfl⟩, fun owner name => ?_⟩
  · exact laidOut (Nat.lt_of_lt_of_le some short)
  · exact (less.type_eq owner name).trans (only.type_eq owner name).symm

/-- Where segments are taken up, what is left of them is, and no channel gets another type. -/
theorem foldlM_shortened (shortened : Segment.Shortened segments others)
    (applied : segments.foldlM Catalogue.apply catalogue = .ok next) :
    ∃ cut, others.foldlM Catalogue.apply catalogue = .ok cut ∧
      ∀ owner name type, (cut.channelAt owner name).type = some type →
        (next.channelAt owner name).type = some type := by
  induction shortened generalizing catalogue with
  | done => exact ⟨catalogue, rfl, fun owner name type => type_kept_of_foldlM applied⟩
  | last short =>
    obtain ⟨middle, first, later⟩ := Outcome.foldlM_cons_eq_ok.1 applied
    obtain ⟨cut, taken, same⟩ := apply_shortened short first
    refine ⟨cut, Outcome.foldlM_cons_eq_ok.2 ⟨cut, taken, rfl⟩, fun owner name type typed => ?_⟩
    rw [same] at typed
    exact type_kept_of_foldlM later typed
  | more _ ih =>
    obtain ⟨middle, first, later⟩ := Outcome.foldlM_cons_eq_ok.1 applied
    obtain ⟨cut, taken, kept⟩ := ih later
    exact ⟨cut, Outcome.foldlM_cons_eq_ok.2 ⟨middle, first, taken⟩, kept⟩

/-- The pieces of a channel are those of its blocks that hold samples. -/
theorem Tracks.pieces_channelAt {stages : List Stage} (tracks : catalogue.Tracks memory stages)
    {owner name : String} {type : ScalarType}
    (typed : (catalogue.channelAt owner name).type = some type) :
    (catalogue.channelAt owner name).pieces =
      (((stages.flatMap Stage.blocks).filter fun block =>
        block.path = .channel owner name).flatMap Walk.Block.pieces).filter
          fun piece => 0 < piece.count := by
  rw [Channel.pieces, typed]
  exact tracks.pieces_eq typed

/-- A channel owns the first pieces that it owns in the whole file. -/
theorem Tracks.pieces_prefix {cut whole : Catalogue} {before after : Memory}
    {stages rest : List Stage} (tracks : cut.Tracks before stages) (all : whole.Tracks after rest)
    (first : stages.flatMap Stage.blocks <+: rest.flatMap Stage.blocks) {owner name : String}
    (kept : ∀ type, (cut.channelAt owner name).type = some type →
      (whole.channelAt owner name).type = some type) :
    (cut.channelAt owner name).pieces <+: (whole.channelAt owner name).pieces := by
  cases typed : (cut.channelAt owner name).type with
  | none =>
    rw [Channel.pieces, typed]
    exact List.nil_prefix
  | some type =>
    rw [tracks.pieces_channelAt typed, all.pieces_channelAt (kept type typed)]
    exact ((first.filter _).flatMap _).filter _

end Catalogue

end Tdms
