import Mathlib
import Tdms.Proofs.Catalogue.Append
import Tdms.Proofs.Segment.Split

/-!
Catalogues of a file with a segment that is cut in two.

Both parts of a segment have the objects of the whole, and what a catalogue
remembers behind them is what it remembers behind the whole. So all later
segments are taken up as before. If the first part has whole rounds of raw data,
the parts hold the blocks of the whole.
-/

namespace Tdms

variable {segment : Segment} {kept : Nat} {following : LeadIn}

/-- The segment without the first `kept` bytes of its raw data. -/
def Segment.without (kept : Nat) (segment : Segment) : Segment :=
  { segment with
    dataOffset := segment.dataOffset + kept
    dataLength := segment.dataLength - kept }

namespace Walk

theorem records_back (segment : Segment) : records (segment.back kept following) = [] :=
  rfl

theorem Memory.enter_back (memory : Memory) :
    memory.enter (segment.back kept following) = memory := by
  rw [enter, records_back, if_neg fun both => Bool.false_ne_true both.1]
  rfl

/-- The parts of a segment bring the records of the whole. -/
theorem records_parts (before after : List Segment) :
    (before ++ segment.front kept :: segment.back kept following ::
        after.map (Segment.shift leadInLength 1)).flatMap records =
      (before ++ segment :: after).flatMap records := by
  rw [List.flatMap_append, List.flatMap_append, List.flatMap_cons, List.flatMap_cons,
    List.flatMap_cons, records_back, List.nil_append, List.flatMap_map]
  rfl

/-- A stage belongs to one of the segments, and has the objects that are active there. -/
theorem exists_of_mem_stages {memory : Memory} {segments : List Segment} {stage : Stage}
    (listed : stage ∈ stages memory segments) :
    ∃ before after, segments = before ++ stage.segment :: after ∧
      stage.owners = ((before.foldl Memory.enter memory).enter stage.segment).owners := by
  induction segments generalizing memory with
  | nil => cases listed
  | cons segment rest ih =>
    rcases List.mem_cons.1 listed with rfl | later
    · exact ⟨[], rest, rfl, rfl⟩
    · obtain ⟨before, after, same, owners⟩ := ih later
      exact ⟨segment :: before, after, congrArg (segment :: ·) same, owners⟩

/-! ## Blocks -/

/-- The rounds of a segment are those that the first bytes hold and those behind them. -/
theorem Stage.blocks_split {stage : Stage} (whole : roundSize stage.shares ∣ kept)
    (within : kept ≤ stage.segment.dataLength) :
    stage.blocks = Stage.blocks ⟨stage.segment.front kept, stage.owners⟩ ++
      Stage.blocks ⟨stage.segment.without kept, stage.owners⟩ := by
  have early := Nat.div_mul_cancel whole
  have rounds : stage.rounds = kept / roundSize stage.shares +
      (stage.segment.dataLength - kept) / roundSize stage.shares := by
    rw [rounds, ← Nat.add_div_of_dvd_right whole, Nat.add_sub_cancel' within]
  have front : Stage.blocks ⟨stage.segment.front kept, stage.owners⟩ =
      (List.range (kept / roundSize stage.shares)).flatMap fun turn =>
        round stage.segment.order (stage.segment.dataOffset + turn * roundSize stage.shares)
          stage.shares := rfl
  have rest : Stage.blocks ⟨stage.segment.without kept, stage.owners⟩ =
      (List.range ((stage.segment.dataLength - kept) / roundSize stage.shares)).flatMap fun turn =>
        round stage.segment.order
          (stage.segment.dataOffset + kept + turn * roundSize stage.shares) stage.shares := rfl
  rw [front, rest, blocks, rounds, List.range_add, List.flatMap_append, List.flatMap_map]
  congr 2
  funext turn
  rw [Nat.add_mul, early, Nat.add_assoc]

/-- The second part has the blocks behind the cut, moved by the new lead-in. -/
theorem Stage.blocks_back (continues : following.Continues segment kept)
    (owners : List (ObjectPath × Metadata.RawIndex)) :
    Stage.blocks ⟨segment.back kept following, owners⟩ =
      (Stage.blocks ⟨segment.without kept, owners⟩).map (Block.shift leadInLength) := by
  have moved := @Stage.blocks_shift leadInLength 1 ⟨segment.without kept, owners⟩
  have place : leadInLength + (segment.dataOffset + kept) =
      segment.dataOffset + kept + leadInLength := Nat.add_comm _ _
  have order : (segment.back kept following).order = segment.order := continues.order_eq
  have layout : (segment.back kept following).isInterleaved = segment.isInterleaved :=
    continues.isInterleaved_eq
  rw [← moved]
  simp only [blocks, rounds, shares, order, layout]
  simp only [Stage.shift, Segment.shift, Segment.without, Segment.back, place]
  rfl

/-- The blocks of segments of which one is cut in two are those of the segments. The blocks behind
the cut are moved by the new lead-in. -/
theorem blocks_parts {stage : Stage} (whole : roundSize stage.shares ∣ kept)
    (within : kept ≤ stage.segment.dataLength)
    (continues : following.Continues stage.segment kept) (before after : List Stage) :
    let early := before.flatMap Stage.blocks ++
      Stage.blocks ⟨stage.segment.front kept, stage.owners⟩
    let late := Stage.blocks ⟨stage.segment.without kept, stage.owners⟩ ++
      after.flatMap Stage.blocks
    (before ++ stage :: after).flatMap Stage.blocks = early ++ late ∧
      (before ++ ⟨stage.segment.front kept, stage.owners⟩ ::
          ⟨stage.segment.back kept following, stage.owners⟩ ::
            after.map (Stage.shift leadInLength 1)).flatMap Stage.blocks =
        early ++ late.map (Block.shift leadInLength) := by
  constructor
  · rw [List.flatMap_append, List.flatMap_cons, Stage.blocks_split whole within,
      List.append_assoc, List.append_assoc]
  · rw [List.flatMap_append, List.flatMap_cons, List.flatMap_cons,
      Stage.blocks_back continues, blocks_map_shift, ← List.map_append, List.append_assoc]

end Walk

namespace Catalogue

open Walk (Memory Stage)

variable {catalogue next : Catalogue}

/-- The parts of a segment are taken up if the whole is, and leave the same objects behind. -/
theorem apply_split (applied : catalogue.apply segment = .ok next)
    (within : kept ≤ segment.dataLength) (continues : following.Continues segment kept) :
    ∃ early late, catalogue.apply (segment.front kept) = .ok early ∧
      early.apply (segment.back kept following) = .ok late ∧
      late.active = next.active ∧ late.declared = next.declared := by
  obtain ⟨described, recorded, laidOut, rfl⟩ := apply_eq_ok.1 applied
  have only : described.OnlyRuns (described.placed segment) := onlyRuns_pushSlots described _
  have first : described.OnlyRuns (described.placed (segment.front kept)) :=
    onlyRuns_pushSlots described _
  obtain ⟨early, front, active, declared⟩ : ∃ early, catalogue.apply (segment.front kept) =
      .ok early ∧ early.active = described.active ∧ early.declared = described.declared := by
    refine ⟨_, apply_eq_ok.2 ⟨described, ?_, fun some => ?_, rfl⟩, first.active_eq,
      first.declared_eq⟩
    · exact recorded
    · exact laidOut (some.trans_le within)
  have owners : early.owners = described.owners := by
    rw [Catalogue.owners, Catalogue.owners, active]
  have second : early.OnlyRuns (early.placed (segment.back kept following)) :=
    onlyRuns_pushSlots early _
  refine ⟨early, _, front, apply_eq_ok.2 ⟨early, rfl, fun some => ?_, rfl⟩, ?_, ?_⟩
  · have left : 0 < segment.dataLength - kept := some
    have layout : (segment.back kept following).isInterleaved = segment.isInterleaved :=
      continues.isInterleaved_eq
    have whole := laidOut (by omega)
    unfold Stage.LaidOut Stage.shares at whole ⊢
    dsimp only at whole ⊢
    rwa [layout, owners]
  · exact second.active_eq.trans (active.trans only.active_eq.symm)
  · exact second.declared_eq.trans (declared.trans only.declared_eq.symm)

variable {before after : List Segment}

/-- Where a segment is taken up among others, so are its parts in its place, with the same
objects. -/
theorem foldlM_split
    (applied : (before ++ segment :: after).foldlM Catalogue.apply .empty = .ok next)
    (within : kept ≤ segment.dataLength) (continues : following.Continues segment kept) :
    let memory := (before.foldl Memory.enter .blank).enter segment
    let parts := before ++ segment.front kept :: segment.back kept following ::
      after.map (Segment.shift leadInLength 1)
    ∃ other, parts.foldlM Catalogue.apply .empty = .ok other ∧ Overlay .empty next other ∧
      Walk.stages .blank parts = Walk.stages .blank before ++
        ⟨segment.front kept, memory.owners⟩ :: ⟨segment.back kept following, memory.owners⟩ ::
          (Walk.stages memory after).map (Stage.shift leadInLength 1) := by
  rw [List.foldlM_append] at applied
  obtain ⟨catalogue, begun, applied⟩ := Outcome.bind_eq_ok.1 applied
  obtain ⟨middle, taken, later⟩ := Outcome.foldlM_cons_eq_ok.1 applied
  obtain ⟨early, late, front, back, active, declared⟩ := apply_split taken within continues
  have opening := follows_of_foldlM .empty .empty begun
  have alone := follows_of_apply opening.1 opening.2 taken
  have first := follows_of_apply opening.1 opening.2 front
  have second := follows_of_apply first.1 first.2 back
  rw [Memory.enter_back] at second
  have inStep : InStep .empty middle late ((before.foldl Memory.enter .blank).enter segment)
      ((before.foldl Memory.enter .blank).enter (segment.front kept)) := by
    refine ⟨⟨active, fun path => ?_, nofun⟩, alone.1, alone.2, second.1, second.2⟩
    rw [declared]
    exact Option.or_none.symm
  rcases inStep.foldlM .empty later leadInLength 1 with ⟨other, folded, overlay, stages⟩ | clash
  · refine ⟨other, ?_, overlay, ?_⟩
    · rw [List.foldlM_append, begun]
      exact Outcome.foldlM_cons_eq_ok.2 ⟨early, front,
        Outcome.foldlM_cons_eq_ok.2 ⟨late, back, folded⟩⟩
    · rw [Walk.stages_append, Walk.stages, Walk.stages, Memory.enter_back, stages]
      rfl
  · obtain ⟨owner, name, existing, found, none, -⟩ := clash
    cases none

end Catalogue

end Tdms
