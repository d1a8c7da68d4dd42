import Mathlib
import Tdms.Proofs.Layout

/-!
The runs of a stage, which is a segment with the objects that own its raw data.

`runs_eq_ok` says when raw data is laid out. For a sound stage,
`Stage.Sound.pieces_runsAt` is the main result: the runs of an object expand to the
pieces of the blocks that the plain walk visits for it, in the same order.
-/

namespace Tdms

open Metadata (RawIndex)

namespace Walk

/-! ## When raw data is laid out -/

/-- The slots of the objects of a stage. -/
def Stage.slots (stage : Stage) : List (Option Run) :=
  let size := roundSize stage.shares
  Layout.slotsFrom (Layout.slot stage.segment size stage.rounds)
    (Layout.advance stage.segment.isInterleaved) stage.segment.dataOffset
    (stage.owners.map Prod.snd)

/-- Whether the raw data of a stage is laid out: a chunk of it fits 64 bits, and no record holds
values of varying width. -/
def Stage.LaidOut (stage : Stage) : Prop :=
  if stage.segment.isInterleaved then
    ∀ owner ∈ stage.owners, 0 < owner.2.count → owner.2.type.width?.isSome
  else roundSize stage.shares < UInt64.size

end Walk

namespace Layout

/-- A layout answers exactly for a stage that is laid out, and then with a row of slots, none of
which holds a run if there is no whole round. -/
theorem runs_eq_ok {stage : Walk.Stage} {runs : List (Option Run)} :
    Layout.runs stage.segment (stage.owners.map Prod.snd) = .ok runs ↔
      stage.LaidOut ∧
        runs = if stage.rounds = 0 then stage.owners.map fun _ => none else stage.slots := by
  rw [Layout.runs, Walk.Stage.LaidOut, Walk.Stage.slots, Walk.Stage.rounds, Walk.Stage.shares]
  cases interleaved : stage.segment.isInterleaved with
  | true =>
    rw [if_pos rfl, if_pos rfl, interleavedRuns_eq_ok, roundSize_interleaved, List.forall_mem_map,
      List.map_map, interleavedRunsFrom_eq]
    have sameSlot : slot stage.segment = interleavedRun stage.segment := by
      funext size turns offset index
      rw [slot, if_pos interleaved]
    rw [sameSlot]
    rfl
  | false =>
    rw [if_neg Bool.false_ne_true, if_neg Bool.false_ne_true, contiguousRuns_eq_ok,
      roundSize_contiguous, List.map_map, contiguousRunsFrom_eq]
    have sameSlot : slot stage.segment = contiguousRun stage.segment := by
      funext size turns offset index
      rw [slot, interleaved, if_neg Bool.false_ne_true]
    rw [sameSlot]
    rfl

end Layout

namespace Walk

/-! ## Blocks before and after an object -/

theorem shares_append (interleaved : Bool) (before after : List (ObjectPath × RawIndex)) :
    shares interleaved (before ++ after) =
      shares interleaved before ++ shares interleaved after := by
  rw [shares, List.filterMap_append]
  rfl

theorem shares_singleton (interleaved : Bool) (owner : ObjectPath × RawIndex) :
    shares interleaved [owner] = (share? interleaved owner).toList := by
  rw [shares, List.filterMap_cons, List.filterMap_nil]
  cases share? interleaved owner with
  | none => rfl
  | some share => rfl

theorem roundSize_append (before after : List Share) :
    roundSize (before ++ after) = roundSize before + roundSize after := by
  rw [roundSize, List.map_append, List.sum_append]
  rfl

theorem round_append (order : ByteOrder) (offset : Nat) (before after : List Share) :
    round order offset (before ++ after) =
      round order offset before ++ round order (offset + roundSize before) after := by
  induction before generalizing offset with
  | nil => rfl
  | cons share rest ih =>
    rw [List.cons_append, round, round, ih, List.cons_append, Nat.add_assoc]
    rfl

theorem path_of_share? {interleaved : Bool} {owner : ObjectPath × RawIndex} {share : Share}
    (owned : share? interleaved owner = some share) : share.path = owner.1 := by
  unfold share? at owned
  split at owned
  · split at owned
    · cases owned
      rfl
    · cases owned
  · cases owned
    rfl

theorem type_of_share? {interleaved : Bool} {owner : ObjectPath × RawIndex} {share : Share}
    (owned : share? interleaved owner = some share) : share.type = owner.2.type := by
  unfold share? at owned
  split at owned
  · split at owned
    · cases owned
      rfl
    · cases owned
  · cases owned
    rfl

theorem share_of_mem_round {order : ByteOrder} {offset : Nat} {shares : List Share} {block : Block}
    (listed : block ∈ round order offset shares) : block.toShare ∈ shares := by
  induction shares generalizing offset with
  | nil => cases listed
  | cons share rest ih =>
    rcases List.mem_cons.1 listed with rfl | later
    · exact List.mem_cons_self
    · exact List.mem_cons_of_mem _ (ih later)

/-- A round of objects other than the one at `path` has no block of it. -/
theorem filter_round_of_absent {interleaved : Bool} {owners : List (ObjectPath × RawIndex)}
    {path : ObjectPath} (absent : path ∉ owners.map Prod.fst) (order : ByteOrder) (offset : Nat) :
    (round order offset (shares interleaved owners)).filter (fun block => block.path = path) =
      [] := by
  rw [List.filter_eq_nil_iff]
  intro block listed same
  obtain ⟨owner, member, owned⟩ := List.mem_filterMap.1 (share_of_mem_round listed)
  have here : owner.1 = path := (path_of_share? owned).symm.trans (of_decide_eq_true same)
  exact absent (here ▸ List.mem_map_of_mem member)

/-- The blocks of an object, one in every round. -/
theorem filter_round_append {before after : List (ObjectPath × RawIndex)} {path : ObjectPath}
    (early : path ∉ before.map Prod.fst) (late : path ∉ after.map Prod.fst) (interleaved : Bool)
    (index : RawIndex) (order : ByteOrder) (offset : Nat) :
    (round order offset (shares interleaved (before ++ (path, index) :: after))).filter
        (fun block => block.path = path) =
      (share? interleaved (path, index)).toList.map fun share =>
        ⟨share, offset + roundSize (shares interleaved before), order⟩ := by
  rw [← List.singleton_append, shares_append, shares_append, round_append, round_append,
    List.filter_append, List.filter_append, filter_round_of_absent early,
    filter_round_of_absent late, List.nil_append, List.append_nil, shares_singleton]
  cases owned : share? interleaved (path, index) with
  | none => rfl
  | some share =>
    have named : share.path = path := path_of_share? owned
    simp [round, named]

/-! ## The runs of an object in a stage -/

/-- The slots that a layout answers with for a stage that is laid out. -/
def Stage.runs (stage : Stage) : List (Option Run) :=
  if stage.rounds = 0 then stage.owners.map fun _ => none else stage.slots

/-- The runs of the object at `path`, at most one. -/
def Stage.runsAt (stage : Stage) (path : ObjectPath) : List Run :=
  (stage.owners.zip stage.runs).filterMap fun slot => if slot.1.1 = path then slot.2 else none

/-- What stages of a file that opens guarantee: raw data is laid out if there is any, every object
has one well-formed raw data index, and the number of bytes fits 64 bits. -/
structure Stage.Sound (stage : Stage) : Prop where
  laidOut : 0 < stage.segment.dataLength → stage.LaidOut
  distinct : (stage.owners.map Prod.fst).Nodup
  wellFormed : ∀ owner ∈ stage.owners, owner.2.WellFormed
  short : stage.segment.dataLength < UInt64.size

theorem filterMap_zip_of_absent {owners : List (ObjectPath × RawIndex)} {path : ObjectPath}
    (absent : path ∉ owners.map Prod.fst) (runs : List (Option Run)) :
    (owners.zip runs).filterMap (fun slot => if slot.1.1 = path then slot.2 else none) = [] := by
  rw [List.filterMap_eq_nil_iff]
  rintro ⟨owner, run?⟩ listed
  rw [if_neg]
  rintro rfl
  exact absent (List.mem_map_of_mem (List.of_mem_zip listed).1)

theorem Stage.runsAt_of_absent {stage : Stage} {path : ObjectPath}
    (absent : path ∉ stage.owners.map Prod.fst) : stage.runsAt path = [] :=
  filterMap_zip_of_absent absent _

theorem Stage.runsAt_of_rounds {stage : Stage} (none : stage.rounds = 0) (path : ObjectPath) :
    stage.runsAt path = [] := by
  rw [runsAt, runs, if_pos none, List.filterMap_eq_nil_iff]
  rintro ⟨owner, run?⟩ listed
  obtain ⟨other, -, rfl⟩ := List.mem_map.1 (List.of_mem_zip listed).2
  split
  · rfl
  · rfl

/-- The run of an object is the one in its slot. -/
theorem Stage.runsAt_of_owners {stage : Stage} {before after : List (ObjectPath × RawIndex)}
    {path : ObjectPath} {index : RawIndex}
    (owners : stage.owners = before ++ (path, index) :: after)
    (early : path ∉ before.map Prod.fst) (late : path ∉ after.map Prod.fst)
    (turned : stage.rounds ≠ 0) :
    stage.runsAt path =
      (Layout.slot stage.segment (roundSize stage.shares) stage.rounds
        (stage.segment.dataOffset + roundSize (Walk.shares stage.segment.isInterleaved before))
        index).toList := by
  rw [runsAt, runs, if_neg turned, slots]
  rw [owners, List.map_append, List.map_cons, Layout.slotsFrom_append, Layout.sum_advance,
    Layout.slotsFrom, List.zip_append (by rw [Layout.length_slotsFrom, List.length_map]),
    List.zip_cons_cons, List.filterMap_append, filterMap_zip_of_absent early, List.nil_append,
    List.filterMap_cons, filterMap_zip_of_absent late, if_pos rfl]
  dsimp only
  cases Layout.slot stage.segment (roundSize stage.shares) stage.rounds
      (stage.segment.dataOffset + roundSize (Walk.shares stage.segment.isInterleaved before))
      index with
  | none => rfl
  | some run => rfl

theorem Stage.dataLength_pos (stage : Stage) (turned : stage.rounds ≠ 0) :
    0 < stage.segment.dataLength := by
  unfold rounds at turned
  exact Nat.pos_of_ne_zero fun empty => turned (by rw [empty, Nat.zero_div])

/-- Records hold only values of fixed widths. -/
theorem Stage.Sound.fixed {stage : Stage} (sound : stage.Sound) {path : ObjectPath}
    {index : RawIndex} (listed : (path, index) ∈ stage.owners) (turned : stage.rounds ≠ 0)
    (interleaved : stage.segment.isInterleaved = true) (values : 0 < index.count) :
    index.type.width?.isSome := by
  have laidOut := sound.laidOut (stage.dataLength_pos turned)
  rw [LaidOut, if_pos interleaved] at laidOut
  exact laidOut _ listed values

/-- The owners before and after an object, none of which stands for the same object. -/
theorem Stage.Sound.split {stage : Stage} (sound : stage.Sound) {path : ObjectPath}
    {index : RawIndex} (listed : (path, index) ∈ stage.owners) :
    ∃ before after, stage.owners = before ++ (path, index) :: after ∧
      path ∉ before.map Prod.fst ∧ path ∉ after.map Prod.fst := by
  obtain ⟨before, after, owners⟩ := List.append_of_mem listed
  have distinct := sound.distinct
  rw [owners, List.map_append, List.map_cons, List.nodup_append, List.nodup_cons] at distinct
  refine ⟨before, after, owners, fun early => ?_, distinct.2.1.1⟩
  exact distinct.2.2 path early path List.mem_cons_self rfl

theorem Stage.blocks_filter {stage : Stage} {before after : List (ObjectPath × RawIndex)}
    {path : ObjectPath} {index : RawIndex}
    (owners : stage.owners = before ++ (path, index) :: after)
    (early : path ∉ before.map Prod.fst) (late : path ∉ after.map Prod.fst) :
    stage.blocks.filter (fun block => block.path = path) =
      (List.range stage.rounds).flatMap fun turn =>
        (share? stage.segment.isInterleaved (path, index)).toList.map fun share =>
          ⟨share, stage.segment.dataOffset +
              roundSize (Walk.shares stage.segment.isInterleaved before) +
            turn * roundSize stage.shares, stage.segment.order⟩ := by
  rw [blocks, List.filter_flatMap]
  congr 1
  funext turn
  have placed := filter_round_append early late stage.segment.isInterleaved index
    stage.segment.order (stage.segment.dataOffset + turn * roundSize stage.shares)
  rw [← owners, Nat.add_right_comm] at placed
  exact placed

/-- The runs of an object expand to the pieces of its blocks, in the same order. Blocks of strings
without a string in them have none. -/
theorem Stage.Sound.pieces_runsAt {stage : Stage} (sound : stage.Sound) {path : ObjectPath}
    {type : ScalarType} (typed : ∀ index, (path, index) ∈ stage.owners → index.type = type) :
    (stage.runsAt path).flatMap (Run.pieces type) =
      ((stage.blocks.filter fun block => block.path = path).flatMap Block.pieces).filter
        fun piece => 0 < piece.count := by
  by_cases present : path ∈ stage.owners.map Prod.fst
  · obtain ⟨⟨_, index⟩, listed, rfl⟩ := List.mem_map.1 present
    obtain ⟨before, after, owners, early, late⟩ := sound.split listed
    rw [blocks_filter owners early late, List.flatMap_assoc, List.filter_flatMap]
    by_cases turned : stage.rounds = 0
    · rw [runsAt_of_rounds turned, turned]
      rfl
    · rw [runsAt_of_owners owners early late turned, ← typed index listed,
        Layout.pieces_slot (sound.wellFormed _ listed) (sound.fixed listed turned),
        Layout.blockPieces]
      congr 1
      funext turn
      rw [List.flatMap_map]
  · rw [runsAt_of_absent present]
    have absent : stage.blocks.filter (fun block => block.path = path) = [] := by
      rw [blocks, List.filter_flatMap, List.flatMap_eq_nil_iff]
      intro turn _
      exact filter_round_of_absent present _ _
    rw [absent]
    rfl

/-- A run of an object lies in the raw data of the segment and has the shape of its type. -/
theorem Stage.Sound.shaped_of_mem_runsAt {stage : Stage} (sound : stage.Sound) {path : ObjectPath}
    {run : Run} (listed : run ∈ stage.runsAt path) :
    ∃ index, (path, index) ∈ stage.owners ∧ run.Shaped index.type ∧ run.Within stage.segment := by
  by_cases present : path ∈ stage.owners.map Prod.fst
  · obtain ⟨⟨_, index⟩, member, rfl⟩ := List.mem_map.1 present
    obtain ⟨before, after, owners, early, late⟩ := sound.split member
    by_cases turned : stage.rounds = 0
    · rw [runsAt_of_rounds turned] at listed
      cases listed
    · rw [runsAt_of_owners owners early late turned, Option.mem_toList] at listed
      have room : roundSize (Walk.shares stage.segment.isInterleaved before) +
          Layout.advance stage.segment.isInterleaved index ≤ roundSize stage.shares := by
        rw [shares, owners, shares_append, roundSize_append, Layout.roundSize_shares_cons]
        exact Nat.add_le_add_left (Nat.le_add_right _ _) _
      exact ⟨index, member, Layout.shaped_slot (sound.wellFormed _ member)
        (sound.fixed member turned) (Nat.pos_of_ne_zero turned) room (Nat.div_mul_le_self _ _)
        sound.short listed⟩
  · rw [runsAt_of_absent present] at listed
    cases listed

/-- An object has at most one run in a stage. -/
theorem Stage.Sound.length_runsAt_le {stage : Stage} (sound : stage.Sound) (path : ObjectPath) :
    (stage.runsAt path).length ≤ 1 := by
  by_cases present : path ∈ stage.owners.map Prod.fst
  · obtain ⟨⟨_, index⟩, member, rfl⟩ := List.mem_map.1 present
    obtain ⟨before, after, owners, early, late⟩ := sound.split member
    by_cases turned : stage.rounds = 0
    · rw [runsAt_of_rounds turned]
      exact Nat.zero_le 1
    · rw [runsAt_of_owners owners early late turned]
      cases Layout.slot _ _ _ _ _ with
      | none => exact Nat.zero_le 1
      | some run => exact le_rfl
  · rw [runsAt_of_absent present]
    exact Nat.zero_le 1

end Walk

end Tdms
