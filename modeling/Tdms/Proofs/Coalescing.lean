import Mathlib
import Tdms.Proofs.Catalogue.Checked

/-!
Runs that are pushed, and the runs that a channel stores.

Pushed runs fall into groups, of runs that each continue the one before, and a
channel stores one run for each group. `gathers_groups` says this of any list
of runs that is pushed onto any other. A stored run has the positions of its
group, in the same order, and none but packed runs of one chunk share a group.
`Channel.coalesces` is the main result, for numbers of any size and for those
of 64 bits as long as they do not overflow.
-/

namespace Tdms

/-! ## Positions -/

/-- Where a sample lies, or a block of strings. -/
structure Run.Position where
  segment : Nat
  offset : Nat
  order : ByteOrder
  /-- Bytes and samples of a block of strings, nothing for a sample of its own. -/
  block? : Option (Nat × Nat)
  deriving DecidableEq, Repr

namespace Run

/-- The positions in a chunk that starts at `start`. -/
def chunkPositions (run : Run) (start : Nat) : List Position :=
  if run.stride = 0 then
    [⟨run.segment, start, run.order, some (run.byteLength, run.sampleCount)⟩]
  else
    (List.range run.sampleCount).map fun sample =>
      ⟨run.segment, start + sample * run.stride, run.order, none⟩

/-- All positions of a run, chunk by chunk. -/
def positions (run : Run) : List Position :=
  (List.range run.chunkCount).flatMap fun chunk => run.chunkPositions (run.chunkOffset chunk)

/-- The pieces that are decoded at a position, of samples of `type`. -/
def Position.pieces (type : ScalarType) (position : Position) : List Piece :=
  match position.block? with
  | none => Piece.row type position.order position.offset 0 0 1
  | some (bytes, samples) => Piece.row type position.order position.offset bytes 0 samples

/-- What is decoded of a run is what is decoded at its positions, if its strings are in blocks. -/
theorem pieces_eq_flatMap_positions {run : Run} {type : ScalarType}
    (blocks : type = .string → run.stride = 0) :
    run.pieces type = run.positions.flatMap (Position.pieces type) := by
  rw [pieces, positions, List.flatMap_assoc]
  congr 1
  funext chunk
  by_cases unspaced : run.stride = 0
  · rw [chunkPositions, if_pos unspaced, List.flatMap_singleton, unspaced]
    rfl
  · rcases ScalarType.exists_width fun string => unspaced (blocks string) with ⟨width, fixed⟩
    rw [chunkPositions, if_neg unspaced, List.flatMap_map, Piece.row_of_width fixed,
      List.map_eq_flatMap]
    congr 1
    funext sample
    rw [Position.pieces, Piece.row_of_width fixed]
    simp

theorem isPacked_iff {run : Run} :
    run.isPacked = true ↔ run.stride ≠ 0 ∧ run.byteLength = run.sampleCount * run.stride := by
  simp [isPacked]

theorem positions_of_packed {run : Run} (packed : run.isPacked = true)
    (single : run.chunkCount = 1) :
    run.positions = (List.range run.sampleCount).map fun sample =>
      ⟨run.segment, run.offset + sample * run.stride, run.order, none⟩ := by
  rw [positions, single, List.range_one, List.flatMap_singleton, chunkPositions,
    if_neg (isPacked_iff.1 packed).1, chunkOffset, Nat.zero_mul, Nat.add_zero]

/-! ## Runs that continue others -/

/-- Two runs that may be stored as one: packed runs of one chunk, alike but for their samples. -/
structure Joinable (run next : Run) : Prop where
  segment_eq : run.segment = next.segment
  stride_eq : run.stride = next.stride
  order_eq : run.order = next.order
  single : run.chunkCount = 1 ∧ next.chunkCount = 1
  packed : run.isPacked = true ∧ next.isPacked = true

instance : Trans Joinable Joinable Joinable where
  trans first second :=
    ⟨first.segment_eq.trans second.segment_eq, first.stride_eq.trans second.stride_eq,
      first.order_eq.trans second.order_eq, ⟨first.single.1, second.single.2⟩,
      ⟨first.packed.1, second.packed.2⟩⟩

/-- A run continues another if the two may be stored as one and leave no gap. -/
theorem isContinuedBy_iff {run next : Run} :
    run.isContinuedBy next = true ↔
      run.Joinable next ∧ run.offset + run.byteLength = next.offset := by
  simp only [isContinuedBy, Bool.and_eq_true, beq_iff_eq]
  constructor
  · intro all
    rcases all with ⟨⟨⟨⟨⟨⟨⟨segment, stride⟩, order⟩, one⟩, other⟩, adjacent⟩, packed⟩, also⟩
    exact ⟨⟨segment, stride, order, ⟨one, other⟩, ⟨packed, also⟩⟩, adjacent⟩
  · intro all
    rcases all with ⟨⟨segment, stride, order, ⟨one, other⟩, ⟨packed, also⟩⟩, adjacent⟩
    exact ⟨⟨⟨⟨⟨⟨⟨segment, stride⟩, order⟩, one⟩, other⟩, adjacent⟩, packed⟩, also⟩

section

variable {run next : Run} (continued : run.isContinuedBy next = true)
include continued

theorem isPacked_merge : (run.merge next).isPacked = true := by
  rcases isContinuedBy_iff.1 continued with ⟨joinable, -⟩
  rcases isPacked_iff.1 joinable.packed.1 with ⟨spaced, length⟩
  have more := (isPacked_iff.1 joinable.packed.2).2
  refine isPacked_iff.2 ⟨spaced, ?_⟩
  rw [merge, length, more, joinable.stride_eq, Nat.add_mul]

/-- What continues two runs that are stored as one is what continues the later of them. -/
theorem isContinuedBy_merge (later : Run) :
    (run.merge next).isContinuedBy later = next.isContinuedBy later := by
  have packed := isPacked_merge continued
  rcases isContinuedBy_iff.1 continued with ⟨joinable, adjacent⟩
  have place : run.offset + (run.byteLength + next.byteLength) = next.offset + next.byteLength := by
    omega
  rw [isContinuedBy, isContinuedBy, packed, joinable.packed.2]
  simp only [merge, joinable.segment_eq, joinable.stride_eq, joinable.order_eq, joinable.single.1,
    joinable.single.2, place]

/-- Two runs that are stored as one keep their positions. -/
theorem positions_merge : (run.merge next).positions = run.positions ++ next.positions := by
  rcases isContinuedBy_iff.1 continued with ⟨joinable, adjacent⟩
  have length := (isPacked_iff.1 joinable.packed.1).2
  have one : (run.merge next).chunkCount = 1 := joinable.single.1
  rw [positions_of_packed (isPacked_merge continued) one,
    positions_of_packed joinable.packed.1 joinable.single.1,
    positions_of_packed joinable.packed.2 joinable.single.2]
  dsimp only [merge]
  rw [List.range_add, List.map_append, List.map_map]
  congr 1
  refine List.map_congr_left fun sample _ => ?_
  rw [Function.comp, joinable.segment_eq, joinable.order_eq, ← adjacent, length,
    joinable.stride_eq, Nat.add_mul, Nat.add_assoc]

end

/-! ## Groups -/

/-- The run that is stored for a group of pushed runs: the first of them, into which the others are
merged, each of which continues what is stored before it. -/
inductive Gathers : List Run → Run → Prop
  | one (run : Run) : Gathers [run] run
  | more {group : List Run} {stored next : Run} (gathers : Gathers group stored)
      (continued : stored.isContinuedBy next = true) :
    Gathers (group ++ [next]) (stored.merge next)

namespace Gathers

variable {group : List Run} {stored last : Run}

theorem positions_eq (gathers : Gathers group stored) :
    stored.positions = group.flatMap positions := by
  induction gathers with
  | one run => exact (List.flatMap_singleton ..).symm
  | more _ continued ih =>
    rw [positions_merge continued, ih, List.flatMap_append, List.flatMap_singleton]

/-- The samples of a stored run are as far apart as those of a run of its group. -/
theorem exists_stride_eq (gathers : Gathers group stored) :
    ∃ run ∈ group, stored.stride = run.stride := by
  induction gathers with
  | one run => exact ⟨run, List.mem_singleton_self run, rfl⟩
  | more _ _ ih =>
    rcases ih with ⟨run, listed, same⟩
    exact ⟨run, List.mem_append_left _ listed, same⟩

/-- A stored run is continued by what continues the last run of its group. -/
theorem isContinuedBy_eq (gathers : Gathers group stored) (ends : group.getLast? = some last)
    (next : Run) : stored.isContinuedBy next = last.isContinuedBy next := by
  cases gathers with
  | one =>
    obtain rfl := Option.some.inj ends
    rfl
  | more _ continued =>
    obtain rfl := Option.some.inj (List.getLast?_concat.symm.trans ends)
    exact isContinuedBy_merge continued next

end Gathers

/-- Runs that are pushed on top of some touch none but the latest of these. -/
theorem foldl_push_append (pushed : List Run) (latest : Run) (runs before : List Run) :
    pushed.foldl push (latest :: runs ++ before) =
      pushed.foldl push (latest :: runs) ++ before := by
  induction pushed generalizing latest runs with
  | nil => rfl
  | cons next rest ih =>
    rw [List.foldl_cons, List.foldl_cons, List.cons_append, push, push]
    split
    · exact ih _ runs
    · exact ih next (latest :: runs)

/-- Pushing goes through runs as splitting them into groups does: the latest stored run is that of
the group that is not complete yet. -/
theorem gathers_loop (pushed : List Run) {last stored : Run} {group before : List Run}
    {done : List (List Run)} (gathers : Gathers (group.reverse ++ [last]) stored)
    (others : List.Forall₂ Gathers done before) :
    List.Forall₂ Gathers (List.splitBy.loop isContinuedBy pushed last group done)
      (pushed.foldl push (stored :: before)).reverse := by
  -- `last` is the run that was pushed last, `stored` the run that it has become a part of
  induction pushed generalizing last stored group before done with
  | nil =>
    rw [List.splitBy.loop, List.foldl_nil, List.forall₂_reverse_iff, List.reverse_cons]
    exact .cons gathers others
  | cons next rest ih =>
    have same := gathers.isContinuedBy_eq List.getLast?_concat next
    rw [List.splitBy.loop, List.foldl_cons, push, same]
    cases continued : last.isContinuedBy next with
    | true =>
      rw [if_pos rfl]
      refine ih ?_ others
      rw [List.reverse_cons]
      exact gathers.more (same.trans continued)
    | false =>
      rw [if_neg Bool.false_ne_true]
      refine ih (.one next) (.cons ?_ others)
      rwa [List.reverse_cons]

/-- The groups that runs fall into when `pushed` is pushed onto `runs`, which has the latest first:
only the latest of these can get into a group with pushed runs. -/
def groups : (runs pushed : List Run) → List (List Run)
  | [], pushed => pushed.splitBy isContinuedBy
  | latest :: before, pushed =>
    before.reverse.map (fun run => [run]) ++ (latest :: pushed).splitBy isContinuedBy

theorem flatten_groups (runs pushed : List Run) :
    (groups runs pushed).flatten = runs.reverse ++ pushed := by
  cases runs with
  | nil => exact List.flatten_splitBy ..
  | cons latest before =>
    rw [groups, List.flatten_append, List.flatten_splitBy, ← List.flatMap_def,
      List.flatMap_singleton', List.reverse_cons, List.append_assoc, List.singleton_append]

/-- Runs are stored one for each group. -/
theorem gathers_groups (runs pushed : List Run) :
    List.Forall₂ Gathers (groups runs pushed) (pushed.foldl push runs).reverse := by
  cases runs with
  | nil =>
    cases pushed with
    | nil => exact .nil
    | cons first rest => exact gathers_loop rest (.one first) .nil
  | cons latest before =>
    have alone : List.Forall₂ Gathers (before.reverse.map fun run => [run]) before.reverse := by
      rw [List.forall₂_map_left_iff, List.forall₂_same]
      exact fun run _ => .one run
    have above := foldl_push_append pushed latest [] before
    rw [List.singleton_append] at above
    rw [groups, above, List.reverse_append]
    exact List.rel_append alone (gathers_loop pushed (.one latest) .nil)

/-- Only packed runs of one chunk, of one segment, stride and byte order, share a group. -/
theorem joinable_of_mem_groups {runs pushed group : List Run}
    (listed : group ∈ groups runs pushed) : group.Pairwise Joinable := by
  have split : ∀ runs : List Run, group ∈ runs.splitBy isContinuedBy → group.Pairwise Joinable := by
    intro runs among
    have chain := List.isChain_of_mem_splitBy among
    exact (chain.imp fun _ _ continued => (isContinuedBy_iff.1 continued).1).pairwise
  cases runs with
  | nil => exact split pushed listed
  | cons latest before =>
    rcases List.mem_append.1 listed with kept | among
    · rcases List.mem_map.1 kept with ⟨run, -, rfl⟩
      exact List.pairwise_singleton ..
    · exact split _ among

theorem exists_stride_eq_of_mem {groups : List (List Run)} {runs : List Run}
    (gathers : List.Forall₂ Gathers groups runs) {stored : Run} (held : stored ∈ runs) :
    ∃ run ∈ groups.flatten, stored.stride = run.stride := by
  induction gathers with
  | nil => cases held
  | cons one _ ih =>
    rw [List.flatten_cons]
    rcases List.mem_cons.1 held with rfl | later
    · rcases one.exists_stride_eq with ⟨run, listed, same⟩
      exact ⟨run, List.mem_append_left _ listed, same⟩
    · rcases ih later with ⟨run, listed, same⟩
      exact ⟨run, List.mem_append_right _ listed, same⟩

theorem positions_of_gathers {groups : List (List Run)} {runs : List Run}
    (gathers : List.Forall₂ Gathers groups runs) :
    runs.flatMap positions = groups.flatten.flatMap positions := by
  induction gathers with
  | nil => rfl
  | cons one _ ih =>
    rw [List.flatMap_cons, List.flatten_cons, List.flatMap_append, one.positions_eq, ih]

/-! ## Runs of 64-bit numbers -/

theorem isPacked_of_checked {run : Run} {packed : Bool}
    (found : run.checkedPacked = some packed) : run.isPacked = packed := by
  unfold checkedPacked at found
  split at found
  · rename_i unspaced
    cases found
    rw [isPacked, unspaced]
    rfl
  · rename_i spaced
    rcases Option.bind_eq_some_iff.1 found with ⟨bytes, fits, rest⟩
    obtain ⟨-, rfl⟩ := word?_eq_some_iff.1 fits
    cases rest
    rw [isPacked, bne_iff_ne.2 spaced, Bool.true_and]

theorem isContinuedBy_of_checked {run next : Run} {continued : Bool}
    (found : run.checkedContinued next = some continued) :
    run.isContinuedBy next = continued := by
  unfold checkedContinued at found
  split at found
  · rename_i alike
    rcases Option.bind_eq_some_iff.1 found with ⟨stop, fits, adjacent⟩
    obtain ⟨-, rfl⟩ := word?_eq_some_iff.1 fits
    rcases alike with ⟨segment, stride, order, one, other⟩
    split at adjacent
    · rename_i meets
      rcases Option.bind_eq_some_iff.1 adjacent with ⟨packed, first, second⟩
      have same := isPacked_of_checked first
      cases packed with
      | true =>
        have also := isPacked_of_checked (second : next.checkedPacked = _)
        simp [isContinuedBy, segment, stride, order, one, other, meets, same, also]
      | false =>
        cases second
        simp [isContinuedBy, same]
    · rename_i apart
      cases adjacent
      simp [isContinuedBy, apart]
  · rename_i different
    cases found
    rw [Bool.eq_false_iff]
    intro continues
    have joinable := (isContinuedBy_iff.1 continues).1
    exact different ⟨joinable.segment_eq, joinable.stride_eq, joinable.order_eq,
      joinable.single.1, joinable.single.2⟩

theorem push_of_checked {runs after : List Run} {next : Run}
    (found : checkedPush runs next = some after) : push runs next = after := by
  cases runs with
  | nil => exact Option.some.inj found
  | cons latest before =>
    rcases Option.bind_eq_some_iff.1 found with ⟨continued, first, second⟩
    rw [push, isContinuedBy_of_checked first]
    cases continued with
    | true =>
      rcases Option.bind_eq_some_iff.1 second with ⟨merged, third, rest⟩
      rcases Option.bind_eq_some_iff.1 third with ⟨length, fits, fourth⟩
      rcases Option.bind_eq_some_iff.1 fourth with ⟨count, also, last⟩
      obtain ⟨-, rfl⟩ := word?_eq_some_iff.1 fits
      obtain ⟨-, rfl⟩ := word?_eq_some_iff.1 also
      cases last
      exact Option.some.inj rest
    | false => exact Option.some.inj second

end Run

/-! ## Channels -/

namespace Channel

/-- Everything but the runs of a channel and their count is left as it was. -/
theorem foldl_push_eq (channel : Channel) (pushed : List Run) :
    pushed.foldl push channel =
      { channel with
        latestRuns := pushed.foldl Run.push channel.latestRuns
        sampleCount := channel.sampleCount + (pushed.map Run.totalSamples).sum } := by
  induction pushed generalizing channel with
  | nil => rfl
  | cons run rest ih =>
    rw [List.foldl_cons, ih, push, List.map_cons, List.sum_cons, Nat.add_assoc]
    rfl

/-- What becomes of a channel onto which runs are pushed. -/
structure Coalesces (channel : Channel) (pushed : List Run) (after : Channel) : Prop where
  positions_eq : after.runs.flatMap Run.positions =
    channel.runs.flatMap Run.positions ++ pushed.flatMap Run.positions
  count_eq : after.sampleCount = channel.sampleCount + (pushed.map Run.totalSamples).sum
  /-- Every run of the channel and every pushed one is in a group, and they keep their order. -/
  grouped : (Run.groups channel.latestRuns pushed).flatten = channel.runs ++ pushed
  stored : List.Forall₂ Run.Gathers (Run.groups channel.latestRuns pushed) after.runs
  joinable : ∀ group ∈ Run.groups channel.latestRuns pushed, group.Pairwise Run.Joinable
  /-- What is decoded stays the same, if all runs of strings have blocks. -/
  pieces_eq : ∀ type : ScalarType,
    (type = .string → ∀ run ∈ channel.runs ++ pushed, run.stride = 0) →
      after.runs.flatMap (Run.pieces type) = (channel.runs ++ pushed).flatMap (Run.pieces type)

theorem push_of_checked {channel after : Channel} {run : Run}
    (found : channel.checkedPush run = some after) : channel.push run = after := by
  rcases Option.bind_eq_some_iff.1 found with ⟨total, counted, second⟩
  rcases Option.bind_eq_some_iff.1 second with ⟨sampleCount, fits, third⟩
  rcases Option.bind_eq_some_iff.1 third with ⟨runs, pushed, rest⟩
  rcases word?_eq_some_iff.1 counted with ⟨small, rfl⟩
  obtain ⟨-, rfl⟩ := word?_eq_some_iff.1 fits
  cases rest
  rw [push, Run.push_of_checked pushed, Layout.totalSamples_of_lt small]

theorem foldl_push_of_checked {channel after : Channel} {pushed : List Run}
    (found : pushed.foldlM checkedPush channel = some after) :
    pushed.foldl push channel = after := by
  induction pushed generalizing channel with
  | nil => exact Option.some.inj found
  | cons run rest ih =>
    rw [List.foldlM_cons] at found
    rcases Option.bind_eq_some_iff.1 found with ⟨next, first, later⟩
    rw [List.foldl_cons, push_of_checked first, ih later]

theorem runs_foldl_push_eq (channel : Channel) (pushed : List Run) :
    (pushed.foldl push channel).runs = (pushed.foldl Run.push channel.latestRuns).reverse := by
  rw [foldl_push_eq, runs]

theorem positions_foldl_push (channel : Channel) (pushed : List Run) :
    (pushed.foldl push channel).runs.flatMap Run.positions =
      (channel.runs ++ pushed).flatMap Run.positions := by
  rw [runs_foldl_push_eq, Run.positions_of_gathers (Run.gathers_groups ..), Run.flatten_groups]
  rfl

/-- Runs of strings stay in blocks, so that positions tell what is decoded before and after. -/
theorem pieces_foldl_push {channel : Channel} {pushed : List Run} {type : ScalarType}
    (blocks : type = .string → ∀ run ∈ channel.runs ++ pushed, run.stride = 0) :
    (pushed.foldl push channel).runs.flatMap (Run.pieces type) =
      (channel.runs ++ pushed).flatMap (Run.pieces type) := by
  have decoded : ∀ runs : List Run, (type = .string → ∀ run ∈ runs, run.stride = 0) →
      runs.flatMap (Run.pieces type) =
        (runs.flatMap Run.positions).flatMap (Run.Position.pieces type) := by
    intro runs unspaced
    rw [List.flatMap_assoc]
    exact List.flatMap_congr fun run listed =>
      Run.pieces_eq_flatMap_positions fun string => unspaced string run listed
  rw [decoded _ blocks, decoded, positions_foldl_push]
  intro string stored held
  rw [runs_foldl_push_eq] at held
  rcases Run.exists_stride_eq_of_mem (Run.gathers_groups ..) held with ⟨run, listed, same⟩
  rw [Run.flatten_groups] at listed
  rw [same, blocks string run listed]

theorem coalesces_foldl_push (channel : Channel) (pushed : List Run) :
    channel.Coalesces pushed (pushed.foldl push channel) where
  positions_eq := by rw [positions_foldl_push, List.flatMap_append]
  count_eq := by rw [foldl_push_eq]
  grouped := Run.flatten_groups ..
  stored := by
    rw [runs_foldl_push_eq]
    exact Run.gathers_groups ..
  joinable _ := Run.joinable_of_mem_groups
  pieces_eq _ := pieces_foldl_push

/-- Whatever runs are pushed onto a channel, it keeps its positions and gains theirs, in order, and
counts their samples. -/
theorem coalesces (channel : Channel) (pushed : List Run) :
    channel.Coalesces pushed (pushed.foldl push channel) ∧
      ∀ after, pushed.foldlM checkedPush channel = some after → channel.Coalesces pushed after := by
  have plain := coalesces_foldl_push channel pushed
  refine ⟨plain, fun after found => ?_⟩
  rwa [foldl_push_of_checked found] at plain

/-- Runs that follow each other without a gap: six samples in two runs, one more of the other byte
order, and two blocks of strings. -/
def sampleRuns : List Run :=
  [⟨0, 100, 16, 4, 4, 1, 16, .little⟩, ⟨0, 116, 8, 4, 2, 1, 8, .little⟩,
    ⟨0, 124, 4, 4, 1, 1, 4, .big⟩, ⟨0, 128, 10, 0, 2, 1, 10, .big⟩, ⟨0, 138, 10, 0, 2, 1, 10, .big⟩]

theorem coalesces_sampleRuns :
    ∃ after, sampleRuns.foldlM checkedPush (named "g" "c") = some after ∧
      after.runs.length = 4 ∧ (named "g" "c").Coalesces sampleRuns after := by
  have pushed : sampleRuns.foldlM checkedPush (named "g" "c") = some
      { named "g" "c" with
        latestRuns := [⟨0, 138, 10, 0, 2, 1, 10, .big⟩, ⟨0, 128, 10, 0, 2, 1, 10, .big⟩,
          ⟨0, 124, 4, 4, 1, 1, 4, .big⟩, ⟨0, 100, 24, 4, 6, 1, 24, .little⟩]
        sampleCount := 11 } := by decide
  exact ⟨_, pushed, rfl, (coalesces (named "g" "c") sampleRuns).2 _ pushed⟩

/-- Only the first two of them share a group. -/
example : (Run.groups [] sampleRuns).map List.length = [2, 1, 1, 1] := by decide

end Channel

end Tdms
