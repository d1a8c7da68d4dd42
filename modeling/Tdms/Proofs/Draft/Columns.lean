import Mathlib
import Tdms.Proofs.Draft.Accepted
import Tdms.Proofs.Reading

/-!
The values of drafts are decoded from the raw data that they are written as.

`map_range_row` reads items of one width off a row of them, whether they are
end offsets, samples or whole rounds. `collect_drafts` states that the blocks
of an object decode as all values that the drafts write for it.
-/

namespace Tdms

open Walk (Memory Share Stage Block)

variable {content : ByteArray} {before after : List UInt8} {order : ByteOrder}

/-- Items of one width that follow each other are read one after another. -/
theorem map_range_row {α β : Type} {spell : α → List UInt8} {width : Nat} {items : List α}
    (read : Nat → β) (mean : α → β) (sized : ∀ item ∈ items, (spell item).length = width)
    (reads : ∀ item ∈ items, ∀ early late : List UInt8,
      content.data.toList = early ++ (spell item ++ late) → read early.length = mean item)
    (whole : content.data.toList = before ++ (items.flatMap spell ++ after)) :
    (List.range items.length).map (fun turn => read (before.length + turn * width)) =
      items.map mean := by
  induction items generalizing before with
  | nil => rfl
  | cons item rest ih =>
    rcases List.forall_mem_cons.1 sized with ⟨size, sizes⟩
    rcases List.forall_mem_cons.1 reads with ⟨first, others⟩
    rw [List.flatMap_cons, List.append_assoc] at whole
    -- The bytes of the first item join those before the row, so that the rest is a row again.
    have parts : content.data.toList = (before ++ spell item) ++ (rest.flatMap spell ++ after) := by
      rw [whole, List.append_assoc]
    have later := ih sizes others parts
    rw [List.length_append, size] at later
    rw [List.length_cons, List.range_succ_eq_map, List.map_cons, List.map_map, List.map_cons,
      Nat.zero_mul, Nat.add_zero, first before _ whole, ← later]
    congr 1
    apply List.map_congr_left
    intro turn _
    rw [Function.comp, Nat.succ_mul, Nat.add_comm (turn * width), Nat.add_assoc]

namespace Draft

/-! ## Strings -/

/-- Where texts end, the first of which starts at `start`. -/
def stops : (start : Nat) → List String → List Nat
  | _, [] => []
  | start, text :: rest =>
    (start + (Utf8.encode text).length) :: stops (start + (Utf8.encode text).length) rest

theorem stopBytes_eq (order : ByteOrder) (start : Nat) (texts : List String) :
    stopBytes order start texts = (stops start texts).flatMap (order.bytes 4) := by
  induction texts generalizing start with
  | nil => rfl
  | cons text rest ih => rw [stopBytes, stops, List.flatMap_cons, ih]

theorem length_stops (start : Nat) (texts : List String) :
    (stops start texts).length = texts.length := by
  induction texts generalizing start with
  | nil => rfl
  | cons text rest ih => rw [stops, List.length_cons, List.length_cons, ih]

theorem length_stopBytes (order : ByteOrder) (start : Nat) (texts : List String) :
    (stopBytes order start texts).length = 4 * texts.length := by
  induction texts generalizing start with
  | nil => rfl
  | cons text rest ih =>
    rw [stopBytes, List.length_append, order.length_bytes, ih, List.length_cons, Nat.mul_succ,
      Nat.add_comm]

theorem stops_le {start stop : Nat} {texts : List String} (listed : stop ∈ stops start texts) :
    stop ≤ start + (texts.flatMap Utf8.encode).length := by
  induction texts generalizing start with
  | nil => cases listed
  | cons text rest ih =>
    rw [List.flatMap_cons, List.length_append]
    rcases List.mem_cons.1 listed with here | later
    · omega
    · have inside := ih later
      omega

/-- Texts are cut where they end. -/
theorem cut_stops {texts : List String}
    (whole : content.data.toList = before ++ (texts.flatMap Utf8.encode ++ after)) :
    Samples.cut content before.length (stops before.length texts) = .ok texts := by
  induction texts generalizing before with
  | nil => rfl
  | cons text rest ih =>
    rw [List.flatMap_cons, List.append_assoc] at whole
    have parts : content.data.toList =
        (before ++ Utf8.encode text) ++ (rest.flatMap Utf8.encode ++ after) := by
      rw [whole, List.append_assoc]
    have later := ih parts
    have size := size_of_toList parts
    have taken : (content.extract before.length
        (before.length + (Utf8.encode text).length)).data.toList = Utf8.encode text :=
      window_of_append whole rfl rfl
    rw [List.length_append] at later
    rw [List.length_append, List.length_append] at size
    rw [stops, Samples.cut, if_pos ⟨Nat.le_add_right _ _, by omega⟩, taken, Utf8.decode_encode,
      later]
    rfl

/-- A chunk of strings is read back. -/
theorem decodeStrings_cellBytes {texts : List String}
    (short : (texts.flatMap Utf8.encode).length < UInt32.size)
    (whole : content.data.toList = cellBytes order .string texts ++ after) :
    Samples.decodeStrings order texts.length content = .ok texts := by
  rw [cellBytes, List.append_assoc] at whole
  have size := size_of_toList whole
  rw [List.length_append, length_stopBytes] at size
  have ends : Samples.endOffsets order texts.length content = stops 0 texts := by
    have table : content.data.toList = [] ++ ((stops 0 texts).flatMap (order.bytes 4) ++
        (texts.flatMap Utf8.encode ++ after)) := by
      rw [whole, stopBytes_eq, List.nil_append]
    have reads : ∀ stop ∈ stops 0 texts, ∀ early late : List UInt8,
        content.data.toList = early ++ (order.bytes 4 stop ++ late) →
          order.value (window content early.length 4).data.toList = id stop := by
      intro stop listed early late parts
      have fits : stop < 256 ^ 4 := by
        have bound := stops_le listed
        rw [Nat.zero_add] at bound
        exact bound.trans_lt short
      rw [window_of_append parts rfl (order.length_bytes 4 stop), order.value_bytes fits, id]
    have row := map_range_row (fun place => order.value (window content place 4).data.toList) id
      (fun stop _ => order.length_bytes 4 stop) reads table
    rw [List.map_id, length_stops, List.length_nil] at row
    rw [← row, Samples.endOffsets]
    apply List.map_congr_left
    intro entry _
    rw [Nat.zero_add, Nat.mul_comm]
  have text : (content.extract (4 * texts.length) content.size).data.toList =
      [] ++ (texts.flatMap Utf8.encode ++ after) := by
    rw [ByteArray.data_extract, Array.toList_extract, List.extract_eq_take_drop, whole,
      List.drop_left' (length_stopBytes order 0 texts), List.nil_append, List.take_of_length_le]
    omega
  rw [Samples.decodeStrings, if_pos (by omega), ends]
  exact cut_stops text

end Draft

/-! ## Columns -/

namespace Draft

variable {share : Share} {column : Column}

theorem cellBytes_of_width {type : ScalarType} {width : Nat} (fixed : type.width? = some width)
    (order : ByteOrder) (values : List type.Value) :
    cellBytes order type values = values.flatMap (type.toCell order) := by
  cases type with
  | string => cases fixed
  | _ => rfl

/-- Samples of a fixed width are read back. -/
theorem map_sample {type : ScalarType} {width : Nat} (fixed : type.width? = some width)
    {values : List type.Value}
    (whole : content.data.toList = before ++ (values.flatMap (type.toCell order) ++ after))
    (length : Nat) :
    (Piece.row type order before.length length width values.length).map
      (Piece.sample content type) = values := by
  have reads : ∀ value ∈ values, ∀ early late : List UInt8,
      content.data.toList = early ++ (type.toCell order value ++ late) →
        Piece.sample content type ⟨early.length, width, 1, order⟩ = id value := by
    intro value _ early late parts
    have cell := window_of_append parts rfl (ScalarType.length_toCell fixed order value)
    rw [Piece.sample, cell, ScalarType.ofCell_toCell fixed, id]
  have row := map_range_row (fun place => Piece.sample content type ⟨place, width, 1, order⟩) id
    (fun value _ => ScalarType.length_toCell fixed order value) reads whole
  rw [List.map_id] at row
  rw [Piece.row_of_width fixed, List.map_map]
  exact row

/-- The values of a column are decoded from the block of its owner. -/
theorem decode_column (fills : column.Fills order share)
    (short : column.textLength < UInt32.size)
    (whole : content.data.toList = before ++ (column.bytes order ++ after)) :
    Block.decode content ⟨share, before.length, order⟩ = .ok column.scalars := by
  rcases fills with ⟨sameType, counted, sized⟩
  rcases column with ⟨type, values, padding⟩
  rcases share with ⟨path, shareType, count, size⟩
  dsimp only at sameType counted
  subst sameType counted
  cases fixed : type.width? with
  | none =>
    rcases ScalarType.width?_eq_none_iff.1 fixed with rfl
    have chunk : (window content before.length size).data.toList =
        cellBytes order .string values ++ padding := window_of_append whole rfl sized
    rw [decode_of_string rfl, Block.pieces_of_string rfl, Outcome.collect_singleton, Piece.texts,
      decodeStrings_cellBytes short chunk]
    rfl
  | some width =>
    rw [Column.bytes, cellBytes_of_width fixed, List.append_assoc] at whole
    have samples := map_sample fixed whole size
    rw [← (ScalarType.width_of_width? fixed).1] at samples
    have parts : Block.pieces ⟨⟨path, type, values.length, size⟩, before.length, order⟩ =
        Piece.row type order before.length size type.width values.length := rfl
    rw [decode_of_width fixed, parts]
    refine congrArg Except.ok ?_
    conv_rhs => rw [Column.scalars, ← samples, List.map_map]
    rfl

/-- The columns of a round are decoded from the blocks of their owners. -/
theorem collect_round {shares : List Share} {round : List Column}
    (filled : List.Forall₂ (Column.Fills order) shares round)
    (short : ∀ column ∈ round, column.textLength < UInt32.size)
    (whole : content.data.toList = before ++ (round.flatMap (Column.bytes order) ++ after))
    (path : ObjectPath) :
    Outcome.collect (Block.decode content)
        ((Walk.round order before.length shares).filter fun block => block.path = path) =
      .ok (writtenIn path shares round) := by
  induction filled generalizing before with
  | nil => rfl
  | cons fills _ ih =>
    rename_i share column shares round _
    rcases List.forall_mem_cons.1 short with ⟨first, others⟩
    rw [List.flatMap_cons, List.append_assoc] at whole
    have parts : content.data.toList =
        (before ++ column.bytes order) ++ (round.flatMap (Column.bytes order) ++ after) := by
      rw [whole, List.append_assoc]
    have later := ih others parts
    rw [List.length_append, fills.size] at later
    have decoded := decode_column fills first whole
    rw [Walk.round, writtenIn, List.zip_cons_cons, List.flatMap_cons, List.filter_cons]
    dsimp only
    by_cases here : share.path = path
    · rw [if_pos here, if_pos (decide_eq_true here), Outcome.collect, decoded, later]
      rfl
    · rw [if_neg here, if_neg (by simpa using here), List.nil_append, later]
      rfl

/-! ## Drafts -/

variable {draft : Draft} {memory : Memory}

/-- A column without bytes has no values. -/
theorem values_of_empty (empty : column.bytes order = []) : column.values = [] := by
  rcases column with ⟨type, values, padding⟩
  rw [Column.bytes, List.append_eq_nil_iff] at empty
  rcases empty with ⟨cells, -⟩
  cases values with
  | nil => rfl
  | cons value rest =>
    have lengths := congrArg List.length cells
    cases fixed : type.width? with
    | none =>
      rcases ScalarType.width?_eq_none_iff.1 fixed with rfl
      rw [cellBytes, List.length_append, length_stopBytes, List.length_cons, List.length_nil]
        at lengths
      omega
    | some width =>
      have positive := (ScalarType.width_of_width? fixed).2
      rw [cellBytes_of_width fixed, List.flatMap_cons, List.length_append,
        ScalarType.length_toCell fixed, List.length_nil] at lengths
      omega

/-- A round without bytes has no values. -/
theorem scalars_of_roundSize {shares : List Share} {round : List Column}
    (filled : List.Forall₂ (Column.Fills order) shares round)
    (empty : Walk.roundSize shares = 0) (path : ObjectPath) :
    writtenIn path shares round = [] := by
  induction filled with
  | nil => rfl
  | cons fills _ ih =>
    rename_i share column shares round _
    rw [Walk.roundSize, List.map_cons, List.sum_cons, Nat.add_eq_zero_iff] at empty
    have none : column.scalars = [] := by
      have size := fills.size
      rw [empty.1, List.length_eq_zero_iff] at size
      rw [Column.scalars, values_of_empty size, List.map_nil]
    have others := ih empty.2
    unfold writtenIn at others
    rw [writtenIn, List.zip_cons_cons, List.flatMap_cons, others]
    dsimp only
    rw [none, ite_self]
    rfl

/-- The values of a draft are decoded from the blocks of its segment. -/
theorem collect_blocks (fits : draft.Fits memory) (encodable : draft.Encodable)
    (whole : content.data.toList = before ++ (draft.bytes ++ after)) (ordinal : Nat)
    (path : ObjectPath) :
    Outcome.collect (Block.decode content)
        ((Stage.blocks ⟨draft.segmentAt ordinal before.length, (draft.enter memory).owners⟩).filter
          fun block => block.path = path) =
      .ok (draft.written path memory) := by
  have length := length_dataBytes fits
  have shares : Stage.shares ⟨draft.segmentAt ordinal before.length,
      (draft.enter memory).owners⟩ = draft.shares memory := rfl
  have dataLength : (draft.segmentAt ordinal before.length).dataLength =
      draft.dataBytes.length := rfl
  -- The number of rounds is found by division, which loses all rounds that take no bytes. They
  -- hold no values.
  rcases Nat.eq_zero_or_pos (Walk.roundSize (draft.shares memory)) with empty | some
  · have rounds : Stage.rounds ⟨draft.segmentAt ordinal before.length,
        (draft.enter memory).owners⟩ = 0 := by
      rw [Stage.rounds, shares, empty, Nat.div_zero]
    have none : draft.written path memory = [] := by
      rw [written, List.flatMap_eq_nil_iff]
      intro round listed
      exact scalars_of_roundSize (fits.filled round listed) empty path
    rw [Stage.blocks, rounds, none]
    rfl
  · have rounds : Stage.rounds ⟨draft.segmentAt ordinal before.length,
        (draft.enter memory).owners⟩ = draft.rounds.length := by
      rw [Stage.rounds, shares, dataLength, length, Nat.mul_div_cancel _ some]
    have parts : content.data.toList =
        (before ++ draft.leadIn.encode ++ draft.metadataBytes) ++
          (draft.rounds.flatMap (fun round => round.flatMap (Column.bytes draft.order)) ++
            after) := by
      rw [whole, bytes, dataBytes]
      simp only [List.append_assoc]
    have row := map_range_row
      (fun place => Outcome.collect (Block.decode content)
        ((Walk.round draft.order place (draft.shares memory)).filter
          fun block => block.path = path))
      (fun round => .ok (writtenIn path (draft.shares memory) round))
      (fun round listed => length_round (fits.filled round listed))
      (fun round listed early late there => collect_round (fits.filled round listed)
        (encodable.shortChunks round listed) there path)
      parts
    rw [List.length_append, List.length_append, LeadIn.length_encode] at row
    rw [Stage.blocks, rounds, List.filter_flatMap, Outcome.collect_flatMap]
    exact (Outcome.collect_map_eq row).trans (Outcome.collect_of_ok fun _ _ => rfl)

/-- The blocks of an object decode as all values that drafts write for it. -/
theorem collect_drafts {drafts : List Draft} (fits : FitsAll memory drafts)
    (encodable : ∀ draft ∈ drafts, draft.Encodable)
    (whole : content.data.toList = before ++ drafts.flatMap bytes) (ordinal : Nat)
    (path : ObjectPath) :
    Outcome.collect (Block.decode content)
        (((Walk.stages memory (segmentsFrom ordinal before.length drafts)).flatMap
          Stage.blocks).filter fun block => block.path = path) =
      .ok (allWritten path memory drafts) := by
  induction drafts generalizing memory before ordinal with
  | nil => rfl
  | cons draft rest ih =>
    rcases fits with ⟨first, others⟩
    rcases List.forall_mem_cons.1 encodable with ⟨encodes, encodeRest⟩
    rw [List.flatMap_cons] at whole
    have parts : content.data.toList = (before ++ draft.bytes) ++ rest.flatMap bytes := by
      rw [whole, List.append_assoc]
    have later := ih others encodeRest parts (ordinal + 1)
    rw [List.length_append] at later
    rw [segmentsFrom, Walk.stages, enter_segmentAt first encodes, List.flatMap_cons,
      List.filter_append, Outcome.collect_append, collect_blocks first encodes whole ordinal path,
      later]
    rfl

end Draft

end Tdms
