import Mathlib
import Tdms.Proofs.Draft.Columns

/-!
Chunks of strings, decoded exactly.

A chunk is a table of end offsets and the text behind it. `Cuts` says what the
two must be like for the chunk to hold as many strings as it claims, `Holds`
which strings those are, and `Blames` what is wrong with a chunk that does not
cut. `Channel.addStrings_cuts` states that the strings of a chunk are added
exactly if it cuts, and what is reported of it otherwise.
-/

namespace Tdms

namespace Samples

variable {order : ByteOrder} {count start : Nat} {chunk text : ByteArray} {stops : List Nat}
  {strings : List String}

/-! ## Spans -/

/-- Where strings start and end, each where the one before it ends and the first at `start`. -/
def spans (start : Nat) (stops : List Nat) : List (Nat × Nat) :=
  (start :: stops).zip stops

/-- The bytes of a span. -/
def spanBytes (text : ByteArray) (span : Nat × Nat) : List UInt8 :=
  (text.extract span.1 span.2).data.toList

/-- A span that does not end before it starts, nor after the text. -/
def InText (text : ByteArray) (span : Nat × Nat) : Prop :=
  span.1 ≤ span.2 ∧ span.2 ≤ text.size

theorem spans_cons (start stop : Nat) (rest : List Nat) :
    spans start (stop :: rest) = (start, stop) :: spans stop rest :=
  rfl

theorem length_spans (start : Nat) (stops : List Nat) :
    (spans start stops).length = stops.length := by
  simp [spans]

/-- All spans lie in the text if the ends are in order and lie there. -/
theorem inText_iff :
    (∀ span ∈ spans start stops, InText text span) ↔
      (start :: stops).Pairwise (· ≤ ·) ∧ ∀ stop ∈ stops, stop ≤ text.size := by
  rw [← List.isChain_iff_pairwise]
  induction stops generalizing start with
  | nil => simp [spans]
  | cons stop rest ih =>
    rw [spans_cons, List.forall_mem_cons, ih, List.isChain_cons_cons, List.forall_mem_cons, InText]
    exact and_and_and_comm

/-- Spans that follow each other join to the bytes from the first start to the last end. -/
theorem flatten_spanBytes (ordered : (start :: stops).Pairwise (· ≤ ·)) :
    ((spans start stops).map (spanBytes text)).flatten =
      spanBytes text (start, stops.getLastD start) := by
  induction stops generalizing start with
  | nil => simp [spans, spanBytes]
  | cons stop rest ih =>
    rcases List.pairwise_cons.1 ordered with ⟨first, later⟩
    have last : stop ≤ rest.getLastD stop := by
      have listed : rest.getLastD stop ∈ stop :: rest := List.getLastD_mem_cons
      rcases List.mem_cons.1 listed with same | member
      · exact same.ge
      · exact (List.pairwise_cons.1 later).1 _ member
    have joined : spanBytes text (start, stop) ++ spanBytes text (stop, rest.getLastD stop) =
        spanBytes text (start, rest.getLastD stop) := by
      simp only [spanBytes, ← toList_append, ByteArray.extract_append_extract]
      rw [Nat.min_eq_left (first stop List.mem_cons_self), Nat.max_eq_right last]
    rw [spans_cons, List.map_cons, List.flatten_cons, ih later, joined, List.getLastD_cons]

/-! ## Cutting -/

theorem isValidUTF8_iff {bytes : ByteArray} :
    bytes.IsValidUTF8 ↔ ∃ string, Utf8.encode string = bytes.data.toList := by
  constructor
  · intro valid
    exact ⟨.ofByteArray bytes valid, rfl⟩
  · rintro ⟨string, spelled⟩
    have same : string.toByteArray = bytes := eq_of_toList spelled
    exact same ▸ string.isValidUTF8

/-- Cutting a text gives the strings that its spans spell, if all of them lie in the text. -/
theorem cut_eq_ok_iff :
    cut text start stops = .ok strings ↔
      (∀ span ∈ spans start stops, InText text span) ∧
        strings.map Utf8.encode = (spans start stops).map (spanBytes text) := by
  induction stops generalizing start strings with
  | nil => simp [cut, spans, eq_comm]
  | cons stop rest ih =>
    rw [cut, spans_cons, List.forall_mem_cons, List.map_cons, InText]
    dsimp only
    split
    · rename_i inside
      cases decoded : Utf8.decode (text.extract start stop).data.toList with
      | error fault =>
        simp only [reduceCtorEq, false_iff, not_and, List.map_eq_cons_iff]
        rintro - ⟨first, later, -, spelled, -⟩
        have read : Utf8.decode (text.extract start stop).data.toList = .ok first :=
          Utf8.decode_eq_ok_iff.2 spelled.symm
        rw [decoded] at read
        cases read
      | ok first =>
        have spelled := Utf8.decode_eq_ok_iff.1 decoded
        rw [Outcome.map_eq_ok]
        constructor
        · rintro ⟨later, others, rfl⟩
          obtain ⟨inText, same⟩ := ih.1 others
          exact ⟨⟨inside, inText⟩, by rw [List.map_cons, same, ← spelled]; rfl⟩
        · rintro ⟨⟨-, inText⟩, same⟩
          obtain ⟨head, later, rfl, one, others⟩ := List.map_eq_cons_iff.1 same
          refine ⟨later, ih.2 ⟨inText, others⟩, ?_⟩
          have heads : Utf8.decode (Utf8.encode head) = .ok first :=
            one ▸ decoded
          rw [Utf8.decode_encode] at heads
          rw [Except.ok.inj heads]
    · rename_i outside
      simp [outside]

/-- The span is one of some spans, and all before it lie in the text and spell strings. -/
def Reached (text : ByteArray) (spans : List (Nat × Nat)) (span : Nat × Nat) : Prop :=
  ∃ before after, spans = before ++ span :: after ∧
    ∀ good ∈ before, InText text good ∧ (text.extract good.1 good.2).IsValidUTF8

theorem Reached.head (text : ByteArray) (span : Nat × Nat) (rest : List (Nat × Nat)) :
    Reached text (span :: rest) span :=
  ⟨[], rest, rfl, nofun⟩

theorem Reached.tail {first span : Nat × Nat} {rest : List (Nat × Nat)}
    (inside : InText text first) (valid : (text.extract first.1 first.2).IsValidUTF8)
    (reached : Reached text rest span) : Reached text (first :: rest) span := by
  obtain ⟨before, after, rfl, good⟩ := reached
  exact ⟨first :: before, after, rfl, List.forall_mem_cons.2 ⟨⟨inside, valid⟩, good⟩⟩

/-- A text that cannot be cut fails at its first bad span, for where that lies or for what it
spells. -/
theorem cut_eq_error {fault : DataFault} (failed : cut text start stops = .error fault) :
    ∃ span, Reached text (spans start stops) span ∧
      ((¬ InText text span ∧ fault = .stringBounds span.1 span.2) ∨
        (InText text span ∧ ∃ broken, Utf8.decode (spanBytes text span) = .error broken ∧
          fault = .text broken)) := by
  induction stops generalizing start with
  | nil => cases failed
  | cons stop rest ih =>
    rw [spans_cons]
    unfold cut at failed
    split at failed
    · rename_i inside
      split at failed
      · rename_i broken decoded
        cases failed
        exact ⟨(start, stop), .head _ _ _, .inr ⟨inside, broken, decoded, rfl⟩⟩
      · rename_i first decoded
        obtain ⟨span, reached, bad⟩ := ih (Outcome.map_eq_error.1 failed)
        have valid : (text.extract start stop).IsValidUTF8 :=
          isValidUTF8_iff.2 ⟨first, (Utf8.decode_eq_ok_iff.1 decoded).symm⟩
        exact ⟨span, reached.tail inside valid, bad⟩
    · rename_i outside
      cases failed
      exact ⟨(start, stop), .head _ _ _, .inl ⟨outside, rfl⟩⟩

/-! ## Chunks -/

/-- The bytes of a chunk behind the table of end offsets. -/
def chunkText (count : Nat) (chunk : ByteArray) : ByteArray :=
  chunk.extract (4 * count) chunk.size

/-- A chunk that can be cut into `count` strings. -/
structure Cuts (order : ByteOrder) (count : Nat) (chunk : ByteArray) : Prop where
  /-- The chunk has room for the table. -/
  table : 4 * count ≤ chunk.size
  ordered : (endOffsets order count chunk).Pairwise (· ≤ ·)
  inside : ∀ stop ∈ endOffsets order count chunk, stop ≤ (chunkText count chunk).size
  /-- What lies between two end offsets is UTF-8 on its own. -/
  valid : ∀ span ∈ spans 0 (endOffsets order count chunk),
    ((chunkText count chunk).extract span.1 span.2).IsValidUTF8

/-- The strings of a chunk: one for each end offset, from where the one before it ends. -/
structure Holds (order : ByteOrder) (count : Nat) (chunk : ByteArray) (strings : List String) :
    Prop where
  length_eq : strings.length = count
  encode_eq : strings.map Utf8.encode =
    (spans 0 (endOffsets order count chunk)).map (spanBytes (chunkText count chunk))
  /-- Together they are the text up to the last end offset. -/
  joined : strings.flatMap Utf8.encode =
    spanBytes (chunkText count chunk) (0, (endOffsets order count chunk).getLastD 0)

/-- What is wrong with a chunk that cannot be cut: its table, or the first string that ends before
it starts or behind the text or is not UTF-8. -/
inductive Blames (order : ByteOrder) (count : Nat) (chunk : ByteArray) : DataFault → Prop
  | table : chunk.size < 4 * count → Blames order count chunk (.offsetTable count)
  | bounds {span : Nat × Nat} : 4 * count ≤ chunk.size →
    Reached (chunkText count chunk) (spans 0 (endOffsets order count chunk)) span →
    ¬ InText (chunkText count chunk) span →
      Blames order count chunk (.stringBounds span.1 span.2)
  | text {span : Nat × Nat} {broken : Utf8.Fault} : 4 * count ≤ chunk.size →
    Reached (chunkText count chunk) (spans 0 (endOffsets order count chunk)) span →
    InText (chunkText count chunk) span →
    Utf8.decode (spanBytes (chunkText count chunk) span) = .error broken →
      Blames order count chunk (.text broken)

theorem length_endOffsets (order : ByteOrder) (count : Nat) (chunk : ByteArray) :
    (endOffsets order count chunk).length = count := by
  simp [endOffsets]

/-- The end offsets are what the table of a chunk spells, four bytes each. -/
theorem flatMap_endOffsets (order : ByteOrder) (room : 4 * count ≤ chunk.size) :
    (endOffsets order count chunk).flatMap (order.bytes 4) =
      chunk.data.toList.take (4 * count) := by
  induction count with
  | zero => rfl
  | succ count ih =>
    have entry : (window chunk (4 * count) 4).data.toList.length = 4 :=
      size_window (by omega)
    have spelled := order.bytes_value (window chunk (4 * count) 4).data.toList
    rw [entry, toList_window] at spelled
    rw [endOffsets] at ih ⊢
    rw [List.range_succ, List.map_append, List.flatMap_append, ih (by omega), List.map_singleton,
      List.flatMap_singleton, toList_window, spelled, Nat.mul_succ, List.take_add]

theorem Cuts.inText (cuts : Cuts order count chunk) :
    ∀ span ∈ spans 0 (endOffsets order count chunk), InText (chunkText count chunk) span :=
  inText_iff.2 ⟨List.pairwise_cons.2 ⟨fun _ _ => Nat.zero_le _, cuts.ordered⟩, cuts.inside⟩

/-- A chunk that cuts holds some strings. -/
theorem Cuts.exists_encode (cuts : Cuts order count chunk) :
    ∃ strings : List String, strings.map Utf8.encode =
      (spans 0 (endOffsets order count chunk)).map (spanBytes (chunkText count chunk)) := by
  have spelled : (spans 0 (endOffsets order count chunk)).map (spanBytes (chunkText count chunk)) ∈
      Set.range (List.map Utf8.encode) := by
    rw [Set.range_list_map]
    intro bytes listed
    obtain ⟨span, member, rfl⟩ := List.mem_map.1 listed
    exact isValidUTF8_iff.1 (cuts.valid span member)
  exact spelled

/-- Decoding a chunk gives exactly the strings that it holds. -/
theorem decodeStrings_eq_ok_iff :
    decodeStrings order count chunk = .ok strings ↔
      Cuts order count chunk ∧ Holds order count chunk strings := by
  rw [decodeStrings]
  split
  · rename_i room
    change cut (chunkText count chunk) 0 _ = _ ↔ _
    rw [cut_eq_ok_iff]
    constructor
    · rintro ⟨inText, same⟩
      obtain ⟨ordered, inside⟩ := inText_iff.1 inText
      have lengths := congrArg List.length same
      rw [List.length_map, List.length_map, length_spans, length_endOffsets] at lengths
      refine ⟨⟨room, (List.pairwise_cons.1 ordered).2, inside, fun span listed => ?_⟩,
        ⟨lengths, same, ?_⟩⟩
      · have spelled := List.mem_map_of_mem (f := spanBytes (chunkText count chunk)) listed
        rw [← same] at spelled
        obtain ⟨string, -, encoded⟩ := List.mem_map.1 spelled
        exact isValidUTF8_iff.2 ⟨string, encoded⟩
      · rw [List.flatMap_def, same, flatten_spanBytes ordered]
    · rintro ⟨cuts, holds⟩
      exact ⟨cuts.inText, holds.encode_eq⟩
  · rename_i cramped
    simp only [reduceCtorEq, false_iff, not_and]
    exact fun cuts => absurd cuts.table cramped

/-- A chunk is decoded exactly if it cuts. -/
theorem exists_decodeStrings_iff :
    (∃ strings, decodeStrings order count chunk = .ok strings) ↔ Cuts order count chunk := by
  constructor
  · rintro ⟨strings, decoded⟩
    exact (decodeStrings_eq_ok_iff.1 decoded).1
  · intro cuts
    obtain ⟨strings, same⟩ := cuts.exists_encode
    refine ⟨strings, ?_⟩
    rw [decodeStrings, if_pos cuts.table]
    exact cut_eq_ok_iff.2 ⟨cuts.inText, same⟩

/-- The fault that a chunk is refused for is the one to blame. -/
theorem blames_of_decodeStrings {fault : DataFault}
    (failed : decodeStrings order count chunk = .error fault) : Blames order count chunk fault := by
  rw [decodeStrings] at failed
  split at failed
  · rename_i room
    obtain ⟨span, reached, ⟨outside, rfl⟩ | ⟨inside, broken, decoded, rfl⟩⟩ := cut_eq_error failed
    · exact .bounds room reached outside
    · exact .text room reached inside decoded
  · rename_i cramped
    cases failed
    exact .table (Nat.lt_of_not_le cramped)

/-- A character that is cut in two is no string, although the whole text is UTF-8. -/
example : decodeStrings .little 2 ⟨#[1, 0, 0, 0, 2, 0, 0, 0, 195, 169]⟩ =
    .error (.text ⟨0, none⟩) := by
  decide +kernel

/-- A chunk is its table and the text behind it. -/
theorem table_append_chunkText (order : ByteOrder) (room : 4 * count ≤ chunk.size) :
    chunk.data.toList =
      (endOffsets order count chunk).flatMap (order.bytes 4) ++
        (chunkText count chunk).data.toList := by
  have rest : (chunkText count chunk).data.toList = chunk.data.toList.drop (4 * count) := by
    rw [chunkText, ByteArray.data_extract, Array.toList_extract, List.extract_eq_take_drop]
    exact List.take_of_length_le (by simp)
  rw [flatMap_endOffsets order room, rest, List.take_append_drop]

end Samples

/-! ## Adding the strings of a chunk -/

open Samples (Cuts Holds Blames endOffsets chunkText decodeStrings)

namespace Channel

variable {channel : Channel} {source : Source} {run : Run} {offset : Nat} {chunk : ByteArray}

theorem addStrings_of_read (read : source.read offset run.byteLength = .ok chunk)
    (found : Array String) :
    channel.addStrings source run found offset =
      ((decodeStrings run.order run.sampleCount chunk).map fun strings : List String =>
        found ++ strings).mapError (.corruptData channel.path offset) := by
  rw [addStrings, readBytes, read]
  dsimp only
  cases decodeStrings run.order run.sampleCount chunk with
  | error fault => rfl
  | ok strings => rfl

theorem addStrings_eq_ok_iff (read : source.read offset run.byteLength = .ok chunk)
    {found all : Array String} :
    channel.addStrings source run found offset = .ok all ↔
      ∃ strings, decodeStrings run.order run.sampleCount chunk = .ok strings ∧
        all = found ++ strings := by
  rw [addStrings_of_read read]
  cases decodeStrings run.order run.sampleCount chunk with
  | error fault => simp [Except.map, Except.mapError]
  | ok strings => simp [Except.map, Except.mapError, eq_comm]

theorem addStrings_eq_error (read : source.read offset run.byteLength = .ok chunk)
    {found : Array String} {error : Error}
    (failed : channel.addStrings source run found offset = .error error) :
    ∃ fault, error = .corruptData channel.path offset fault ∧
      decodeStrings run.order run.sampleCount chunk = .error fault := by
  rw [addStrings_of_read read] at failed
  cases decoded : decodeStrings run.order run.sampleCount chunk with
  | error fault =>
    rw [decoded] at failed
    cases failed
    exact ⟨fault, rfl, rfl⟩
  | ok strings =>
    rw [decoded] at failed
    cases failed

/-- Whatever the bytes of a chunk, its strings are added to those before it exactly if it cuts:
there is room for the table, the end offsets are in order and lie in the text, and what lies between
them is UTF-8 on its own. A chunk that does not cut is reported with its channel and its place, for
its table or its first bad string. A chunk that was written for some texts, with anything behind
them, gives back these texts. -/
theorem addStrings_cuts (read : source.read offset run.byteLength = .ok chunk)
    (found : Array String) :
    (4 * run.sampleCount ≤ chunk.size →
      (endOffsets run.order run.sampleCount chunk).length = run.sampleCount ∧
      chunk.data.toList =
        (endOffsets run.order run.sampleCount chunk).flatMap (run.order.bytes 4) ++
          (chunkText run.sampleCount chunk).data.toList) ∧
    ((∃ all, channel.addStrings source run found offset = .ok all) ↔
      Cuts run.order run.sampleCount chunk) ∧
    (∀ all, channel.addStrings source run found offset = .ok all →
      ∃ strings : List String, Holds run.order run.sampleCount chunk strings ∧
        all = found ++ strings) ∧
    (∀ error, channel.addStrings source run found offset = .error error →
      ∃ fault, error = .corruptData channel.path offset fault ∧
        Blames run.order run.sampleCount chunk fault) ∧
    ∀ (texts : List String) (after : List UInt8), run.sampleCount = texts.length →
      (texts.flatMap Utf8.encode).length < UInt32.size →
      chunk.data.toList = Draft.cellBytes run.order .string texts ++ after →
        channel.addStrings source run found offset = .ok (found ++ texts) := by
  refine ⟨fun room => ?_, ?_, fun all added => ?_, fun error failed => ?_, ?_⟩
  · exact ⟨Samples.length_endOffsets _ _ _, Samples.table_append_chunkText run.order room⟩
  · rw [← Samples.exists_decodeStrings_iff]
    simp only [addStrings_eq_ok_iff read]
    rw [exists_comm]
    simp
  · obtain ⟨strings, decoded, rfl⟩ := (addStrings_eq_ok_iff read).1 added
    exact ⟨strings, (Samples.decodeStrings_eq_ok_iff.1 decoded).2, rfl⟩
  · obtain ⟨fault, rfl, decoded⟩ := addStrings_eq_error read failed
    exact ⟨fault, rfl, Samples.blames_of_decodeStrings decoded⟩
  · intro texts after counted short whole
    refine (addStrings_eq_ok_iff read).2 ⟨texts, ?_, rfl⟩
    rw [counted]
    exact Draft.decodeStrings_cellBytes short whole

/-- Two bytes before a chunk of three strings in the big order, the second of them empty, with a
byte behind the text. -/
def stringSource : Source :=
  .ofBytes ⟨#[7, 7, 0, 0, 0, 2, 0, 0, 0, 2, 0, 0, 0, 5, 195, 169, 121, 111, 117, 255]⟩

theorem addStrings_cuts_sample :
    ∃ chunk, stringSource.read 2 18 = .ok chunk ∧ Cuts .big 3 chunk ∧
      (Channel.named "g" "t").addStrings stringSource ⟨0, 2, 18, 0, 3, 1, 18, .big⟩ #["before"] 2 =
        .ok #["before", "é", "", "you"] := by
  have read : stringSource.read 2 18 = .ok
      ⟨#[0, 0, 0, 2, 0, 0, 0, 2, 0, 0, 0, 5, 195, 169, 121, 111, 117, 255]⟩ := by decide +kernel
  have added : (Channel.named "g" "t").addStrings stringSource ⟨0, 2, 18, 0, 3, 1, 18, .big⟩
      #["before"] 2 = .ok #["before", "é", "", "you"] :=
    (addStrings_cuts read #["before"]).2.2.2.2 ["é", "", "you"] [255] rfl (by decide +kernel)
      (by decide +kernel)
  exact ⟨_, read, (addStrings_cuts read _).2.1.1 ⟨_, added⟩, added⟩

end Channel

end Tdms
