import Mathlib
import Tdms.File
import Tdms.Proofs.Layout
import Tdms.Proofs.Outcome
import Tdms.Proofs.Window

/-!
Reading a channel, chunk by chunk.

Bytes held in memory are read as windows of them, and a sample lies in the
window of its piece whether it was read on its own or with the whole chunk
around it. `Chunk.fetch` is what one chunk comes to, over any content: its
samples, the read that finds it outside, or the string in it that is none.
`Channel.read_eq_fetch` states that a channel whose runs have their shape reads
as its chunks are fetched, one after another, up to the first that is refused.
-/

namespace Tdms

variable {content : ByteArray} {type : ScalarType} {width : Nat} {run : Run} {channel : Channel}

theorem readBytes_ofBytes {offset length : Nat} (inside : offset + length ≤ content.size) :
    channel.readBytes (.ofBytes content) offset length = .ok (window content offset length) := by
  rw [Channel.readBytes, read_ofBytes inside]

theorem readBytes_pastEnd {offset length : Nat} (past : ¬ offset + length ≤ content.size) :
    channel.readBytes (.ofBytes content) offset length =
      .error (.unreadable (.samples channel.path length offset)
        (.pastEnd length offset content.size)) := by
  have refused : (Source.ofBytes content).read offset length =
      .error (.pastEnd length offset content.size) := if_neg past
  rw [Channel.readBytes, refused]

/-! ## Arrays that grow by lists -/

theorem append_list_append {α : Type} (filled : Array α) (first second : List α) :
    filled ++ first ++ second = filled ++ (first ++ second) := by
  apply Array.ext'
  simp

theorem size_append_list {α : Type} (filled : Array α) (added : List α) :
    (filled ++ added).size = filled.size + added.length := by
  rw [← Array.length_toList, Array.toList_appendList, List.length_append, Array.length_toList]

/-- Where each step adds what is read of its item, as long as there is room for that, all steps
add what is collected of the items. -/
theorem foldlM_eq_collect {α β : Type} {step : Array β → α → Except Error (Array β)}
    {read : α → Except Error (List β)} {items : List α} (size : α → Nat) (limit : Nat)
    (sized : ∀ item ∈ items, ∀ values, read item = .ok values → values.length = size item)
    (adds : ∀ item ∈ items, ∀ found : Array β, found.size + size item ≤ limit →
      step found item = (read item).map fun values : List β => found ++ values)
    {found : Array β} (room : found.size + (items.map size).sum ≤ limit) :
    items.foldlM step found =
      (Outcome.collect read items).map fun values : List β => found ++ values := by
  induction items generalizing found with
  | nil => simp [pure, Except.pure, Outcome.collect, Except.map]
  | cons item rest ih =>
    obtain ⟨first, others⟩ := List.forall_mem_cons.1 sized
    obtain ⟨here, later⟩ := List.forall_mem_cons.1 adds
    rw [List.map_cons, List.sum_cons] at room
    rw [List.foldlM_cons, here found (by omega), Outcome.collect]
    cases taken : read item with
    | error error => rfl
    | ok values =>
      have more : (found ++ values).size + (rest.map size).sum ≤ limit := by
        rw [size_append_list, first values taken]
        omega
      change rest.foldlM step (found ++ values) = _
      rw [ih others later more]
      cases Outcome.collect read rest with
      | error error => rfl
      | ok remaining => exact congrArg Except.ok (append_list_append found values remaining)

/-! ## Samples of a fixed width -/

/-- The sample in a piece. -/
def Piece.sample (content : ByteArray) (type : ScalarType) (piece : Piece) : type.Value :=
  type.ofCell piece.order (window content piece.offset piece.length).data.toList

theorem sum_count_pieces (type : ScalarType) (run : Run) :
    ((run.pieces type).map Piece.count).sum = run.sampleCount * run.chunkCount := by
  have row : ∀ offset, ((Piece.row type run.order offset run.byteLength run.stride
      run.sampleCount).map Piece.count).sum = run.sampleCount := by
    intro offset
    cases fixed : type.width? with
    | none =>
      rw [Piece.row_of_string fixed]
      rfl
    | some width =>
      rw [Piece.row_of_width fixed, List.map_map]
      simp [Function.comp_def]
  rw [Run.pieces, List.map_flatMap, List.flatMap_def, List.sum_flatten, List.map_map]
  simp only [Function.comp_def, row, List.map_const', List.length_range, List.sum_replicate,
    smul_eq_mul]
  exact Nat.mul_comm _ _

/-- Of a chunk whose samples have a fixed width, all bytes are read. -/
theorem Run.Shaped.chunkLength_eq (shaped : run.Shaped type) (fixed : type.width? = some width) :
    Channel.chunkLength run type.width = run.byteLength := by
  rw [Channel.chunkLength, (ScalarType.width_of_width? fixed).1]
  rcases shaped.spaced width fixed with ⟨packed, length⟩ | ⟨-, apart, -⟩
  · rw [if_pos packed, length]
  · rw [if_neg apart.ne']

/-- The last sample of a chunk ends where the chunk does. -/
theorem Run.Shaped.last_eq (shaped : run.Shaped type) (fixed : type.width? = some width) :
    (run.sampleCount - 1) * run.stride + width = run.byteLength := by
  rcases shaped.spaced width fixed with ⟨packed, length⟩ | ⟨-, -, length⟩
  · rw [packed, length, ← Nat.succ_mul, Nat.succ_eq_add_one,
      Nat.sub_add_cancel shaped.samples_pos]
  · exact length.symm

theorem Run.Shaped.sample_le (shaped : run.Shaped type) (fixed : type.width? = some width)
    {sample : Nat} (counted : sample < run.sampleCount) :
    sample * run.stride + width ≤ run.byteLength := by
  have step : sample * run.stride ≤ (run.sampleCount - 1) * run.stride :=
    Nat.mul_le_mul_right _ (Nat.le_sub_one_of_lt counted)
  have last := shaped.last_eq fixed
  omega

/-- Of bytes that reach to the last sample of a chunk, the samples in its pieces are taken. -/
theorem chunkValues_eq_row (fixed : type.width? = some width) {length : Nat}
    (reach : ∀ sample < run.sampleCount, sample * run.stride + width ≤ length) (offset : Nat) :
    Channel.chunkValues run type (window content offset length) =
      (Piece.row type run.order offset run.byteLength run.stride run.sampleCount).map
        (Piece.sample content type) := by
  rw [Channel.chunkValues, Piece.row_of_width fixed, List.map_map,
    (ScalarType.width_of_width? fixed).1]
  apply List.map_congr_left
  intro sample counted
  rw [window_window (reach sample (List.mem_range.1 counted))]
  rfl

theorem chunkValues_eq (shaped : run.Shaped type) (fixed : type.width? = some width)
    (offset : Nat) :
    Channel.chunkValues run type (window content offset run.byteLength) =
      (Piece.row type run.order offset run.byteLength run.stride run.sampleCount).map
        (Piece.sample content type) :=
  chunkValues_eq_row fixed (fun _ => shaped.sample_le fixed) offset

/-! ## Strings -/

/-- The strings in a piece, with a fault reported for the channel at `path`. -/
def Piece.texts (content : ByteArray) (path : String) (piece : Piece) :
    Except Error (List String) :=
  match Samples.decodeStrings piece.order piece.count
      (window content piece.offset piece.length) with
  | .error fault => .error (.corruptData path piece.offset fault)
  | .ok texts => .ok texts

theorem length_cut {text : ByteArray} {start : Nat} {stops : List Nat} {texts : List String}
    (cut : Samples.cut text start stops = .ok texts) : texts.length = stops.length := by
  induction stops generalizing start texts with
  | nil =>
    cases cut
    rfl
  | cons stop rest ih =>
    unfold Samples.cut at cut
    split at cut
    · split at cut
      · cases cut
      · rcases Outcome.map_eq_ok.1 cut with ⟨others, later, rfl⟩
        rw [List.length_cons, List.length_cons, ih later]
    · cases cut

/-- A chunk of strings holds as many as it says. -/
theorem length_decodeStrings {order : ByteOrder} {count : Nat} {chunk : ByteArray}
    {texts : List String} (decoded : Samples.decodeStrings order count chunk = .ok texts) :
    texts.length = count := by
  unfold Samples.decodeStrings at decoded
  split at decoded
  · rw [length_cut decoded, Samples.endOffsets, List.length_map, List.length_range]
  · cases decoded

/-- Nothing is read of a piece without strings. -/
theorem texts_of_zero {path : String} {piece : Piece} (none : piece.count = 0) :
    piece.texts content path = .ok [] := by
  rw [Piece.texts, none]
  rfl

/-! ## Chunks -/

/-- One chunk of a run. -/
structure Chunk where
  run : Run
  offset : Nat
  deriving DecidableEq, Repr

/-- The chunks of a run, in file order. -/
def Run.chunks (run : Run) : List Chunk :=
  (List.range run.chunkCount).map fun chunk => ⟨run, run.chunkOffset chunk⟩

/-- The chunks of a channel, run by run. -/
def Channel.chunks (channel : Channel) : List Chunk :=
  channel.runs.flatMap Run.chunks

namespace Chunk

/-- The chunk lies within the content. -/
def Fits (content : ByteArray) (chunk : Chunk) : Prop :=
  chunk.offset + chunk.run.byteLength ≤ content.size

instance (content : ByteArray) (chunk : Chunk) : Decidable (chunk.Fits content) :=
  inferInstanceAs (Decidable (_ ≤ _))

/-- The pieces of a chunk of samples of `type`. -/
def pieces (type : ScalarType) (chunk : Chunk) : List Piece :=
  Piece.row type chunk.run.order chunk.offset chunk.run.byteLength chunk.run.stride
    chunk.run.sampleCount

/-- The strings in the bytes of a chunk. -/
def strings (content : ByteArray) (chunk : Chunk) : Except DataFault (List String) :=
  Samples.decodeStrings chunk.run.order chunk.run.sampleCount
    (window content chunk.offset chunk.run.byteLength)

/-- The samples of `type` in the bytes of a chunk, unless one of its strings is at fault. -/
def decode (content : ByteArray) (chunk : Chunk) : (type : ScalarType) →
    Except DataFault (List type.Value)
  | .string => chunk.strings content
  | type => .ok ((chunk.pieces type).map (Piece.sample content type))

/-- What a chunk of the channel at `path` comes to: its samples, or why it ends the reading. -/
def fetch (content : ByteArray) (path : String) (type : ScalarType) (chunk : Chunk) :
    Except Error (List type.Value) :=
  if chunk.Fits content then
    match chunk.decode content type with
    | .error fault => .error (.corruptData path chunk.offset fault)
    | .ok values => .ok values
  else .error (.unreadable (.samples path chunk.run.byteLength chunk.offset)
    (.pastEnd chunk.run.byteLength chunk.offset content.size))

variable {chunk : Chunk} {path : String}

theorem decode_of_width (fixed : type.width? = some width) :
    chunk.decode content type = .ok ((chunk.pieces type).map (Piece.sample content type)) := by
  cases type with
  | string => cases fixed
  | _ => rfl

theorem fetch_of_fits (fits : chunk.Fits content) :
    chunk.fetch content path type =
      match chunk.decode content type with
      | .error fault => .error (.corruptData path chunk.offset fault)
      | .ok values => .ok values :=
  if_pos fits

theorem fetch_of_not_fits (past : ¬ chunk.Fits content) :
    chunk.fetch content path type =
      .error (.unreadable (.samples path chunk.run.byteLength chunk.offset)
        (.pastEnd chunk.run.byteLength chunk.offset content.size)) :=
  if_neg past

theorem fetch_of_width (fits : chunk.Fits content) (fixed : type.width? = some width) :
    chunk.fetch content path type =
      .ok ((chunk.pieces type).map (Piece.sample content type)) := by
  rw [fetch_of_fits fits, decode_of_width fixed]

/-- A chunk is fetched exactly if it is there and decodes. -/
theorem fetch_eq_ok_iff {values : List type.Value} :
    chunk.fetch content path type = .ok values ↔
      chunk.Fits content ∧ chunk.decode content type = .ok values := by
  by_cases fits : chunk.Fits content
  · rw [fetch_of_fits fits]
    cases chunk.decode content type with
    | error fault => simp
    | ok found => simp [fits]
  · simp [fetch_of_not_fits fits, fits]

/-- As many samples are fetched of a chunk as it counts. -/
theorem length_fetch {values : List type.Value}
    (fetched : chunk.fetch content path type = .ok values) :
    values.length = chunk.run.sampleCount := by
  have decoded := (fetch_eq_ok_iff.1 fetched).2
  cases fixed : type.width? with
  | some width =>
    rw [decode_of_width fixed, pieces, Piece.row_of_width fixed] at decoded
    cases decoded
    simp
  | none =>
    rcases ScalarType.width?_eq_none_iff.1 fixed with rfl
    exact length_decodeStrings decoded

end Chunk

theorem Channel.mem_chunks {chunk : Chunk} :
    chunk ∈ channel.chunks ↔ ∃ run ∈ channel.runs, ∃ count < run.chunkCount,
      chunk = ⟨run, run.chunkOffset count⟩ := by
  simp only [Channel.chunks, Run.chunks, List.mem_flatMap, List.mem_map, List.mem_range, eq_comm]

/-- A channel has the pieces of its chunks. -/
theorem Channel.flatMap_pieces (channel : Channel) (type : ScalarType) :
    channel.runs.flatMap (Run.pieces type) = channel.chunks.flatMap (Chunk.pieces type) := by
  rw [Channel.chunks, List.flatMap_assoc]
  apply List.flatMap_congr
  intro run _
  rw [Run.chunks, List.flatMap_map]
  rfl

/-- Chunks of a fixed width that fit hold the samples in their pieces. -/
theorem Channel.collect_fetch_of_fits (path : String) (fixed : type.width? = some width)
    (fits : ∀ chunk ∈ channel.chunks, chunk.Fits content) :
    Outcome.collect (Chunk.fetch content path type) channel.chunks =
      .ok ((channel.runs.flatMap (Run.pieces type)).map (Piece.sample content type)) := by
  rw [Outcome.collect_of_ok fun chunk listed => Chunk.fetch_of_width (fits chunk listed) fixed,
    channel.flatMap_pieces, List.map_flatMap]

/-- Chunks of strings that fit hold the strings in their pieces. -/
theorem Channel.collect_texts_of_fits {path : String}
    (fits : ∀ chunk ∈ channel.chunks, chunk.Fits content) :
    Outcome.collect (Chunk.fetch content path .string) channel.chunks =
      Outcome.collect (Piece.texts content path) (channel.runs.flatMap (Run.pieces .string)) := by
  rw [channel.flatMap_pieces, Outcome.collect_flatMap]
  apply Outcome.collect_congr
  intro chunk listed
  rw [Chunk.fetch_of_fits (fits chunk listed), Chunk.decode, Chunk.strings, Chunk.pieces,
    Piece.row_of_string rfl, Outcome.collect_singleton, Piece.texts]
  cases Samples.decodeStrings chunk.run.order chunk.run.sampleCount
      (window content chunk.offset chunk.run.byteLength) with
  | error fault => rfl
  | ok texts => rfl

theorem Channel.sum_sampleCount_chunks (channel : Channel) :
    (channel.chunks.map fun chunk => chunk.run.sampleCount).sum =
      (channel.runs.map fun run => run.sampleCount * run.chunkCount).sum := by
  rw [Channel.chunks, List.map_flatMap, List.flatMap_def, List.sum_flatten, List.map_map]
  congr 1
  apply List.map_congr_left
  intro run _
  rw [Function.comp, Run.chunks, List.map_map]
  simp [Function.comp_def, Nat.mul_comm]

/-- The chunks of a channel hold the samples that its runs count. -/
theorem Channel.sum_chunks (shaped : ∀ run ∈ channel.runs, run.Shaped type) :
    (channel.chunks.map fun chunk => chunk.run.sampleCount).sum =
      (channel.runs.map Run.totalSamples).sum := by
  rw [channel.sum_sampleCount_chunks]
  exact congrArg List.sum (List.map_congr_left fun run held => (shaped run held).total_eq.symm)

/-! ## Reading -/

theorem Run.foldChunks_eq_foldlM {σ : Type} (step : Run → σ → Nat → Except Error σ) (run : Run)
    (remaining chunk : Nat) (state : σ) :
    run.foldChunks (step run) remaining chunk state =
      ((List.range' chunk remaining).map fun other => Chunk.mk run (run.chunkOffset other)).foldlM
        (fun state chunk => step chunk.run state chunk.offset) state := by
  induction remaining generalizing chunk state with
  | zero => rfl
  | succ remaining ih =>
    rw [Run.foldChunks, List.range'_succ, List.map_cons, List.foldlM_cons]
    cases step run state (run.chunkOffset chunk) with
    | error error => rfl
    | ok next => exact ih (chunk + 1) next

/-- The runs of a channel are gone through chunk by chunk. -/
theorem Channel.foldChunks_eq_foldlM {σ : Type} (channel : Channel)
    (step : Run → σ → Nat → Except Error σ) (state : σ) :
    channel.foldChunks step state =
      channel.chunks.foldlM (fun state chunk => step chunk.run state chunk.offset) state := by
  rw [Channel.foldChunks, Channel.chunks]
  generalize channel.runs = runs
  induction runs generalizing state with
  | nil => rfl
  | cons run rest ih =>
    rw [List.foldlM_cons, List.flatMap_cons, List.foldlM_append, Run.foldChunks_eq_foldlM,
      Run.chunks, List.range_eq_range']
    exact congrArg _ (funext ih)

theorem addChunk_eq (shaped : run.Shaped type) (fixed : type.width? = some width)
    {filled : Array type.Value} (offset : Nat)
    (room : filled.size + run.sampleCount ≤ channel.sampleCount) :
    channel.addChunk (.ofBytes content) type run filled offset =
      (Chunk.fetch content channel.path type ⟨run, offset⟩).map
        fun values : List type.Value => filled ++ values := by
  rw [Channel.addChunk, if_neg (not_lt.2 room), shaped.chunkLength_eq fixed]
  by_cases fits : Chunk.Fits content ⟨run, offset⟩
  · rw [Chunk.fetch_of_width fits fixed, readBytes_ofBytes fits]
    dsimp only
    rw [chunkValues_eq shaped fixed]
    rfl
  · rw [Chunk.fetch_of_not_fits fits, readBytes_pastEnd fits]
    rfl

theorem addStrings_eq (channel : Channel) (run : Run) (found : Array String) (offset : Nat) :
    channel.addStrings (.ofBytes content) run found offset =
      (Chunk.fetch content channel.path .string ⟨run, offset⟩).map
        fun texts : List String => found ++ texts := by
  rw [Channel.addStrings]
  by_cases fits : Chunk.Fits content ⟨run, offset⟩
  · rw [Chunk.fetch_of_fits fits, readBytes_ofBytes fits, Chunk.decode, Chunk.strings]
    dsimp only
    cases Samples.decodeStrings run.order run.sampleCount
        (window content offset run.byteLength) with
    | error fault => rfl
    | ok texts => rfl
  · rw [Chunk.fetch_of_not_fits fits, readBytes_pastEnd fits]
    rfl

/-- Chunks that have their shape, and hold no more samples than the channel counts, fill its
column with what is fetched of them. -/
theorem foldChunks_addChunk (fixed : type.width? = some width)
    (shaped : ∀ run ∈ channel.runs, run.Shaped type)
    (counted : channel.sampleCount = (channel.runs.map Run.totalSamples).sum) :
    channel.foldChunks (channel.addChunk (.ofBytes content) type) #[] =
      (Outcome.collect (Chunk.fetch content channel.path type) channel.chunks).map
        fun values : List type.Value => (#[] : Array type.Value) ++ values := by
  rw [Channel.foldChunks_eq_foldlM]
  refine foldlM_eq_collect (fun chunk => chunk.run.sampleCount) channel.sampleCount
    (fun chunk _ values => Chunk.length_fetch) (fun chunk listed found room => ?_) ?_
  · obtain ⟨run, held, count, -, rfl⟩ := Channel.mem_chunks.1 listed
    exact addChunk_eq (shaped run held) fixed _ room
  · rw [Channel.sum_chunks shaped, counted]
    simp

theorem foldChunks_addStrings (channel : Channel) (content : ByteArray) :
    channel.foldChunks (channel.addStrings (.ofBytes content)) #[] =
      (Outcome.collect (Chunk.fetch content channel.path .string) channel.chunks).map
        fun texts : List String => (#[] : Array String) ++ texts := by
  rw [Channel.foldChunks_eq_foldlM]
  have sized : ∀ chunk ∈ channel.chunks, ∀ texts : List String,
      chunk.fetch content channel.path .string = .ok texts →
        texts.length = chunk.run.sampleCount := fun _ _ _ => Chunk.length_fetch
  exact foldlM_eq_collect (fun chunk => chunk.run.sampleCount) _ sized
    (fun chunk _ found _ => addStrings_eq channel chunk.run found chunk.offset) le_rfl

/-- What is fetched of all chunks are as many samples as the channel counts. -/
theorem Channel.length_collect {path : String}
    (shaped : ∀ run ∈ channel.runs, run.Shaped type)
    (counted : channel.sampleCount = (channel.runs.map Run.totalSamples).sum)
    {values : List type.Value}
    (collected : Outcome.collect (Chunk.fetch content path type) channel.chunks = .ok values) :
    values.length = channel.sampleCount := by
  rw [counted, ← Channel.sum_chunks shaped]
  exact Outcome.length_of_collect (fun chunk _ values => Chunk.length_fetch) collected

/-- A channel whose runs have their shape, and which counts their samples, reads as its chunks are
fetched, one after another. The first that is refused ends the reading. -/
theorem Channel.read_eq_fetch (typed : channel.type = some type)
    (shaped : ∀ run ∈ channel.runs, run.Shaped type)
    (counted : channel.sampleCount = (channel.runs.map Run.totalSamples).sum)
    (content : ByteArray) :
    channel.read (.ofBytes content) =
      (Outcome.collect (Chunk.fetch content channel.path type) channel.chunks).map
        (.column type) := by
  cases fixed : type.width? with
  | none =>
    rcases ScalarType.width?_eq_none_iff.1 fixed with rfl
    rw [Channel.read, typed]
    dsimp only
    rw [Channel.readStrings, foldChunks_addStrings]
    cases Outcome.collect (Chunk.fetch content channel.path .string) channel.chunks with
    | error error => rfl
    | ok texts => simp [Except.map]
  | some width =>
    have filled : channel.readFixed (.ofBytes content) type =
        Outcome.collect (Chunk.fetch content channel.path type) channel.chunks := by
      rw [Channel.readFixed, foldChunks_addChunk fixed shaped counted]
      cases collected : Outcome.collect (Chunk.fetch content channel.path type)
          channel.chunks with
      | error error => rfl
      | ok values =>
        have full := Channel.length_collect shaped counted collected
        simp [Except.map, full]
    rw [Channel.read, typed]
    cases type with
    | string => cases fixed
    | _ =>
      dsimp only
      rw [filled]

end Tdms
