import Mathlib
import Tdms.Proofs.Catalogue.Partition
import Tdms.Proofs.Reading

/-!
Reading a channel over other bytes than those its catalogue was built of.

The runs of a channel say where its chunks lie. Other bytes may end before a
chunk does, or hold no strings where the chunk should: `Chunk.Stops` is why a
chunk ends the reading. `Channel.ReadsOver` says what a channel reads as over
any content, which is its samples, or the error of the first chunk that stops
it. Bytes outside its pieces play no part in the samples.
-/

namespace Tdms

variable {content other : ByteArray} {type : ScalarType} {channel : Channel} {chunk : Chunk}
  {path : String}

/-- Why a chunk of samples of `type` ends the reading of the channel at `path`. -/
inductive Chunk.Stops (content : ByteArray) (path : String) (type : ScalarType) (chunk : Chunk) :
    Error → Prop
  /-- The content ends before the chunk does. -/
  | outside : ¬ chunk.Fits content →
    Stops content path type chunk (.unreadable
      (.samples path chunk.run.byteLength chunk.offset)
      (.pastEnd chunk.run.byteLength chunk.offset content.size))
  /-- The chunk is there, but is none of strings. -/
  | corrupt {fault : DataFault} : type = .string → chunk.Fits content →
    chunk.strings content = .error fault →
      Stops content path type chunk (.corruptData path chunk.offset fault)

/-- What a channel of samples of `type` reads as over `content`. -/
structure Channel.ReadsOver (content : ByteArray) (type : ScalarType) (channel : Channel) :
    Prop where
  /-- Samples of a fixed width are read exactly if all chunks are there, piece by piece. -/
  fixed : type ≠ .string → ∀ samples, channel.read (.ofBytes content) = .ok samples ↔
    (∀ chunk ∈ channel.chunks, chunk.Fits content) ∧
      samples = .column type (channel.pieces.map (Piece.sample content type))
  /-- Strings are read exactly if all chunks are there and hold strings. -/
  texts : type = .string → ∀ samples, channel.read (.ofBytes content) = .ok samples ↔
    ∃ parts, List.Forall₂ (fun (chunk : Chunk) part => chunk.Fits content ∧
        chunk.strings content = .ok part) channel.chunks parts ∧
      samples = .column .string parts.flatten
  /-- The first chunk that stops the reading says why. -/
  stopped : ∀ error, channel.read (.ofBytes content) = .error error ↔
    ∃ before chunk after, channel.chunks = before ++ chunk :: after ∧
      (∀ earlier ∈ before, ∀ reason, ¬ earlier.Stops content channel.path type reason) ∧
      chunk.Stops content channel.path type error
  /-- What is read is read wherever the pieces of the channel hold the same bytes. -/
  own : ∀ other samples, channel.read (.ofBytes content) = .ok samples →
    (∀ piece ∈ channel.pieces,
      window other piece.offset piece.length = window content piece.offset piece.length) →
    channel.read (.ofBytes other) = .ok samples

/-! ## One chunk -/

namespace Chunk

/-- Exactly the chunks that stop the reading are not fetched. -/
theorem fetch_eq_error_iff {error : Error} :
    chunk.fetch content path type = .error error ↔ chunk.Stops content path type error := by
  constructor
  · intro failed
    by_cases fits : chunk.Fits content
    · rw [fetch_of_fits fits] at failed
      cases width : type.width? with
      | some width =>
        rw [decode_of_width width] at failed
        cases failed
      | none =>
        rcases ScalarType.width?_eq_none_iff.1 width with rfl
        rw [decode] at failed
        cases decoded : chunk.strings content with
        | error fault =>
          rw [decoded] at failed
          cases failed
          exact .corrupt rfl fits decoded
        | ok strings =>
          rw [decoded] at failed
          cases failed
    · rw [fetch_of_not_fits fits] at failed
      cases failed
      exact .outside fits
  · intro stops
    cases stops with
    | outside past => exact fetch_of_not_fits past
    | corrupt text fits decoded =>
      subst text
      rw [fetch_of_fits fits, decode, decoded]

theorem exists_fetch_iff :
    (∃ values, chunk.fetch content path type = .ok values) ↔
      ∀ reason, ¬ chunk.Stops content path type reason := by
  simp only [← fetch_eq_error_iff]
  cases chunk.fetch content path type with
  | error error => simp
  | ok values => simp

/-- The last piece of a chunk is not empty and ends where the chunk does. -/
theorem exists_last (shaped : chunk.run.Shaped type) :
    ∃ piece ∈ chunk.pieces type, 0 < piece.length ∧
      piece.offset + piece.length = chunk.offset + chunk.run.byteLength := by
  cases fixed : type.width? with
  | some width =>
    rw [pieces, Piece.row_of_width fixed]
    have last := shaped.last_eq fixed
    refine ⟨_, List.mem_map.2 ⟨chunk.run.sampleCount - 1, ?_, rfl⟩,
      (ScalarType.width_of_width? fixed).2, ?_⟩
    · exact List.mem_range.2 (Nat.sub_lt shaped.samples_pos Nat.one_pos)
    · dsimp only
      omega
  | none =>
    rw [pieces, Piece.row_of_string fixed]
    have some := shaped.samples_pos
    have table := (shaped.texts fixed).2
    refine ⟨_, List.mem_singleton_self _, ?_, rfl⟩
    dsimp only
    omega

/-- A chunk is fetched alike wherever its pieces hold the same bytes. -/
theorem fetch_congr (shaped : chunk.run.Shaped type) (fits : chunk.Fits content)
    (same : ∀ piece ∈ chunk.pieces type,
      window other piece.offset piece.length = window content piece.offset piece.length) :
    chunk.fetch other path type = chunk.fetch content path type := by
  have there : chunk.Fits other := by
    obtain ⟨piece, listed, some, stop⟩ := exists_last shaped
    have shown := le_of_window_eq some (stop.trans_le fits) (same piece listed)
    rwa [stop] at shown
  have decoded : chunk.decode other type = chunk.decode content type := by
    cases fixed : type.width? with
    | some width =>
      rw [decode_of_width fixed, decode_of_width fixed]
      refine congrArg Except.ok (List.map_congr_left fun piece listed => ?_)
      rw [Piece.sample, Piece.sample, same piece listed]
    | none =>
      rcases ScalarType.width?_eq_none_iff.1 fixed with rfl
      rw [pieces, Piece.row_of_string fixed] at same
      rw [decode, decode, strings, strings, same _ (List.mem_singleton_self _)]
  rw [fetch_of_fits there, fetch_of_fits fits, decoded]

end Chunk

/-! ## All chunks -/

namespace Channel

variable (typed : channel.type = some type)
include typed

theorem pieces_eq_chunks : channel.pieces = channel.chunks.flatMap (Chunk.pieces type) := by
  rw [Channel.pieces, typed]
  exact channel.flatMap_pieces type

variable (shaped : ∀ run ∈ channel.runs, run.Shaped type)
  (counted : channel.sampleCount = (channel.runs.map Run.totalSamples).sum)
include shaped counted

/-- Reading answers exactly where all chunks are there and decode. -/
theorem read_eq_ok_iff {samples : Samples} :
    channel.read (.ofBytes content) = .ok samples ↔
      ∃ parts, List.Forall₂ (fun (chunk : Chunk) part => chunk.Fits content ∧
          chunk.decode content type = .ok part) channel.chunks parts ∧
        samples = .column type parts.flatten := by
  rw [read_eq_fetch typed shaped counted, Outcome.map_eq_ok]
  simp only [Outcome.collect_eq_ok_iff, Chunk.fetch_eq_ok_iff]
  constructor
  · rintro ⟨_, ⟨parts, fetched, rfl⟩, rfl⟩
    exact ⟨parts, fetched, rfl⟩
  · rintro ⟨parts, fetched, rfl⟩
    exact ⟨_, ⟨parts, fetched, rfl⟩, rfl⟩

theorem fits_of_read {samples : Samples} (read : channel.read (.ofBytes content) = .ok samples) :
    ∀ chunk ∈ channel.chunks, chunk.Fits content := by
  obtain ⟨parts, fetched, -⟩ := (read_eq_ok_iff typed shaped counted).1 read
  exact ((List.forall₂_and_left _ _).1 fetched).1

/-- Reading fails exactly with the error of the first chunk that stops it. -/
theorem read_eq_error_iff {error : Error} :
    channel.read (.ofBytes content) = .error error ↔
      ∃ before chunk after, channel.chunks = before ++ chunk :: after ∧
        (∀ earlier ∈ before, ∀ reason, ¬ earlier.Stops content channel.path type reason) ∧
        chunk.Stops content channel.path type error := by
  rw [read_eq_fetch typed shaped counted, Outcome.map_eq_error, Outcome.collect_eq_error_iff]
  simp only [Chunk.exists_fetch_iff, Chunk.fetch_eq_error_iff]

theorem read_of_fits {width : Nat} (fixed : type.width? = some width)
    (fits : ∀ chunk ∈ channel.chunks, chunk.Fits content) :
    channel.read (.ofBytes content) =
      .ok (.column type (channel.pieces.map (Piece.sample content type))) := by
  rw [read_eq_fetch typed shaped counted, collect_fetch_of_fits _ fixed fits, Channel.pieces,
    typed]
  rfl

/-- Contents that hold the same bytes in the pieces of a channel are read alike, if one is. -/
theorem read_congr {samples : Samples} (read : channel.read (.ofBytes content) = .ok samples)
    (same : ∀ piece ∈ channel.pieces,
      window other piece.offset piece.length = window content piece.offset piece.length) :
    channel.read (.ofBytes other) = .ok samples := by
  have fits := fits_of_read typed shaped counted read
  rw [← read, read_eq_fetch typed shaped counted, read_eq_fetch typed shaped counted]
  refine congrArg _ (Outcome.collect_congr fun chunk listed => ?_)
  have shape : chunk.run.Shaped type := by
    obtain ⟨run, held, count, -, rfl⟩ := mem_chunks.1 listed
    exact shaped run held
  refine Chunk.fetch_congr shape (fits chunk listed) fun piece held => same piece ?_
  rw [pieces_eq_chunks typed]
  exact List.mem_flatMap.2 ⟨chunk, listed, held⟩

/-- What a channel reads as over any content, if its runs have their shape and it counts their
samples. -/
theorem readsOver (content : ByteArray) : channel.ReadsOver content type where
  fixed notString samples := by
    obtain ⟨width, fixed⟩ := ScalarType.exists_width notString
    constructor
    · intro read
      have fits := fits_of_read typed shaped counted read
      rw [read_of_fits typed shaped counted fixed fits] at read
      exact ⟨fits, (Except.ok.inj read).symm⟩
    · rintro ⟨fits, rfl⟩
      exact read_of_fits typed shaped counted fixed fits
  texts text samples := by
    subst text
    exact read_eq_ok_iff typed shaped counted
  stopped _ := read_eq_error_iff typed shaped counted
  own _ _ := read_congr typed shaped counted

end Channel

/-! ## Channels of a catalogue -/

/-- Whatever source a catalogue was built of, and whatever bytes its channels are then read over,
a channel without a type has no samples. Any other reads as its chunks are found there, in the
order of its runs: as all its samples if every chunk is there and, of strings, decodes, and else
with the error of the first chunk that is not. What is read depends on nothing but the bytes of
the channel's own samples. -/
theorem Catalogue.readsOver_of_build {source : Source} {recover : Bool} {catalogue : Catalogue}
    {stop : Option Nat} {owner name : String}
    (built : Catalogue.build source recover = .ok (catalogue, stop))
    (listed : catalogue.channel owner name = .ok channel) (content : ByteArray) :
    (channel.type = none → channel.read (.ofBytes content) = .ok .void) ∧
      ∀ type, channel.type = some type → channel.ReadsOver content type := by
  have tracks := Catalogue.Tracks.of_build built
  have here : catalogue.channelAt owner name = channel :=
    Catalogue.channelAt_of_channel? (Catalogue.channel?_of_channel listed)
  subst here
  refine ⟨fun untyped => ?_, fun type typed => ?_⟩
  · rw [Channel.read, untyped]
  · exact Channel.readsOver typed (tracks.shaped_of_mem typed) (tracks.count_eq owner name) content

/-- The first bytes of `sampleFile`, which end inside its second chunk of strings. -/
def sampleFront : ByteArray :=
  window sampleFile 0 124

/-- The first chunk of strings is there, and the second is reported. -/
theorem Catalogue.readsOver_sample :
    ∃ catalogue channel, Catalogue.build (.ofBytes sampleFile) false = .ok (catalogue, none) ∧
      catalogue.channel "g" "t" = .ok channel ∧ channel.type = some .string ∧
      channel.ReadsOver sampleFront .string ∧
      channel.read (.ofBytes sampleFront) =
        .error (.unreadable (.samples "/'g'/'t'" 5 121) (.pastEnd 5 121 124)) := by
  let run : Run := ⟨0, 114, 5, 0, 1, 2, 7, .little⟩
  have found : ((Catalogue.build (.ofBytes sampleFile) false) >>= fun built =>
      (built.1.channel "g" "t").map fun channel =>
        (built.2, channel.type, channel.path, channel.chunks)) =
      .ok (none, some .string, "/'g'/'t'", [⟨run, 114⟩, ⟨run, 121⟩]) := by decide +kernel
  obtain ⟨⟨catalogue, stop⟩, built, looked⟩ := Outcome.bind_eq_ok.1 found
  obtain ⟨channel, listed, shown⟩ := Outcome.map_eq_ok.1 looked
  simp only [Prod.mk.injEq] at shown
  obtain ⟨rfl, typed, path, chunks⟩ := shown
  have reads := (readsOver_of_build built listed sampleFront).2 .string typed
  refine ⟨catalogue, channel, built, listed, typed, reads, ?_⟩
  have size : sampleFront.size = 124 := by decide +kernel
  have past : ¬ (Chunk.mk run 121).Fits sampleFront := by decide +kernel
  rw [reads.stopped, chunks, path, ← size]
  refine ⟨[⟨run, 114⟩], ⟨run, 121⟩, [], rfl, ?_, .outside past⟩
  rw [List.forall_mem_singleton, ← Chunk.exists_fetch_iff]
  exact ⟨["x"], by decide +kernel⟩

end Tdms
