import Mathlib
import Tdms.Proofs.Catalogue.Apply
import Tdms.Proofs.Inquiry.Channel
import Tdms.Proofs.Inquiry.Opening
import Tdms.Proofs.Reading

/-!
Whatever bytes are opened and read, nothing outside of them is asked for.

Opening checks the end of every part before it asks for the part, and the runs
of a catalogue lie in raw data that was checked so. Bytes in memory are thus
never found unreadable: they are refused for what they say, and what opens can
be read, except for strings whose chunks hold no text. `Channel.ReadSafely` says
this of one channel, and that the samples of a fixed width fill their column.
-/

namespace Tdms

open Walk (Memory Stage)

variable {content : ByteArray} {type : ScalarType} {channel : Channel} {source : Source}
  {recover : Bool}

/-! ## Opening -/

/-- The errors for which bytes that can be read are not opened. -/
def Error.RefusesFile : Error → Prop
  | .corruptHeader _ _ | .truncated _ _ _ | .unknownType _ _ | .inconsistentType _ _ _
  | .corruptMetadata _ _ => True
  | _ => False

theorem Error.EndsScan.refusesFile {error : Error} (ends : error.EndsScan) :
    error.RefusesFile := by
  cases error with
  | corruptHeader | truncated => trivial
  | _ => cases ends

theorem Error.RefusesSegment.refusesFile {error : Error} (refuses : error.RefusesSegment) :
    error.RefusesFile := by
  cases error with
  | unknownType | inconsistentType | corruptMetadata => trivial
  | _ => cases refuses

namespace Catalogue

theorem conclude_fails (recover : Bool) (catalogue : Catalogue) {error? : Option Error}
    (ends : ∀ error, error? = some error → error.RefusesFile) :
    Outcome.FailsOnly Error.RefusesFile (catalogue.conclude recover error?) := by
  unfold conclude
  split
  · exact .ok _
  · split
    · exact .ok _
    · exact .error trivial
  · exact .error (ends _ rfl)

/-- Where every read inside is granted, a source is refused only for what its bytes say. -/
theorem build_fails (grants : source.Grants content) (recover : Bool) :
    Outcome.FailsOnly Error.RefusesFile (build source recover) := by
  rw [build_eq_conclude]
  refine .bind (.foldlM (fun catalogue segment => ?_) _ _) fun catalogue => ?_
  · exact (apply_fails catalogue segment).mono fun _ => Error.RefusesSegment.refusesFile
  · exact conclude_fails recover catalogue fun error ended =>
      (scanFrom_fails grants 0 0 error ended).refusesFile

end Catalogue

/-! ## Strings -/

/-- The fault is in a string: where it starts and ends, or what it spells. -/
def DataFault.OfString : DataFault → Prop
  | .stringBounds _ _ | .text _ => True
  | .surplus | .offsetTable _ => False

theorem cut_fails (text : ByteArray) (start : Nat) (stops : List Nat) :
    Outcome.FailsOnly DataFault.OfString (Samples.cut text start stops) := by
  induction stops generalizing start with
  | nil => exact .ok _
  | cons stop rest ih =>
    unfold Samples.cut
    split
    · split
      · exact .error trivial
      · intro fault failed
        exact ih stop fault (Outcome.map_eq_error.1 failed)
    · exact .error trivial

/-- A chunk with room for its table is refused only for one of its strings. -/
theorem decodeStrings_fails (order : ByteOrder) {count : Nat} {chunk : ByteArray}
    (room : 4 * count ≤ chunk.size) :
    Outcome.FailsOnly DataFault.OfString (Samples.decodeStrings order count chunk) := by
  rw [Samples.decodeStrings, if_pos room]
  exact cut_fails _ 0 _

/-! ## Channels -/

/-- Reading a channel of bytes in memory is safe. -/
structure Channel.ReadSafely (content : ByteArray) (channel : Channel) : Prop where
  /-- Read by read, the samples of the channel are what `read` answers with. -/
  run_ask : channel.ask.run (.ofBytes content) = channel.read (.ofBytes content)
  /-- Every read lies inside the bytes. -/
  inside : ∀ request ∈ channel.ask.requests (.ofBytes content), request.Inside content.size
  /-- Every sample of a fixed width lies inside the bytes that are read of its chunk. -/
  spans : ∀ type, channel.type = some type → type ≠ .string → ∀ run ∈ channel.runs,
    ∀ sample < run.sampleCount,
      sample * run.stride + type.width ≤ chunkLength run type.width
  /-- Samples of a fixed width are always read, and fill all the room that the channel has. -/
  filled : ∀ type, channel.type = some type → type ≠ .string → ∃ filled : Array type.Value,
    channel.foldChunks (channel.addChunk (.ofBytes content) type) #[] = .ok filled ∧
      filled.size = channel.sampleCount ∧
      channel.read (.ofBytes content) = .ok (.column type filled.toList)
  /-- Only for a string can reading fail. -/
  fails : ∀ error, channel.read (.ofBytes content) = .error error →
    channel.type = some .string ∧ ∃ offset fault,
      error = .corruptData channel.path offset fault ∧ fault.OfString

namespace Catalogue.Tracks

variable {catalogue : Catalogue} {memory : Memory} {stages : List Stage}
  (tracks : catalogue.Tracks memory stages)
  (inside : ∀ stage ∈ stages, stage.segment.endOffset ≤ content.size)
include tracks inside

/-- A channel of the catalogue asks for nothing behind the end of the content. -/
theorem ask_asksOnly (owner name : String) :
    (catalogue.channelAt owner name).ask.AsksOnly (Request.Inside content.size) := by
  refine Channel.ask_asksOnly (fun type typed notString run listed chunk counted => ?_)
    fun typed run listed chunk counted => ?_
  · rcases ScalarType.exists_width notString with ⟨width, fixed⟩
    rw [(tracks.shaped_of_mem typed run listed).chunkLength_eq fixed]
    exact tracks.chunk_le inside run listed chunk counted
  · exact tracks.chunk_le inside run listed chunk counted

/-- The chunks of a channel of fixed width hold as many samples as it counts. -/
theorem foldChunks_channelAt {owner name : String}
    (typed : (catalogue.channelAt owner name).type = some type) (notString : type ≠ .string) :
    ∃ filled : Array type.Value,
      (catalogue.channelAt owner name).foldChunks
          ((catalogue.channelAt owner name).addChunk (.ofBytes content) type) #[] = .ok filled ∧
        filled.size = (catalogue.channelAt owner name).sampleCount ∧
        (catalogue.channelAt owner name).read (.ofBytes content) =
          .ok (.column type filled.toList) := by
  rcases ScalarType.exists_width notString with ⟨width, fixed⟩
  have shaped := tracks.shaped_of_mem typed
  have counted := tracks.count_eq owner name
  have collected := Channel.collect_fetch_of_fits (catalogue.channelAt owner name).path fixed
    (tracks.chunks_fit inside owner name)
  refine ⟨(#[] : Array type.Value) ++ ((catalogue.channelAt owner name).runs.flatMap
    (Run.pieces type)).map (Piece.sample content type), ?_, ?_, ?_⟩
  · rw [foldChunks_addChunk fixed shaped counted, collected]
    rfl
  · rw [size_append_list, Channel.length_collect shaped counted collected]
    exact Nat.zero_add _
  · rw [tracks.readFixed_channelAt inside typed fixed]
    simp

/-- A piece of a channel of strings is refused only for one of its strings. -/
theorem texts_fails {owner name : String}
    (typed : (catalogue.channelAt owner name).type = some .string) {piece : Piece}
    (listed : piece ∈ (catalogue.channelAt owner name).runs.flatMap (Run.pieces .string))
    {path : String} {error : Error} (failed : piece.texts content path = .error error) :
    ∃ offset fault, error = .corruptData path offset fault ∧ fault.OfString := by
  rw [Channel.flatMap_pieces] at listed
  rcases List.mem_flatMap.1 listed with ⟨chunk, among, expanded⟩
  rw [Chunk.pieces, Piece.row_of_string rfl] at expanded
  rcases List.mem_singleton.1 expanded with rfl
  rcases Channel.mem_chunks.1 among with ⟨run, held, count, counted, rfl⟩
  have within := tracks.chunk_le inside run held count counted
  have table := ((tracks.shaped_of_mem typed run held).texts rfl).2
  have room : 4 * run.sampleCount ≤
      (window content (run.chunkOffset count) run.byteLength).size := by
    rw [size_window within]
    exact table
  unfold Piece.texts at failed
  split at failed
  · rename_i fault refused
    cases failed
    exact ⟨_, fault, rfl, decodeStrings_fails run.order room fault refused⟩
  · cases failed

/-- Reading fails only at a channel of strings, and only for one of them. -/
theorem read_fails {owner name : String} {error : Error}
    (failed : (catalogue.channelAt owner name).read (.ofBytes content) = .error error) :
    (catalogue.channelAt owner name).type = some .string ∧ ∃ offset fault,
      error = .corruptData (catalogue.channelAt owner name).path offset fault ∧
        fault.OfString := by
  cases typed : (catalogue.channelAt owner name).type with
  | none =>
    rw [Channel.read, typed] at failed
    cases failed
  | some type =>
    by_cases text : type = .string
    · rcases text with rfl
      rw [tracks.readStrings_channelAt inside typed] at failed
      rcases Outcome.collect_eq_error (Outcome.map_eq_error.1 failed) with
        ⟨piece, listed, refused⟩
      rw [tracks.path_channelAt]
      exact ⟨rfl, tracks.texts_fails inside typed listed refused⟩
    · rcases tracks.foldChunks_channelAt inside typed text with ⟨filled, -, -, read⟩
      rw [read] at failed
      cases failed

theorem readSafely (owner name : String) :
    (catalogue.channelAt owner name).ReadSafely content where
  run_ask := Channel.run_ask _ _
  inside := (tracks.ask_asksOnly inside owner name).forall_requests _
  spans type typed notString run listed sample counted := by
    rcases ScalarType.exists_width notString with ⟨width, fixed⟩
    have shaped := tracks.shaped_of_mem typed run listed
    rw [shaped.chunkLength_eq fixed, (ScalarType.width_of_width? fixed).1]
    exact shaped.sample_le fixed counted
  filled _ typed notString := tracks.foldChunks_channelAt inside typed notString
  fails _ failed := tracks.read_fails inside failed

end Catalogue.Tracks

/-! ## Open files -/

/-- Whatever bytes are opened from memory, every read lies inside them, so that none fails, when
they are opened and when a channel is read. They are refused only for a corrupt header, a
truncated segment, an unknown or an inconsistent type, or corrupt metadata. If they open, every
channel is read safely. -/
theorem File.opens_safely (content : ByteArray) (recover : Bool) :
    (Catalogue.ask content.size recover).run (.ofBytes content) =
        Catalogue.build (.ofBytes content) recover ∧
      (∀ request ∈ (Catalogue.ask content.size recover).requests (.ofBytes content),
        request.Inside content.size) ∧
      (∀ error, File.ofBytes content recover = .error error → error.RefusesFile) ∧
      ∀ file, File.ofBytes content recover = .ok file → ∀ owner name channel,
        file.channel owner name = .ok channel →
          file.readChannel owner name = channel.read (.ofBytes content) ∧
            channel.ReadSafely content := by
  refine ⟨Catalogue.run_ask (.ofBytes content) recover,
    (Catalogue.ask_asksOnly content.size recover).forall_requests _, fun error failed => ?_, ?_⟩
  · exact Catalogue.build_fails (grants_ofBytes content) recover error
      (File.ofSource_eq_error_iff.1 failed)
  · intro file opened owner name channel looked
    rcases File.of_ofBytes opened with ⟨source, built⟩
    have here : file.catalogue.channelAt owner name = channel :=
      Catalogue.channelAt_of_channel? (Catalogue.channel?_of_channel looked)
    constructor
    · rw [File.readChannel, looked, source]
    · rw [← here]
      exact (Catalogue.Tracks.of_build built).readSafely (endOffset_le_of_scan content) owner name

/-- The numbers of the sample lie in two layouts and in both orders, and its texts in chunks. -/
theorem File.opens_safely_sample :
    ∃ file numbers texts, File.ofBytes sampleFile false = .ok file ∧
      file.channel "g" "a" = .ok numbers ∧ numbers.type = some .int16 ∧
      numbers.ReadSafely sampleFile ∧
      file.channel "g" "t" = .ok texts ∧ texts.type = some .string ∧
      texts.ReadSafely sampleFile := by
  have opens : (File.ofBytes sampleFile false).toOption.isSome = true := by decide +kernel
  rcases Outcome.exists_of_isSome opens with ⟨file, opened⟩
  have types : (File.ofBytes sampleFile false).map (fun file =>
      ((file.channel "g" "a").map Channel.type, (file.channel "g" "t").map Channel.type)) =
      .ok (.ok (some .int16), .ok (some .string)) := by decide +kernel
  rw [opened] at types
  injection types with types
  injection types with first second
  rcases Outcome.map_eq_ok.1 first with ⟨numbers, looked, integers⟩
  rcases Outcome.map_eq_ok.1 second with ⟨texts, also, strings⟩
  have safe := (File.opens_safely sampleFile false).2.2.2 file opened "g"
  exact ⟨file, numbers, texts, opened, looked, integers, (safe "a" numbers looked).2, also,
    strings, (safe "t" texts also).2⟩

/-- Two lead-ins are asked for, each with the metadata behind it, and no raw data. -/
example : (Catalogue.ask sampleFile.size false).requests (.ofBytes sampleFile) =
    [⟨0, 28⟩, ⟨28, 84⟩, ⟨126, 28⟩, ⟨154, 24⟩] := by decide +kernel

end Tdms
