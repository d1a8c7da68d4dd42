import Mathlib
import Tdms.Proofs.Agreement
import Tdms.Proofs.Alike

/-!
Channels do not see each other's bytes.

`Walk.Owns` says which bytes belong to the samples of a channel. They all lie in
raw data, which opening does not look at, and none of them lies in a piece of
another channel. `File.isolates` concludes that they make no difference but to
the channel itself.
-/

namespace Tdms

open Walk (Stage Block)

variable {content other : ByteArray} {position : Nat}

/-- The byte at `position` belongs to the samples of the object at `path`: to one of a fixed width,
or to a block of strings. -/
def Walk.Owns (content : ByteArray) (path : ObjectPath) (position : Nat) : Prop :=
  ∃ block ∈ blocks (scan (.ofBytes content)).segments,
    block.path = path ∧ ∃ piece ∈ block.pieces, piece.Holds position

instance (piece : Piece) (position : Nat) : Decidable (piece.Holds position) :=
  inferInstanceAs (Decidable (_ ∧ _))

instance (content : ByteArray) (path : ObjectPath) (position : Nat) :
    Decidable (Walk.Owns content path position) :=
  inferInstanceAs (Decidable (∃ block ∈ _, _))

/-! ## Raw data and heads -/

/-- The byte at `position` belongs to the raw data of a segment. -/
def Segment.HasData (segment : Segment) (position : Nat) : Prop :=
  segment.dataOffset ≤ position ∧ position < segment.endOffset

namespace Trail

variable {source : Source} {offset ordinal stop : Nat} {segments : List Segment}
  {segment next : Segment}

/-- A byte of raw data belongs to its segment. -/
theorem covers_of_hasData (trail : Trail source offset ordinal segments stop)
    (listed : segment ∈ segments) (data : segment.HasData position) :
    segment.Covers source.length position := by
  have reads := trail.reads_of_mem listed
  have head := reads.leadIn_le
  have ends := reads.endOffset_le
  unfold Segment.HasData at data
  unfold Segment.Covers
  omega

/-- A byte of raw data does not lie before the raw data of any segment in the same segment. -/
theorem dataOffset_le_of_hasData (trail : Trail source offset ordinal segments stop)
    (listed : segment ∈ segments) (data : segment.HasData position) (among : next ∈ segments)
    (start : next.offset ≤ position) : next.dataOffset ≤ position := by
  by_contra before
  have inside := (trail.reads_of_mem among).dataOffset_le_next
  have covers := trail.covers_of_hasData listed data
  have also : next.Covers source.length position := ⟨start, by omega⟩
  have bounds := (trail.bounds_of_mem listed).1
  have ends := (trail.bounds_of_mem listed).2
  have unique := (trail.existsUnique_iff position).2 ⟨bounds.trans covers.1, covers.2.trans_le ends⟩
  obtain rfl := unique.unique ⟨among, also⟩ ⟨listed, covers⟩
  exact before data.1

end Trail

/-- Contents of one size that differ in raw data alone agree on all that opening looks at. -/
theorem SameHeads.of_data (size : other.size = content.size)
    (same : ∀ position, (∀ segment ∈ (scan (.ofBytes content)).segments,
      ¬ segment.HasData position) → content.data[position]? = other.data[position]?) :
    SameHeads content other := by
  have trail := trail_scanFrom (.ofBytes content) 0 0
  refine ⟨size.symm, fun segment listed => ⟨fun position start inside => ?_,
    fun _ position start inside => ?_⟩, fun position start _ => ?_⟩
  · refine same position fun holder among data => ?_
    have behind := trail.dataOffset_le_of_hasData among data listed start
    have head := (trail.reads_of_mem listed).leadIn_le
    omega
  · refine same position fun holder among data => ?_
    have place := (trail.reads_of_mem listed).metadataOffset_eq
    have behind := trail.dataOffset_le_of_hasData among data listed (by omega)
    omega
  · refine same position fun holder among data => ?_
    have before := (trail.covers_of_hasData among data).2
    have ends := (trail.bounds_of_mem among).2
    exact absurd (before.trans_le ends) (not_lt.2 start)

/-! ## Channels -/

namespace Catalogue.Tracks

variable {catalogue : Catalogue} {memory : Walk.Memory} {stages : List Stage}
  (tracks : catalogue.Tracks memory stages)
include tracks

/-- What a channel reads depends only on the bytes of its pieces. -/
theorem read_congr (inside : ∀ stage ∈ stages, stage.segment.endOffset ≤ content.size)
    (size : other.size = content.size) {owner name : String}
    (same : ∀ piece ∈ (catalogue.channelAt owner name).pieces,
      window other piece.offset piece.length = window content piece.offset piece.length) :
    (catalogue.channelAt owner name).read (.ofBytes other) =
      (catalogue.channelAt owner name).read (.ofBytes content) := by
  have within : ∀ stage ∈ stages, stage.segment.endOffset ≤ other.size := size ▸ inside
  by_cases text : (catalogue.channelAt owner name).type = some .string
  · rw [Channel.pieces, text] at same
    rw [tracks.readStrings_channelAt inside text, tracks.readStrings_channelAt within text]
    congr 1
    apply Outcome.collect_congr
    intro piece listed
    rw [Piece.texts, Piece.texts, same piece listed]
  · exact tracks.read_eq_of_alike tracks rfl
      (List.forall₂_same.2 fun piece listed => ⟨rfl, rfl, same piece listed⟩) inside within text

/-- Bytes of one channel do not lie in the pieces of another one. -/
theorem not_holds_of_other
    (ordered : stages.Pairwise fun before after =>
      before.segment.ordinal < after.segment.ordinal ∧
        before.segment.endOffset < after.segment.dataOffset)
    {channel : Channel} (listed : channel ∈ catalogue.channels) {block : Block}
    (among : block ∈ stages.flatMap Stage.blocks)
    (foreign : block.path ≠ .channel channel.group channel.name) {piece part : Piece}
    (mine : piece ∈ channel.pieces) (yours : part ∈ block.pieces)
    (holds : piece.Holds position) : ¬ part.Holds position := by
  intro also
  obtain ⟨home, held, inside⟩ := List.mem_flatMap.1 ((tracks.pieces_sublist listed).subset mine)
  obtain ⟨member, path⟩ := List.mem_filter.1 held
  have different : home ≠ block := by
    intro equal
    rw [equal] at path
    exact foreign (of_decide_eq_true path)
  have whole := tracks.filled_of_mem member
  have full := tracks.filled_of_mem among
  have apart : Piece.Apart piece part := by
    rcases related_of_pairwise (blocks_pairwise ordered) member among different with before | after
    · exact Block.pieces_apart whole full before piece inside part yours
    · exact (Block.pieces_apart full whole after part yours piece inside).symm
  unfold Piece.Apart at apart
  unfold Piece.Holds at holds also
  omega

/-- The pieces of blocks lie in the raw data of the stages. -/
theorem hasData_of_holds {block : Block} (among : block ∈ stages.flatMap Stage.blocks)
    {piece : Piece} (listed : piece ∈ block.pieces) (holds : piece.Holds position) :
    ∃ stage ∈ stages, stage.segment.HasData position := by
  obtain ⟨stage, member, inside⟩ := List.mem_flatMap.1 among
  have bounds := Block.bounds_of_mem (tracks.filled_of_mem among) listed
  have place := Stage.bounds_of_mem inside
  refine ⟨stage, member, ?_⟩
  unfold Piece.Holds at holds
  unfold Segment.HasData
  omega

end Catalogue.Tracks

/-- Contents of one size that differ in the samples of one object alone agree on all that opening
looks at. -/
theorem SameHeads.of_owns {catalogue : Catalogue} {memory : Walk.Memory} {path : ObjectPath}
    (tracks : catalogue.Tracks memory (Walk.stages .blank (scan (.ofBytes content)).segments))
    (size : other.size = content.size)
    (same : ∀ position, ¬ Walk.Owns content path position →
      content.data[position]? = other.data[position]?) : SameHeads content other := by
  refine of_data size fun position outside => same position fun owns => ?_
  obtain ⟨block, among, -, piece, listed, holds⟩ := owns
  obtain ⟨stage, member, data⟩ := tracks.hasData_of_holds among listed holds
  exact outside stage.segment (Catalogue.mem_of_mem_stages member) data

/-! ## Files -/

/-- Whatever becomes of the bytes of one channel, the file opens to the same catalogue, and all
other channels read as before, errors included. -/
theorem File.isolates {recover : Bool} {file : File} {owner name : String}
    (opened : File.ofBytes content recover = .ok file) (size : other.size = content.size)
    (same : ∀ position, ¬ Walk.Owns content (.channel owner name) position →
      content.data[position]? = other.data[position]?) :
    ∃ changed, File.ofBytes other recover = .ok changed ∧
      changed.catalogue = file.catalogue ∧ changed.truncatedAt = file.truncatedAt ∧
      ∀ group channel, (group, channel) ≠ (owner, name) →
        changed.readChannel group channel = file.readChannel group channel := by
  obtain ⟨source, built⟩ := File.of_ofBytes opened
  have tracks := Catalogue.Tracks.of_build built
  have ordered := Catalogue.stages_pairwise (scan_scanned (.ofBytes content)) .blank
  have heads := SameHeads.of_owns tracks size same
  have rebuilt : Catalogue.build (.ofBytes other) recover =
      .ok (file.catalogue, file.truncatedAt) := by
    rw [Catalogue.build, heads.scan_eq]
    exact built
  refine ⟨⟨.ofBytes other, file.catalogue, file.truncatedAt⟩, ?_, rfl, rfl, ?_⟩
  · rw [File.ofBytes, File.ofSource, rebuilt]
  · intro group channel different
    rw [readChannel, readChannel, File.channel, File.channel, source]
    dsimp only
    cases found : file.catalogue.channel group channel with
    | error error => rfl
    | ok held =>
      have known := Catalogue.channel?_of_channel found
      obtain ⟨rfl, rfl⟩ := tracks.named.channel known
      have listed := (Catalogue.mem_channels_iff tracks.named).2 ⟨_, _, known⟩
      have foreign : ObjectPath.channel owner name ≠ .channel held.group held.name := by
        intro equal
        obtain ⟨rfl, rfl⟩ := ObjectPath.channel.inj equal
        exact different rfl
      dsimp only
      rw [← Catalogue.channelAt_of_channel? known]
      refine tracks.read_congr (endOffset_le_of_scan content) size fun piece mine => ?_
      rw [Catalogue.channelAt_of_channel? known] at mine
      refine AgreeOn.window_eq fun position start before => (same position fun owns => ?_).symm
      obtain ⟨block, among, path, part, yours, also⟩ := owns
      exact tracks.not_holds_of_other ordered listed among (path ▸ foreign) mine yours
        ⟨start, before⟩ also

theorem getElem?_set_of_ne (content : ByteArray) (byte : UInt8) {place : Nat}
    (elsewhere : place ≠ position) :
    (content.set! place byte).data[position]? = content.data[position]? :=
  Array.getElem?_setIfInBounds_ne elsewhere

/-- The number in the sample file does not depend on the strings. -/
theorem File.isolates_sample :
    ∃ file changed, File.ofBytes sampleFile false = .ok file ∧
      relettered.size = sampleFile.size ∧
      (∀ position, ¬ Walk.Owns sampleFile (.channel "g" "t") position →
        sampleFile.data[position]? = relettered.data[position]?) ∧
      File.ofBytes relettered false = .ok changed ∧
      changed.readChannel "g" "a" = file.readChannel "g" "a" := by
  have opens : (File.ofBytes sampleFile false).toOption.isSome = true := by decide +kernel
  have size : relettered.size = sampleFile.size := by decide +kernel
  have owned : Walk.Owns sampleFile (.channel "g" "t") 118 := by decide +kernel
  have same : ∀ position, ¬ Walk.Owns sampleFile (.channel "g" "t") position →
      sampleFile.data[position]? = relettered.data[position]? := by
    intro position outside
    have elsewhere : 118 ≠ position := fun here => outside (here ▸ owned)
    exact (getElem?_set_of_ne sampleFile 122 elsewhere).symm
  obtain ⟨file, opened⟩ := Outcome.exists_of_isSome opens
  obtain ⟨changed, reopened, -, -, kept⟩ := File.isolates opened size same
  exact ⟨file, changed, opened, size, same, reopened, kept "g" "a" (by decide)⟩

end Tdms
