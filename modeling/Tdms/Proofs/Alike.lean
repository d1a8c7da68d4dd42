import Mathlib
import Tdms.Proofs.Catalogue.Cut
import Tdms.Proofs.Reading

/-!
Channels whose pieces hold the same bytes.

Pieces that hold the same bytes, each in its own content, decode alike. So two
channels of one type read alike if their pieces do, one by one: they hold the
same samples, or strings that are corrupt in the same way.
-/

namespace Tdms

open Walk (Memory Stage)

variable {content other : ByteArray} {piece moved : Piece}

/-- In `other`, `moved` holds the bytes that `piece` holds in `content`, and as many samples. -/
structure Piece.Alike (content other : ByteArray) (piece moved : Piece) : Prop where
  count_eq : moved.count = piece.count
  order_eq : moved.order = piece.order
  bytes_eq : window other moved.offset moved.length = window content piece.offset piece.length

/-- The strings of a channel are corrupt in the same way, wherever they lie. -/
def Error.SameCorruption (first second : Error) : Prop :=
  ∃ path place elsewhere fault, first = .corruptData path place fault ∧
    second = .corruptData path elsewhere fault

namespace Piece.Alike

theorem sample_eq (alike : Alike content other piece moved) (type : ScalarType) :
    moved.sample other type = piece.sample content type := by
  rw [sample, sample, alike.order_eq, alike.bytes_eq]

theorem texts (alike : Alike content other piece moved) (path : String) :
    Outcome.Alike Error.SameCorruption (piece.texts content path) (moved.texts other path) := by
  rw [Piece.texts, Piece.texts, alike.order_eq, alike.count_eq, alike.bytes_eq]
  cases Samples.decodeStrings piece.order piece.count
      (window content piece.offset piece.length) with
  | error fault => exact .error ⟨path, piece.offset, moved.offset, fault, rfl, rfl⟩
  | ok texts => exact .ok texts

end Piece.Alike

/-- Lists that are related item by item are the same where the relation says so. -/
theorem map_eq_of_forall₂ {α β γ : Type} {relation : α → β → Prop} {items : List α}
    {others : List β} (related : List.Forall₂ relation items others) {view : α → γ}
    {otherView : β → γ} (same : ∀ item other, relation item other → otherView other = view item) :
    others.map otherView = items.map view := by
  have views : List.Forall₂ (· = ·) (others.map otherView) (items.map view) :=
    List.rel_map (fun other item pair => same item other pair) related.flip
  rwa [List.forall₂_eq_eq_eq] at views

namespace Catalogue.Tracks

variable {catalogue changed : Catalogue} {memory after : Memory} {stages others : List Stage}
  {owner name : String} (tracks : catalogue.Tracks memory stages)
  (also : changed.Tracks after others)
  (type_eq : (changed.channelAt owner name).type = (catalogue.channelAt owner name).type)
  (alike : List.Forall₂ (Piece.Alike content other) (catalogue.channelAt owner name).pieces
    (changed.channelAt owner name).pieces)
include tracks also type_eq alike

theorem sampleCount_alike :
    (changed.channelAt owner name).sampleCount =
      (catalogue.channelAt owner name).sampleCount := by
  unfold Channel.pieces at alike
  rw [type_eq] at alike
  cases typed : (catalogue.channelAt owner name).type with
  | none =>
    rw [tracks.count_eq, also.count_eq, tracks.runs_of_untyped typed,
      also.runs_of_untyped (type_eq.trans typed)]
  | some type =>
    rw [typed] at alike
    rw [tracks.sampleCount_eq typed, also.sampleCount_eq (type_eq.trans typed),
      map_eq_of_forall₂ alike fun _ _ same => same.count_eq]

variable (inside : ∀ stage ∈ stages, stage.segment.endOffset ≤ content.size)
  (within : ∀ stage ∈ others, stage.segment.endOffset ≤ other.size)
include inside within

/-- Samples of a fixed width are the same where the pieces hold the same bytes. -/
theorem read_eq_of_alike (notString : (catalogue.channelAt owner name).type ≠ some .string) :
    (changed.channelAt owner name).read (.ofBytes other) =
      (catalogue.channelAt owner name).read (.ofBytes content) := by
  unfold Channel.pieces at alike
  rw [type_eq] at alike
  cases typed : (catalogue.channelAt owner name).type with
  | none => rw [Channel.read, Channel.read, type_eq, typed]
  | some type =>
    rw [typed] at alike notString
    cases fixed : type.width? with
    | none =>
      rw [ScalarType.width?_eq_none_iff.1 fixed] at notString
      exact absurd rfl notString
    | some width =>
      rw [tracks.readFixed_channelAt inside typed fixed,
        also.readFixed_channelAt within (type_eq.trans typed) fixed,
        map_eq_of_forall₂ alike fun _ _ same => same.sample_eq type]

/-- Strings are the same where the pieces hold the same bytes, or corrupt in the same way. -/
theorem read_alike (text : (catalogue.channelAt owner name).type = some .string) :
    Outcome.Alike Error.SameCorruption
      ((catalogue.channelAt owner name).read (.ofBytes content))
      ((changed.channelAt owner name).read (.ofBytes other)) := by
  unfold Channel.pieces at alike
  rw [type_eq, text] at alike
  rw [tracks.readStrings_channelAt inside text,
    also.readStrings_channelAt within (type_eq.trans text)]
  exact (Outcome.collect_alike (alike.imp fun _ _ same => same.texts _)).map _

end Catalogue.Tracks

end Tdms
