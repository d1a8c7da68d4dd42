import Mathlib
import Tdms.Catalogue.Build
import Tdms.Proofs.Metadata.Codec

/-!
Metadata blocks that end early.

A reader `NeedsAll` if it looks at no byte behind those that it takes, and finds
fewer of them to be a block that ends inside a field. It holds of taking bytes,
and readers in turn keep it: the cut falls into the bytes of the first, or the
first reads what it read before and the cut falls into the bytes of the second.
`decode_cut` is what follows for whole blocks.
-/

namespace Tdms.Metadata

/-- The fault names a field that starts inside the first `length` bytes of a block, and ends behind
them but not behind the first `whole`. -/
inductive CutField (length whole : Nat) : Fault → Prop
  | mk {wanted position : Nat} : position ≤ length → length < position + wanted →
    position + wanted ≤ whole → CutField length whole (.endsEarly length wanted position)

namespace Reader

variable {α β : Type}

/-- The reader needs all bytes that it takes, and no others. -/
structure NeedsAll (read : Reader α) : Prop where
  accepts : ∃ spells, Accepts read spells
  /-- With fewer bytes than it takes, the block ends early. -/
  runsOut : ∀ position taken rest value,
    read ⟨position, taken ++ rest⟩ = .ok (value, ⟨position + taken.length, rest⟩) →
      ∀ count < taken.length, ∃ fault,
        CutField (position + count) (position + taken.length) fault ∧
          read ⟨position, taken.take count⟩ = .error (.corrupt fault)

/-! ## Readers in turn -/

theorem bind_of_error {read : Reader α} {cursor : Cursor} {refusal : Refusal}
    (refused : read cursor = .error refusal) (later : α → Reader β) :
    (read >>= later) cursor = .error refusal := by
  change (read cursor >>= fun taken => later taken.1 taken.2) = _
  rw [refused]
  rfl

theorem bind_of_ok {read : Reader α} {cursor next : Cursor} {value : α}
    (answer : read cursor = .ok (value, next)) (later : α → Reader β) :
    (read >>= later) cursor = later value next := by
  change (read cursor >>= fun taken => later taken.1 taken.2) = _
  rw [answer]
  rfl

namespace NeedsAll

theorem pure (value : α) : NeedsAll (pure value : Reader α) where
  accepts := ⟨_, .pure value⟩
  runsOut position taken rest other read count short := by
    obtain ⟨_, ⟨-, rfl⟩, -, stop⟩ := (Accepts.pure value ..).1 read
    dsimp only at stop
    rw [List.length_nil] at stop
    omega

theorem refuse (refusal : Refusal) : NeedsAll (fun _ => .error refusal : Reader α) where
  accepts := ⟨_, .refuse refusal⟩
  runsOut _ _ _ _ read := by cases read

/-- A cut falls into what the first reader takes or into what the second one takes. -/
theorem bind {read : Reader α} {later : α → Reader β} (first : NeedsAll read)
    (second : ∀ value, NeedsAll (later value)) : NeedsAll (read >>= later) where
  accepts := by
    obtain ⟨early, accepts⟩ := first.accepts
    choose late also using fun value => (second value).accepts
    exact ⟨_, accepts.bind also⟩
  runsOut position taken rest result answer count short := by
    obtain ⟨early, accepts⟩ := first.accepts
    obtain ⟨value, ⟨place, left⟩, opening, closing⟩ := bind_eq_ok.1 answer
    obtain ⟨late, also⟩ := (second value).accepts
    obtain ⟨one, spelled, whole, rfl⟩ := (accepts ..).1 opening
    obtain ⟨two, -, rfl, stop⟩ := (also ..).1 closing
    dsimp only at whole closing opening
    rw [← List.append_assoc, List.append_cancel_right_eq] at whole
    subst whole
    rw [List.append_assoc] at opening
    rw [List.length_append] at short ⊢
    by_cases inside : count < one.length
    · obtain ⟨fault, ⟨start, cut, ends⟩, refused⟩ :=
        first.runsOut position one (two ++ rest) value opening count inside
      refine ⟨_, .mk start cut (by omega), ?_⟩
      rw [List.take_append_of_le_length inside.le]
      exact bind_of_error refused later
    · obtain ⟨more, rfl⟩ := Nat.exists_eq_add_of_le (not_lt.1 inside)
      rw [List.length_append, ← Nat.add_assoc] at closing
      obtain ⟨fault, ⟨start, cut, ends⟩, refused⟩ :=
        (second value).runsOut _ two rest result closing more (by omega)
      rw [Nat.add_assoc] at start cut refused
      refine ⟨_, .mk start cut (by omega), ?_⟩
      rw [List.take_length_add_append, bind_of_ok (accepts.read_append spelled position _)]
      exact refused

theorem map {read : Reader α} (needs : NeedsAll read) (change : α → β) :
    NeedsAll (change <$> read) := by
  rw [map_eq_bind]
  exact needs.bind fun value => .pure (change value)

theorem ite {condition : Prop} [Decidable condition] {read other : Reader α}
    (first : NeedsAll read) (second : NeedsAll other) :
    NeedsAll (if condition then read else other) := by
  split
  · exact first
  · exact second

theorem many {read : Reader α} (needs : NeedsAll read) (count : Nat) :
    NeedsAll (many read count) := by
  induction count with
  | zero => exact .pure []
  | succ count ih => exact needs.bind fun first => ih.bind fun rest => .pure (first :: rest)

end NeedsAll

/-! ## The fields of a block -/

theorem needsAll_take (count : Nat) : NeedsAll (take count) where
  accepts := ⟨_, accepts_take count⟩
  runsOut position taken rest value read fewer short := by
    obtain ⟨_, ⟨-, whole⟩, -, stop⟩ := (accepts_take count ..).1 read
    dsimp only at stop
    have length : taken.length = count := by omega
    have few : (taken.take fewer).length = fewer := by
      rw [List.length_take]
      omega
    refine ⟨.endsEarly (position + fewer) count position, .mk (by omega) (by omega) (by omega), ?_⟩
    rw [take]
    dsimp only
    rw [few, if_neg (by rw [List.length_take]; omega)]

theorem needsAll_uint32 (order : ByteOrder) : NeedsAll (uint32 order) :=
  (needsAll_take 4).map order.uint32

theorem needsAll_uint64 (order : ByteOrder) : NeedsAll (uint64 order) :=
  (needsAll_take 8).map order.uint64

theorem needsAll_text (order : ByteOrder) : NeedsAll (text order) := by
  refine (needsAll_uint32 order).bind fun length =>
    (needsAll_take length.toNat).bind fun bytes => ?_
  cases Utf8.decode bytes with
  | error fault => exact .refuse _
  | ok text => exact .pure text

theorem needsAll_value (order : ByteOrder) (type : ScalarType) : NeedsAll (value order type) := by
  cases fixed : type.width? with
  | none =>
    obtain rfl := ScalarType.width?_eq_none_iff.1 fixed
    exact needsAll_text order
  | some width =>
    rw [value_of_width fixed]
    exact (needsAll_take width).bind fun cell => .pure (type.ofCell order cell)

theorem needsAll_scalarType (code : UInt32) (path : String) : NeedsAll (scalarType code path) := by
  unfold scalarType
  cases ScalarType.ofCode? code with
  | none => exact .refuse _
  | some type => exact .pure type

theorem needsAll_property (order : ByteOrder) (path : String) :
    NeedsAll (Reader.property order path) :=
  (needsAll_text order).bind fun name => (needsAll_uint32 order).bind fun code =>
    (needsAll_scalarType code path).bind fun type => (needsAll_value order type).bind fun value =>
      .pure (name, Property.mk type value)

theorem needsAll_rawIndex (order : ByteOrder) (path : String) : NeedsAll (rawIndex order path) := by
  refine (needsAll_uint32 order).bind fun code => (needsAll_scalarType code path).bind fun type =>
    (needsAll_uint32 order).bind fun dimension => .ite (.refuse _) ?_
  refine (needsAll_uint64 order).bind fun count => ?_
  cases type.width? with
  | some width => exact .ite (.pure _) (.refuse _)
  | none => exact (needsAll_uint64 order).bind fun size => .ite (.pure _) (.refuse _)

theorem needsAll_declaration (order : ByteOrder) (path : String) :
    NeedsAll (declaration order path) :=
  (needsAll_uint32 order).bind fun _ => .ite (.pure _) (.ite (.pure _)
    (.ite (.refuse _) ((needsAll_rawIndex order path).map Declaration.new)))

theorem needsAll_record (order : ByteOrder) : NeedsAll (record order) := by
  refine (needsAll_text order).bind fun path => ?_
  cases ObjectPath.parse? path with
  | none => exact .refuse _
  | some object =>
    exact (needsAll_declaration order path).bind fun declaration =>
      (needsAll_uint32 order).bind fun count =>
        ((needsAll_property order path).many count.toNat).bind fun properties => .pure _

theorem needsAll_records (order : ByteOrder) : NeedsAll (records order) :=
  (needsAll_uint32 order).bind fun count => (needsAll_record order).many count.toNat

end Reader

/-! ## Whole blocks -/

/-- A block that is read takes some of its first bytes. What follows them plays no part. With fewer
of them the block is refused as corrupt, for ending inside a field, and so is a segment that has
so much of it for its metadata. -/
theorem decode_cut {order : ByteOrder} {bytes : List UInt8} {records : List Record}
    (read : decode order bytes = .ok records) :
    ∃ next : Cursor, Reader.records order ⟨0, bytes⟩ = .ok (records, next) ∧
      next.position ≤ bytes.length ∧
      (∀ rest, Reader.records order ⟨0, bytes.take next.position ++ rest⟩ =
          .ok (records, ⟨next.position, rest⟩) ∧
        decode order (bytes.take next.position ++ rest) = .ok records) ∧
      ∀ count < next.position, ∃ fault, CutField count next.position fault ∧
        decode order (bytes.take count) = .error (.corrupt fault) ∧
        ∀ (catalogue : Catalogue) (segment : Segment) (block : ByteArray),
          segment.metadata = some block → segment.order = order →
          block.data.toList = bytes.take count →
            catalogue.applyMetadata segment = .error (.corruptMetadata segment.offset fault) := by
  obtain ⟨⟨_, ⟨place, rest⟩⟩, answer, rfl⟩ := Outcome.map_eq_ok.1 read
  obtain ⟨taken, spelled, rfl, stop⟩ := (Reader.accepts_records order ..).1 answer
  rw [Nat.zero_add] at stop
  dsimp only at stop answer
  subst stop
  have front : (taken ++ rest).take taken.length = taken := List.take_left' rfl
  refine ⟨_, answer, by simp, fun others => ?_, fun count short => ?_⟩
  · have again := (Reader.accepts_records order).read_append spelled 0 others
    rw [Nat.zero_add] at again
    dsimp only
    rw [front, decode, again]
    exact ⟨rfl, rfl⟩
  · obtain ⟨fault, cut, refused⟩ := (Reader.needsAll_records order).runsOut 0 taken rest _
      (by rwa [Nat.zero_add]) count short
    rw [Nat.zero_add, Nat.zero_add] at cut
    have corrupt : decode order ((taken ++ rest).take count) = .error (.corrupt fault) := by
      rw [List.take_append_of_le_length (le_of_lt short), decode, refused]
      rfl
    refine ⟨fault, cut, corrupt, fun catalogue segment block metadata same whole => ?_⟩
    dsimp only at whole
    rw [Catalogue.applyMetadata, metadata]
    dsimp only
    rw [same, whole, corrupt]

/-- The sample block takes all of its bytes, and with the last one gone the value of its property
is missing. -/
theorem decode_cut_sample :
    decode .big sampleSpelling = .ok sampleRecords ∧
      ∃ next : Cursor, next.position = sampleSpelling.length ∧
        ∃ fault, CutField 50 next.position fault ∧
          decode .big (sampleSpelling.take 50) = .error (.corrupt fault) := by
  have read : decode .big sampleSpelling = .ok sampleRecords := by decide +kernel
  obtain ⟨next, answer, -, -, cut⟩ := decode_cut read
  have place : next.position = sampleSpelling.length := by
    have stop : (Reader.records .big ⟨0, sampleSpelling⟩).map (fun taken => taken.2.position) =
        .ok sampleSpelling.length := by decide +kernel
    rw [answer] at stop
    exact Except.ok.inj stop
  have short : 50 < next.position := by
    rw [place]
    decide
  obtain ⟨fault, field, refused, -⟩ := cut 50 short
  exact ⟨read, next, place, fault, field, refused⟩

end Tdms.Metadata
