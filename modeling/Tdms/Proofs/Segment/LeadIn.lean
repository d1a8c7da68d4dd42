import Mathlib
import Tdms.Proofs.Cell
import Tdms.Segment.LeadIn

/-!
Lead-ins, written and read back.

Every lead-in is spelled by exactly one row of 28 bytes, and all 28 bytes with
the tag in front spell one. `decode` refuses those that are not valid, so that
reading and writing undo each other where a lead-in is valid. The table of
contents is spelled flag by flag: flag 8k + i is bit i of byte 4 + k.
-/

namespace Tdms

/-! ## Bits of a number and of its bytes -/

/-- Each bit of a number is a bit of one of the bytes that spell it, least significant first. -/
theorem testBit_littleBytes {width bit : Nat} (counted : bit < 8 * width) (number : Nat) :
    ((littleBytes width number).getD (bit / 8) 0).toNat.testBit (bit % 8) =
      number.testBit bit := by
  induction width generalizing number bit with
  | zero => omega
  | succ width ih =>
    rw [littleBytes]
    by_cases first : bit < 8
    · rw [Nat.div_eq_of_lt first, Nat.mod_eq_of_lt first, List.getD_cons_zero, UInt8.toNat_ofNat',
        Nat.testBit_mod_two_pow, decide_eq_true first, Bool.true_and]
    · obtain ⟨later, rfl⟩ := Nat.exists_eq_add_of_le' (not_lt.1 first)
      have quotient : ((littleBytes width (number / 2 ^ 8)).getD (later / 8) 0).toNat.testBit
          (later % 8) = (number / 2 ^ 8).testBit later := ih (by omega) _
      rw [Nat.testBit_div_two_pow] at quotient
      rw [Nat.add_div_right later (by decide), Nat.add_mod_right, List.getD_cons_succ]
      exact quotient

namespace LeadIn

variable {leadIn : LeadIn} {bytes : List UInt8}

/-! ## Writing and reading -/

theorem length_encode (leadIn : LeadIn) : leadIn.encode.length = leadInLength := by
  simp [encode, segmentTag, ByteOrder.length_bytes, leadInLength]

theorem ofBytes_encode (leadIn : LeadIn) : ofBytes leadIn.encode = leadIn := by
  have length := fun order : ByteOrder => order.length_bytes
  have fields : leadIn.encode.drop 4 =
      ByteOrder.little.bytes 4 leadIn.contents.bits.toNat ++
        (leadIn.order.bytes 4 leadIn.version.toUInt32.toNat ++
          (leadIn.order.bytes 8 leadIn.nextSegmentOffset.toNat ++
            leadIn.order.bytes 8 leadIn.rawDataOffset.toNat)) := by
    rw [encode, List.append_assoc, List.append_assoc, List.append_assoc]
    rfl
  have later : leadIn.encode.drop 8 =
      leadIn.order.bytes 4 leadIn.version.toUInt32.toNat ++
        (leadIn.order.bytes 8 leadIn.nextSegmentOffset.toNat ++
          leadIn.order.bytes 8 leadIn.rawDataOffset.toNat) := by
    rw [show 8 = 4 + 4 from rfl, ← List.drop_drop, fields, List.drop_left' (length _ 4 _)]
  have offsets : leadIn.encode.drop 12 =
      leadIn.order.bytes 8 leadIn.nextSegmentOffset.toNat ++
        leadIn.order.bytes 8 leadIn.rawDataOffset.toNat := by
    rw [show 12 = 8 + 4 from rfl, ← List.drop_drop, later, List.drop_left' (length _ 4 _)]
  have last : leadIn.encode.drop 20 = leadIn.order.bytes 8 leadIn.rawDataOffset.toNat := by
    rw [show 20 = 12 + 8 from rfl, ← List.drop_drop, offsets, List.drop_left' (length _ 8 _)]
  have contents : Contents.mk (ByteOrder.little.uint32 ((leadIn.encode.drop 4).take 4)) =
      leadIn.contents := by
    rw [fields, List.take_left' (length _ 4 _), ByteOrder.uint32_bytes]
  rw [ofBytes, contents, later, offsets, last, List.take_left' (length _ 4 _),
    List.take_left' (length _ 8 _), List.take_of_length_le (length _ 8 _).le]
  change LeadIn.mk leadIn.contents (leadIn.order.uint32 _).toInt32 (leadIn.order.uint64 _)
    (leadIn.order.uint64 _) = leadIn
  rw [ByteOrder.uint32_bytes, ByteOrder.uint64_bytes, ByteOrder.uint64_bytes,
    Int32.toInt32_toUInt32]

/-- Behind a tag, all bytes of a lead-in belong to its fields. -/
theorem encode_ofBytes (whole : bytes.length = leadInLength) (tag : bytes.take 4 = segmentTag) :
    (ofBytes bytes).encode = bytes := by
  have size : bytes.length = 28 := whole
  have field : ∀ start width, start + width ≤ 28 → ((bytes.drop start).take width).length = width :=
    fun start width inside => by rw [List.length_take, List.length_drop]; omega
  have parts : bytes = bytes.take 4 ++ (bytes.drop 4).take 4 ++ (bytes.drop 8).take 4 ++
      (bytes.drop 12).take 8 ++ (bytes.drop 20).take 8 := by
    have last : (bytes.drop 20).take 8 = bytes.drop 20 :=
      List.take_of_length_le (by rw [List.length_drop]; omega)
    rw [last, ← List.take_add, ← List.take_add, ← List.take_add, List.take_append_drop]
  conv_rhs => rw [parts, tag]
  rw [encode, order, ofBytes]
  dsimp only
  rw [UInt32.toUInt32_toInt32, ByteOrder.bytes_uint32 _ (field 4 4 (by decide)),
    ByteOrder.bytes_uint32 _ (field 8 4 (by decide)),
    ByteOrder.bytes_uint64 _ (field 12 8 (by decide)),
    ByteOrder.bytes_uint64 _ (field 20 8 (by decide))]

/-- A valid lead-in is read back. -/
theorem decode_encode (valid : leadIn.Valid) : decode leadIn.encode = .ok leadIn := by
  have tag : leadIn.encode.take 4 = segmentTag := rfl
  rcases valid with ⟨version, offsets⟩
  simp only [decode, ofBytes_encode, tag, ne_eq, not_true_eq_false, if_false, not_not.2 version,
    if_pos offsets]

/-- What is read has the tag in front, and is valid. -/
theorem of_decode (decoded : decode bytes = .ok leadIn) :
    bytes.take 4 = segmentTag ∧ ofBytes bytes = leadIn ∧ leadIn.Valid := by
  unfold decode at decoded
  dsimp only at decoded
  split at decoded
  · cases decoded
  · rename_i tag
    split at decoded
    · cases decoded
    · rename_i version
      split at decoded
      · rename_i ordered
        cases decoded
        exact ⟨not_not.1 tag, rfl, not_not.1 version, ordered⟩
      · cases decoded

theorem valid_of_decode (decoded : decode bytes = .ok leadIn) : leadIn.Valid :=
  (of_decode decoded).2.2

/-! ## Bytes that are no lead-in -/

/-- Why bytes are no lead-in: they have another tag, or spell one with another version or with raw
data that starts behind the end of a finished segment. What comes first counts. -/
inductive Refused (bytes : List UInt8) : Fault → Prop
  | tag : bytes.take 4 ≠ segmentTag → Refused bytes (.tag (bytes.take 4))
  | version {leadIn : LeadIn} : leadIn.encode = bytes → leadIn.version ∉ supportedVersions →
    Refused bytes (.version leadIn.version)
  | rawDataOffset {leadIn : LeadIn} : leadIn.encode = bytes →
    leadIn.version ∈ supportedVersions → leadIn.isUnfinished = false →
    leadIn.nextSegmentOffset < leadIn.rawDataOffset →
      Refused bytes (.rawDataOffset leadIn.rawDataOffset leadIn.nextSegmentOffset)

theorem decode_of_refused {fault : Fault} (refused : Refused bytes fault) :
    decode bytes = .error fault := by
  cases refused with
  | tag other =>
    rw [decode]
    exact if_pos other
  | @version leadIn spelled other =>
    have tag : leadIn.encode.take 4 = segmentTag := rfl
    rw [← spelled]
    simp only [decode, ofBytes_encode, tag, ne_eq, not_true_eq_false, if_false, if_pos other]
  | @rawDataOffset leadIn spelled version finished behind =>
    have tag : leadIn.encode.take 4 = segmentTag := rfl
    have outside : ¬ (leadIn.isUnfinished = true ∨
        leadIn.rawDataOffset ≤ leadIn.nextSegmentOffset) := by
      rintro (unfinished | ordered)
      · rw [finished] at unfinished
        cases unfinished
      · exact UInt64.not_le.2 behind ordered
    rw [← spelled]
    simp only [decode, ofBytes_encode, tag, ne_eq, not_true_eq_false, if_false,
      not_not.2 version, if_neg outside]

/-- Bytes of the length of a lead-in spell a valid one or are refused. -/
theorem spelled_or_refused (whole : bytes.length = leadInLength) :
    (∃ leadIn : LeadIn, leadIn.Valid ∧ leadIn.encode = bytes) ∨ ∃ fault, Refused bytes fault := by
  by_cases tag : bytes.take 4 = segmentTag
  · have spelled := encode_ofBytes whole tag
    by_cases version : (ofBytes bytes).version ∈ supportedVersions
    · by_cases offsets : (ofBytes bytes).isUnfinished = true ∨
          (ofBytes bytes).rawDataOffset ≤ (ofBytes bytes).nextSegmentOffset
      · exact .inl ⟨_, ⟨version, offsets⟩, spelled⟩
      · obtain ⟨finished, behind⟩ := not_or.1 offsets
        exact .inr ⟨_, .rawDataOffset spelled version (Bool.eq_false_iff.2 finished)
          (UInt64.not_le.1 behind)⟩
    · exact .inr ⟨_, .version spelled version⟩
  · exact .inr ⟨_, .tag tag⟩

/-! ## Reading and writing undo each other -/

/-- Whether bytes set a flag in the table of contents of a lead-in. -/
def flagAt (bytes : List UInt8) (flag : Nat) : Bool :=
  (bytes.getD (4 + flag / 8) 0).toNat.testBit (flag % 8)

/-- Every flag is spelled, whether it has a meaning or not. -/
theorem flagAt_encode (leadIn : LeadIn) {flag : Nat} (counted : flag < 32) :
    flagAt leadIn.encode flag = leadIn.contents.bits.toNat.testBit flag := by
  have length := ByteOrder.little.length_bytes 4 leadIn.contents.bits.toNat
  have place : leadIn.encode.getD (4 + flag / 8) 0 =
      (ByteOrder.little.bytes 4 leadIn.contents.bits.toNat).getD (flag / 8) 0 := by
    rw [encode, List.append_assoc, List.append_assoc, List.append_assoc, List.getD_append_right,
      List.getD_append]
    · exact congrArg (fun position => List.getD _ position 0) (Nat.add_sub_cancel_left 4 _)
    · change 4 + flag / 8 - 4 < _
      omega
    · exact Nat.le_add_right _ _
  rw [flagAt, place]
  exact testBit_littleBytes counted _

/-- Flag 6 decides the order of the fields behind the table of contents. -/
theorem order_eq_big_iff (leadIn : LeadIn) :
    leadIn.order = .big ↔ leadIn.contents.bits.toNat.testBit 6 = true := by
  have flag : leadIn.contents.contains Contents.bigOrderFlag =
      leadIn.contents.bits.toNat.testBit 6 := by
    rw [Contents.contains, Bool.eq_iff_iff, beq_iff_eq, ← UInt32.toNat_inj, UInt32.toNat_and]
    change leadIn.contents.bits.toNat &&& 2 ^ 6 = 2 ^ 6 ↔ _
    rw [Nat.and_two_pow]
    cases leadIn.contents.bits.toNat.testBit 6 with
    | false => simp
    | true => simp
  rw [order, Contents.order, flag]
  split
  · simp_all
  · simp_all

/-- Twenty-eight bytes are read as a lead-in exactly if it is valid and they are its spelling. So
a valid lead-in is read back from what is written of it, what is read is written again as it was,
and all flags are kept on either way, those without a meaning among them. -/
theorem decode_inverts_encode :
    (∀ bytes leadIn, bytes.length = leadInLength →
      (decode bytes = .ok leadIn ↔ leadIn.Valid ∧ leadIn.encode = bytes)) ∧
    (∀ leadIn : LeadIn, leadIn.Valid →
      leadIn.encode.length = leadInLength ∧ decode leadIn.encode = .ok leadIn) ∧
    (∀ bytes leadIn, bytes.length = leadInLength → decode bytes = .ok leadIn →
      ∀ flag < 32, leadIn.contents.bits.toNat.testBit flag = flagAt bytes flag) ∧
    ∀ leadIn : LeadIn, leadIn.order = .big ↔ flagAt leadIn.encode 6 = true := by
  have exact_iff : ∀ bytes leadIn, bytes.length = leadInLength →
      (decode bytes = .ok leadIn ↔ leadIn.Valid ∧ leadIn.encode = bytes) := by
    intro bytes leadIn whole
    constructor
    · intro decoded
      obtain ⟨tag, rfl, valid⟩ := of_decode decoded
      exact ⟨valid, encode_ofBytes whole tag⟩
    · rintro ⟨valid, rfl⟩
      exact decode_encode valid
  refine ⟨exact_iff, fun leadIn valid => ⟨length_encode leadIn, decode_encode valid⟩, ?_, ?_⟩
  · intro bytes leadIn whole decoded flag counted
    obtain ⟨-, rfl⟩ := (exact_iff bytes leadIn whole).1 decoded
    exact (flagAt_encode leadIn counted).symm
  · intro leadIn
    rw [order_eq_big_iff, flagAt_encode leadIn (by decide)]

/-- A lead-in with all flags set, in the big order, whose writer never finished the segment. -/
def sampleBytes : List UInt8 :=
  [0x54, 0x44, 0x53, 0x6d, 255, 255, 255, 255, 0, 0, 18, 105, 255, 255, 255, 255, 255, 255, 255,
    255, 0, 0, 0, 0, 0, 0, 0, 5]

theorem decode_inverts_encode_sample :
    ∃ leadIn, decode sampleBytes = .ok leadIn ∧ leadIn.encode = sampleBytes ∧
      decode leadIn.encode = .ok leadIn ∧ leadIn.contents.bits.toNat.testBit 31 = true := by
  have read : decode sampleBytes = .ok ⟨⟨0xFFFFFFFF⟩, 4713, unfinished, 5⟩ := by decide +kernel
  obtain ⟨exact_iff, back, flags, -⟩ := decode_inverts_encode
  obtain ⟨valid, spelled⟩ := (exact_iff _ _ rfl).1 read
  exact ⟨_, read, spelled, (back _ valid).2, flags _ _ rfl read 31 (by decide)⟩

end LeadIn

end Tdms
