import Mathlib
import Tdms.Export.Parcel
import Tdms.Bytes.Spelling
import Tdms.Proofs.Cell
import Tdms.Proofs.Window

/-!
Columns taken out of their buffers again.

Elements of one width, truth values and strings each come back from the buffer
that they were packed into. An offset of a string takes four bytes, so strings
come back as long as their text is not too long for that. `Column.unpack?_pack`
says so of a column of any type.
-/

namespace Tdms.Export

/-! ## Elements of one width -/

section Fixed

variable {α : Type} {bytes : α → List UInt8} {width : Nat} {elements : List α}

theorem length_flatMap_of_width (wide : ∀ value ∈ elements, (bytes value).length = width) :
    (elements.flatMap bytes).length = elements.length * width := by
  rw [List.length_flatMap, List.map_congr_left wide, List.map_const', List.sum_replicate,
    smul_eq_mul]

/-- An element stands behind as many others as there are before it. -/
theorem window_packFixed (wide : ∀ value ∈ elements, (bytes value).length = width) {index : Nat}
    (inside : index < elements.length) :
    (window (packFixed bytes elements) (index * width) width).data.toList =
      bytes elements[index] := by
  have whole : (packFixed bytes elements).data.toList =
      (elements.take index).flatMap bytes ++
        (bytes elements[index] ++ (elements.drop (index + 1)).flatMap bytes) := by
    rw [packFixed, List.data_toByteArray, ← List.flatMap_cons, List.getElem_cons_drop,
      ← List.flatMap_append, List.take_append_drop]
  have before : ((elements.take index).flatMap bytes).length = index * width := by
    rw [length_flatMap_of_width fun value listed => wide value (List.mem_of_mem_take listed),
      List.length_take_of_le inside.le]
  exact window_of_append whole before (wide _ (List.getElem_mem inside))

theorem unpackFixed_packFixed {element : List UInt8 → α}
    (wide : ∀ value ∈ elements, (bytes value).length = width)
    (back : ∀ value ∈ elements, element (bytes value) = value) :
    unpackFixed width element elements.length (packFixed bytes elements) = elements := by
  refine List.ext_getElem (by rw [unpackFixed, List.length_map, List.length_range]) ?_
  intro index _ inside
  simp only [unpackFixed, List.getElem_map, List.getElem_range]
  rw [window_packFixed wide inside, back _ (List.getElem_mem inside)]

end Fixed

/-! A number comes back from its bytes in the little order. -/

theorem uint8_littleBytes (number : UInt8) :
    UInt8.ofNat (littleValue (littleBytes 1 number.toNat)) = number := by
  rw [littleValue_littleBytes number.toNat_lt, UInt8.ofNat_toNat]

theorem uint16_littleBytes (number : UInt16) :
    UInt16.ofNat (littleValue (littleBytes 2 number.toNat)) = number := by
  rw [littleValue_littleBytes number.toNat_lt, UInt16.ofNat_toNat]

theorem uint32_littleBytes (number : UInt32) :
    UInt32.ofNat (littleValue (littleBytes 4 number.toNat)) = number :=
  ByteOrder.little.uint32_bytes number

theorem uint64_littleBytes (number : UInt64) :
    UInt64.ofNat (littleValue (littleBytes 8 number.toNat)) = number :=
  ByteOrder.little.uint64_bytes number

/-! ## Truth values -/

theorem testBit_bitsValue (bits : Nat → Bool) (count bit : Nat) :
    (bitsValue bits count).testBit bit = (decide (bit < count) && bits bit) := by
  induction count generalizing bits bit with
  | zero => simp [bitsValue]
  | succ count ih =>
    have first := (bits 0).toNat_le
    cases bit with
    | zero =>
      have low : ((bits 0).toNat + 2 * bitsValue (fun bit => bits (bit + 1)) count) % 2 =
          (bits 0).toNat := by omega
      rw [bitsValue, Nat.testBit_zero, low]
      cases bits 0 <;> rfl
    | succ bit =>
      have rest : ((bits 0).toNat + 2 * bitsValue (fun bit => bits (bit + 1)) count) / 2 =
          bitsValue (fun bit => bits (bit + 1)) count := by omega
      rw [bitsValue, Nat.testBit_succ, rest, ih]
      simp only [Nat.add_lt_add_iff_right]

theorem bitsValue_lt (bits : Nat → Bool) (count : Nat) : bitsValue bits count < 2 ^ count := by
  induction count generalizing bits with
  | zero => exact Nat.one_pos
  | succ count ih =>
    have first := (bits 0).toNat_le
    have rest := ih fun bit => bits (bit + 1)
    rw [bitsValue, pow_succ]
    omega

theorem testBit_packByte (bits : Nat → Bool) {bit : Nat} (inside : bit < 8) :
    (packByte bits).toNat.testBit bit = bits bit := by
  rw [packByte, UInt8.toNat_ofNat', Nat.mod_eq_of_lt (bitsValue_lt bits 8), testBit_bitsValue,
    decide_eq_true inside, Bool.true_and]

theorem unpackBits_packBits (bits : List Bool) : unpackBits bits.length (packBits bits) = bits := by
  refine List.ext_getElem (by rw [unpackBits, List.length_map, List.length_range]) ?_
  intro index _ inside
  have byte : index / 8 < (bits.length + 7) / 8 := by omega
  have place : index / 8 * 8 + index % 8 = index := by omega
  have packed : (packBits bits).data[index / 8]? =
      some (packByte fun bit => bits[index / 8 * 8 + bit]?.getD false) := by
    simp [packBits, List.data_toByteArray, byte]
  simp only [unpackBits, List.getElem_map, List.getElem_range]
  rw [packed, Option.getD_some, testBit_packByte _ (by omega), place,
    List.getElem?_eq_getElem inside, Option.getD_some]

/-! ## Strings -/

/-- Bytes of all the texts together. -/
def textSize (texts : List String) : Nat :=
  (texts.map String.utf8ByteSize).sum

theorem length_stringOffsets (start : Nat) (texts : List String) :
    (stringOffsets start texts).length = texts.length + 1 := by
  induction texts generalizing start with
  | nil => rfl
  | cons text rest ih => rw [stringOffsets, List.length_cons, ih, List.length_cons]

theorem le_of_mem_stringOffsets {start offset : Nat} {texts : List String}
    (listed : offset ∈ stringOffsets start texts) : offset ≤ start + textSize texts := by
  induction texts generalizing start with
  | nil => exact (List.mem_singleton.1 listed).le.trans (Nat.le_add_right _ _)
  | cons text rest ih =>
    have size : textSize (text :: rest) = text.utf8ByteSize + textSize rest := List.sum_cons
    rcases List.mem_cons.1 listed with same | later
    · omega
    · have last := ih later
      omega

theorem exists_stringOffsets_cons (start : Nat) (texts : List String) :
    ∃ later, stringOffsets start texts = start :: later := by
  cases texts with
  | nil => exact ⟨[], rfl⟩
  | cons text rest => exact ⟨_, rfl⟩

theorem fromUTF8?_toUTF8 (text : String) : String.fromUTF8? text.toUTF8 = some text :=
  dif_pos text.isValidUTF8

/-- Strings come back from behind any other text. -/
theorem unpackStrings?_join (before : ByteArray) (texts : List String) :
    unpackStrings? (before ++ (String.join texts).toUTF8) (stringOffsets before.size texts) =
      some texts := by
  induction texts generalizing before with
  | nil => rfl
  | cons text rest ih =>
    have size : (before ++ text.toUTF8).size = before.size + text.utf8ByteSize :=
      ByteArray.size_append
    have joined : (String.join (text :: rest)).toUTF8 =
        text.toUTF8 ++ (String.join rest).toUTF8 := by
      rw [String.join_cons]
      exact String.toByteArray_append
    have first : (before ++ (text.toUTF8 ++ (String.join rest).toUTF8)).extract before.size
        (before.size + text.utf8ByteSize) = text.toUTF8 :=
      eq_of_toList (window_of_append (by rw [toList_append, toList_append])
        (size_of_toList rfl).symm (size_of_toList rfl).symm)
    have later := ih (before ++ text.toUTF8)
    obtain ⟨others, ends⟩ := exists_stringOffsets_cons (before.size + text.utf8ByteSize) rest
    rw [ByteArray.append_assoc, size, ends] at later
    rw [joined, stringOffsets, ends, unpackStrings?, first, fromUTF8?_toUTF8]
    dsimp only
    rw [later, Option.map_some]

/-! ## Columns -/

/-- A column comes back out of its buffers, as long as its strings are shorter than the offsets
can tell. -/
theorem unpackColumn?_packBuffers (column : Column)
    (short : ∀ texts, column = ⟨.utf8, texts⟩ → textSize texts < 2 ^ 31) :
    unpackColumn? column.length column.type (packBuffers column) = some column := by
  obtain ⟨type, elements⟩ := column
  unfold Column.length
  cases type with
  | null =>
    have all : elements = List.replicate elements.length () :=
      List.eq_replicate_of_mem fun _ _ => rfl
    exact congrArg (fun values => some (Column.mk .null values)) all.symm
  | boolean =>
    exact congrArg (fun values => some (Column.mk .boolean values)) (unpackBits_packBits elements)
  | utf8 =>
    have offsets : unpackFixed 4 littleValue (elements.length + 1)
        (packFixed (littleBytes 4) (stringOffsets 0 elements)) = stringOffsets 0 elements := by
      rw [← length_stringOffsets 0]
      refine unpackFixed_packFixed (fun offset _ => length_littleBytes 4 offset) ?_
      intro offset listed
      have inside := le_of_mem_stringOffsets listed
      have small := short elements rfl
      exact littleValue_littleBytes (by omega)
    have texts := unpackStrings?_join .empty elements
    rw [ByteArray.empty_append, ByteArray.size_empty, ← offsets] at texts
    exact congrArg (Option.map (Column.mk .utf8)) texts
  | _ =>
    refine congrArg (fun values => some (Column.mk _ values))
      (unpackFixed_packFixed (fun _ _ => length_littleBytes _ _) fun value _ => ?_)
    simp only [uint8_littleBytes, uint16_littleBytes, uint32_littleBytes, uint64_littleBytes,
      Int8.toInt8_toUInt8, Int16.toInt16_toUInt16, Int32.toInt32_toUInt32, Int64.toInt64_toUInt64]

/-- A packed column is unpacked as it was. -/
theorem Column.unpack?_pack (column : Column)
    (short : ∀ texts, column = ⟨.utf8, texts⟩ → textSize texts < 2 ^ 31) :
    column.pack.unpack? = some column := by
  unfold Parcel.unpack? Column.pack
  dsimp only
  rw [ColumnType.ofFormat?_format]
  exact unpackColumn?_packBuffers column short

end Tdms.Export
