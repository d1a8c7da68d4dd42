/-!
Reading text in UTF-8, and naming the first place where bytes are not UTF-8.

A fault counts the bytes of the well-formed text before it. It then tells
either how many bytes start a character that the next byte rules out, or that
the input ends inside a character that was well formed so far.
-/

namespace Tdms.Utf8

/-- The first place where bytes stop being UTF-8. -/
structure Fault where
  /-- Bytes of well-formed text before the fault. -/
  validLength : Nat
  /-- Bytes of the broken character, or `none` if the input ends inside it. -/
  brokenLength? : Option Nat
  deriving DecidableEq, Repr

/-- The sentence that reports a fault. -/
def Fault.message (fault : Fault) : String :=
  match fault.brokenLength? with
  | some length =>
    s!"invalid utf-8 sequence of {length} bytes from index {fault.validLength}"
  | none => s!"incomplete utf-8 byte sequence from index {fault.validLength}"

/-- What a first byte asks of the bytes after it: how many continuation bytes follow, and the
least and the greatest value of the first of them. -/
structure Opening where
  owed : Nat
  low : UInt8
  high : UInt8

/-- What `byte` asks for at the start of a character, or `none` if no character starts with it. -/
def opening? (byte : UInt8) : Option Opening :=
  if byte < 0x80 then some ⟨0, 0x80, 0xBF⟩
  else if byte < 0xC2 then none
  else if byte < 0xE0 then some ⟨1, 0x80, 0xBF⟩
  else if byte = 0xE0 then some ⟨2, 0xA0, 0xBF⟩
  else if byte = 0xED then some ⟨2, 0x80, 0x9F⟩
  else if byte < 0xF0 then some ⟨2, 0x80, 0xBF⟩
  else if byte = 0xF0 then some ⟨3, 0x90, 0xBF⟩
  else if byte < 0xF4 then some ⟨3, 0x80, 0xBF⟩
  else if byte = 0xF4 then some ⟨3, 0x80, 0x8F⟩
  else none

/-- The first fault of bytes of which `start` belong to whole characters and `seen` to a
character that still owes what `asked` says. -/
def firstFault (start seen : Nat) (asked : Opening) : List UInt8 → Fault
  | [] => ⟨start, none⟩
  | byte :: rest =>
    match asked.owed with
    | 0 =>
      match opening? byte with
      | none => ⟨start, some 1⟩
      | some ⟨0, _, _⟩ => firstFault (start + 1) 0 ⟨0, 0x80, 0xBF⟩ rest
      | some next => firstFault start 1 next rest
    | owed + 1 =>
      if asked.low ≤ byte ∧ byte ≤ asked.high then
        match owed with
        | 0 => firstFault (start + seen + 1) 0 ⟨0, 0x80, 0xBF⟩ rest
        | owed + 1 => firstFault start (seen + 1) ⟨owed + 1, 0x80, 0xBF⟩ rest
      else ⟨start, some seen⟩

/-- The text that `bytes` spell, or the first fault. -/
def decode (bytes : List UInt8) : Except Fault String :=
  match String.fromUTF8? bytes.toByteArray with
  | some text => .ok text
  | none => .error (firstFault 0 0 ⟨0, 0x80, 0xBF⟩ bytes)

/-- The bytes that spell `text`. -/
def encode (text : String) : List UInt8 :=
  text.toUTF8.data.toList

/-- Bytes read as a text exactly when they are the bytes that spell it. -/
theorem decode_eq_ok_iff {bytes : List UInt8} {text : String} :
    decode bytes = .ok text ↔ bytes = encode text := by
  have spelled : bytes.toByteArray = text.toByteArray ↔ bytes = encode text := by
    rw [← List.toByteArray_inj]
    constructor
    · intro same
      rw [same]
      apply ByteArray.ext
      simp [encode, String.toUTF8]
    · intro same
      rw [same]
      apply ByteArray.ext
      simp [encode, String.toUTF8]
  rw [← spelled, decode, String.fromUTF8?]
  by_cases valid : bytes.toByteArray.IsValidUTF8
  · simp only [valid, dite_true, Except.ok.injEq]
    constructor
    · intro same
      rw [← same]
      rfl
    · intro same
      apply String.toByteArray_inj.1
      rw [← same]
      rfl
  · simp only [valid, dite_false, reduceCtorEq, false_iff]
    intro same
    exact valid (same ▸ text.isValidUTF8)

/-- Text is read back from the bytes that spell it. -/
theorem decode_encode (text : String) : decode (encode text) = .ok text :=
  decode_eq_ok_iff.2 rfl

end Tdms.Utf8
