import Tdms.Bytes.Window

/-!
Sources: places from which bytes are read by position.

Every source answers a read with exactly the bytes asked for or with a fault.
Memory and mapped files check the asked range first. A file that is read by
position gives what is there and fails if the bytes end before the read is full,
so that it grants a read of no bytes anywhere. A folder can be opened in the
place of such a file, and reports a length, but no bytes can be read of it.
-/

namespace Tdms

/-- Why bytes could not be read. -/
inductive Source.Fault where
  /-- The path names nothing. -/
  | missing
  /-- The file may not be read. -/
  | denied
  /-- The path goes on after a file. -/
  | notFolder
  /-- The path or a name in it is too long. -/
  | nameTooLong
  /-- The path leads to a folder. -/
  | folder
  /-- The path leads to a folder, which cannot be mapped. -/
  | unmappable
  /-- The asked range ends after the last byte. -/
  | pastEnd (wanted offset length : Nat)
  /-- The bytes ended before the read was full. -/
  | unfilled
  /-- The asked range ends after all positions that a file can have. -/
  | unaddressable
  deriving DecidableEq, Repr

/-- A place from which bytes are read by position. -/
structure Source where
  /-- What the source is called in messages. -/
  describe : String
  /-- The number of bytes that the source reports. -/
  length : Nat
  /-- The `wanted` bytes from `offset` on. -/
  read : (offset wanted : Nat) → Except Source.Fault ByteArray
  /-- A read that is granted is full. -/
  size_of_read : ∀ {offset wanted : Nat} {bytes : ByteArray},
    read offset wanted = .ok bytes → bytes.size = wanted

namespace Source

/-- The sentence that reports a fault. -/
def Fault.message : Fault → String
  | .missing => "No such file or directory (os error 2)"
  | .denied => "Permission denied (os error 13)"
  | .notFolder => "Not a directory (os error 20)"
  | .nameTooLong => "File name too long (os error 36)"
  | .folder => "Is a directory (os error 21)"
  | .unmappable => "No such device (os error 19)"
  | .pastEnd wanted offset length =>
    s!"read of {wanted} bytes at offset {offset} runs past end of source ({length} bytes)"
  | .unfilled => "failed to fill whole buffer"
  | .unaddressable => "Invalid argument (os error 22)"

/-- Whether a source reports no bytes. -/
def isEmpty (source : Source) : Bool :=
  source.length == 0

/-! ## Reads -/

/-- Reads a range that must lie inside the content, even if it is empty. -/
def readChecked (content : ByteArray) (offset wanted : Nat) : Except Fault ByteArray :=
  if offset + wanted ≤ content.size then .ok (window content offset wanted)
  else .error (.pastEnd wanted offset content.size)

theorem size_of_readChecked {content : ByteArray} {offset wanted : Nat} {bytes : ByteArray}
    (found : readChecked content offset wanted = .ok bytes) : bytes.size = wanted := by
  unfold readChecked at found
  split at found
  · rename_i inside
    cases found
    exact size_window inside
  · cases found

/-- No range of a file ends at this position, 2^63, or after it. -/
def positionLimit : Nat := UInt64.size / 2

/-- Reads what is there and fails unless it is all that was wanted. -/
def readUntilFull (content : ByteArray) (offset wanted : Nat) : Except Fault ByteArray :=
  let found := window content offset wanted
  if found.size = wanted then .ok found
  else if positionLimit ≤ offset + wanted then .error .unaddressable
  else .error .unfilled

theorem size_of_readUntilFull {content : ByteArray} {offset wanted : Nat} {bytes : ByteArray}
    (found : readUntilFull content offset wanted = .ok bytes) : bytes.size = wanted := by
  unfold readUntilFull at found
  dsimp only at found
  split at found
  · cases found
    assumption
  · split at found
    · cases found
    · cases found

/-- Reads of a folder, where only no bytes can be read. -/
def readNothing (offset wanted : Nat) : Except Fault ByteArray :=
  if wanted = 0 then .ok .empty
  else if positionLimit ≤ offset + wanted then .error .unaddressable
  else .error .folder

theorem size_of_readNothing {offset wanted : Nat} {bytes : ByteArray}
    (found : readNothing offset wanted = .ok bytes) : bytes.size = wanted := by
  unfold readNothing at found
  split at found
  · rename_i nothing
    cases found
    exact nothing.symm
  · split at found
    · cases found
    · cases found

/-! ## Bytes, files and folders -/

/-- Bytes held in memory. -/
def ofBytes (content : ByteArray) : Source where
  describe := s!"<memory, {content.size} bytes>"
  length := content.size
  read := readChecked content
  size_of_read := size_of_readChecked

@[simp]
theorem length_ofBytes (content : ByteArray) : (ofBytes content).length = content.size := rfl

/-- A file read by position. -/
def buffered (path : String) (content : ByteArray) : Source where
  describe := path
  length := content.size
  read := readUntilFull content
  size_of_read := size_of_readUntilFull

/-- A file mapped into memory. -/
def mapped (path : String) (content : ByteArray) : Source where
  describe := s!"{path} (mmap)"
  length := content.size
  read := readChecked content
  size_of_read := size_of_readChecked

/-- A folder in the place of a file that is read by position, with the length that the system
reports of it. -/
def folder (path : String) (length : Nat) : Source where
  describe := path
  length := length
  read := readNothing
  size_of_read := size_of_readNothing

instance : Inhabited Source :=
  ⟨ofBytes .empty⟩

end Source

end Tdms
