import Tdms.Catalogue
import Tdms.Samples
import Tdms.Scalar.Cell
import Tdms.Samples.Strings

/-!
Reading all samples of a channel.

The chunks of a channel's runs are read in file order, and the first fault
ends the reading. A column of fixed width has room for as many samples as the
channel counts, and what no run fills stays zero.
-/

namespace Tdms

/-- Carries `state` through the next `remaining` chunks of `run`, from chunk `chunk` on. -/
def Run.foldChunks {σ : Type} (run : Run) (step : σ → (offset : Nat) → Except Error σ) :
    (remaining chunk : Nat) → σ → Except Error σ
  | 0, _, state => .ok state
  | remaining + 1, chunk, state =>
    match step state (run.chunkOffset chunk) with
    | .error error => .error error
    | .ok next => run.foldChunks step remaining (chunk + 1) next

namespace Channel

/-- Carries `state` through all chunks of a channel in file order. -/
def foldChunks {σ : Type} (channel : Channel)
    (step : Run → σ → (offset : Nat) → Except Error σ) (state : σ) : Except Error σ :=
  channel.runs.foldlM (fun state run => run.foldChunks (step run) run.chunkCount 0 state) state

/-- Reads `length` bytes of a channel's samples. -/
def readBytes (channel : Channel) (source : Source) (offset length : Nat) :
    Except Error ByteArray :=
  match source.read offset length with
  | .error fault => .error (.unreadable (.samples channel.path length offset) fault)
  | .ok bytes => .ok bytes

/-- Bytes to read from the start of a chunk to get at its samples of the given width. -/
def chunkLength (run : Run) (width : Nat) : Nat :=
  if run.stride = width then run.sampleCount * width else run.byteLength

/-- The samples of one chunk that was read. -/
def chunkValues (run : Run) (type : ScalarType) (bytes : ByteArray) : List type.Value :=
  (List.range run.sampleCount).map fun sample =>
    type.ofCell run.order (window bytes (sample * run.stride) type.width).data.toList

/-- Adds the samples of the chunk of `run` at `offset` to those that were read before, if the
channel counts as many. -/
def addChunk (channel : Channel) (source : Source) (type : ScalarType) (run : Run)
    (filled : Array type.Value) (offset : Nat) : Except Error (Array type.Value) :=
  if channel.sampleCount < filled.size + run.sampleCount then
    .error (.corruptData channel.path offset .surplus)
  else
    match channel.readBytes source offset (chunkLength run type.width) with
    | .error error => .error error
    | .ok bytes => .ok (filled ++ chunkValues run type bytes)

/-- Reads all samples of a channel of fixed width. -/
def readFixed (channel : Channel) (source : Source) (type : ScalarType) :
    Except Error (List type.Value) :=
  (channel.foldChunks (channel.addChunk source type) #[]).map fun filled =>
    filled.toList ++ List.replicate (channel.sampleCount - filled.size) type.zero

/-- Adds the strings of the chunk of `run` at `offset` to those that were read before. -/
def addStrings (channel : Channel) (source : Source) (run : Run) (found : Array String)
    (offset : Nat) : Except Error (Array String) :=
  match channel.readBytes source offset run.byteLength with
  | .error error => .error error
  | .ok chunk =>
    match Samples.decodeStrings run.order run.sampleCount chunk with
    | .error fault => .error (.corruptData channel.path offset fault)
    | .ok strings => .ok (found ++ strings)

/-- Reads all strings of a channel. -/
def readStrings (channel : Channel) (source : Source) : Except Error (List String) :=
  (channel.foldChunks (channel.addStrings source) #[]).map Array.toList

/-- Reads all samples of a channel. -/
def read (channel : Channel) (source : Source) : Except Error Samples :=
  match channel.type with
  | none => .ok .void
  | some .string => (channel.readStrings source).map (.column .string)
  | some type => (channel.readFixed source type).map (.column type)

end Channel

end Tdms
