import Mathlib
import Tdms.Proofs.Inquiry
import Tdms.Proofs.Outcome
import Tdms.Samples.Read

/-!
Reading a channel, read by read.

`Channel.ask` is the inquiry that reads all samples of a channel: it asks for
one chunk after another, in the order of the runs. It comes to what
`Channel.read` answers with at every source, and it asks for nothing but whole
chunks.
-/

namespace Tdms

variable {σ : Type} {source : Source} {allowed : Request → Prop}

/-! ## Chunks -/

/-- Carries `state` through the next `remaining` chunks of `run`, from chunk `chunk` on. -/
def Run.askChunks (run : Run) (step : σ → (offset : Nat) → Inquiry σ) :
    (remaining chunk : Nat) → σ → Inquiry σ
  | 0, _, state => .done (.ok state)
  | remaining + 1, chunk, state => do
    let next ← step state (run.chunkOffset chunk)
    run.askChunks step remaining (chunk + 1) next

theorem Run.run_askChunks (run : Run) {step : σ → Nat → Inquiry σ}
    {plain : σ → Nat → Except Error σ}
    (same : ∀ state offset, (step state offset).run source = plain state offset)
    (remaining chunk : Nat) (state : σ) :
    (run.askChunks step remaining chunk state).run source =
      run.foldChunks plain remaining chunk state := by
  induction remaining generalizing chunk state with
  | zero => rfl
  | succ remaining ih =>
    rw [askChunks, foldChunks, Inquiry.run_bind, same]
    cases plain state (run.chunkOffset chunk) with
    | error error => rfl
    | ok next => exact ih (chunk + 1) next

theorem Run.askChunks_asksOnly {run : Run} {step : σ → Nat → Inquiry σ} {remaining chunk : Nat}
    (steps : ∀ other < chunk + remaining, ∀ state,
      (step state (run.chunkOffset other)).AsksOnly allowed) (state : σ) :
    (run.askChunks step remaining chunk state).AsksOnly allowed := by
  induction remaining generalizing chunk state with
  | zero => trivial
  | succ remaining ih =>
    refine .bind (steps chunk (by omega) state) fun next => ih (fun other counted => ?_) next
    exact steps other (by omega)

namespace Channel

variable {channel : Channel}

/-- Carries `state` through all chunks of a channel in file order. -/
def askChunks (channel : Channel) (step : Run → σ → (offset : Nat) → Inquiry σ) (state : σ) :
    Inquiry σ :=
  channel.runs.foldlM (fun state run => run.askChunks (step run) run.chunkCount 0 state) state

theorem run_askChunks (channel : Channel) {step : Run → σ → Nat → Inquiry σ}
    {plain : Run → σ → Nat → Except Error σ}
    (same : ∀ run state offset, (step run state offset).run source = plain run state offset)
    (state : σ) :
    (channel.askChunks step state).run source = channel.foldChunks plain state :=
  Inquiry.run_foldlM (fun run _ state => run.run_askChunks (same run) run.chunkCount 0 state) state

theorem askChunks_asksOnly {step : Run → σ → Nat → Inquiry σ}
    (steps : ∀ run ∈ channel.runs, ∀ chunk < run.chunkCount, ∀ state,
      (step run state (run.chunkOffset chunk)).AsksOnly allowed) (state : σ) :
    (channel.askChunks step state).AsksOnly allowed := by
  refine .foldlM (fun run listed => run.askChunks_asksOnly fun chunk counted => ?_) state
  exact steps run listed chunk (by omega)

/-! ## Samples -/

/-- Asks for `length` bytes of a channel's samples. -/
def askBytes (channel : Channel) (offset length : Nat) : Inquiry ByteArray :=
  .bytes (.samples channel.path length offset) offset length

/-- Asks for the samples of a chunk, if the channel counts as many. -/
def askChunk (channel : Channel) (type : ScalarType) (run : Run) (filled : Array type.Value)
    (offset : Nat) : Inquiry (Array type.Value) :=
  if channel.sampleCount < filled.size + run.sampleCount then
    .done (.error (.corruptData channel.path offset .surplus))
  else do
    let bytes ← channel.askBytes offset (chunkLength run type.width)
    .done (.ok (filled ++ chunkValues run type bytes))

/-- Asks for all samples of a channel of fixed width. -/
def askFixed (channel : Channel) (type : ScalarType) : Inquiry (List type.Value) := do
  let filled ← channel.askChunks (channel.askChunk type) #[]
  .done (.ok (filled.toList ++ List.replicate (channel.sampleCount - filled.size) type.zero))

/-- Asks for the strings of a chunk. -/
def askTexts (channel : Channel) (run : Run) (found : Array String) (offset : Nat) :
    Inquiry (Array String) := do
  let chunk ← channel.askBytes offset run.byteLength
  match Samples.decodeStrings run.order run.sampleCount chunk with
  | .error fault => .done (.error (.corruptData channel.path offset fault))
  | .ok strings => .done (.ok (found ++ strings))

/-- Asks for all strings of a channel. -/
def askStrings (channel : Channel) : Inquiry (List String) := do
  let found ← channel.askChunks channel.askTexts #[]
  .done (.ok found.toList)

/-- Asks for all samples of a channel. -/
def ask (channel : Channel) : Inquiry Samples :=
  match channel.type with
  | none => .done (.ok .void)
  | some .string => do
    let strings ← channel.askStrings
    .done (.ok (.column .string strings))
  | some type => do
    let values ← channel.askFixed type
    .done (.ok (.column type values))

theorem run_askBytes (channel : Channel) (source : Source) (offset length : Nat) :
    (channel.askBytes offset length).run source = channel.readBytes source offset length := by
  rw [askBytes, Inquiry.run_bytes, readBytes]
  cases source.read offset length with
  | error fault => rfl
  | ok bytes => rfl

theorem run_askChunk (channel : Channel) (source : Source) (type : ScalarType) (run : Run)
    (filled : Array type.Value) (offset : Nat) :
    (channel.askChunk type run filled offset).run source =
      channel.addChunk source type run filled offset := by
  unfold askChunk addChunk
  split
  · rfl
  · rw [Inquiry.run_bind, run_askBytes]
    cases channel.readBytes source offset (chunkLength run type.width) with
    | error error => rfl
    | ok bytes => rfl

theorem run_askTexts (channel : Channel) (source : Source) (run : Run) (found : Array String)
    (offset : Nat) :
    (channel.askTexts run found offset).run source =
      channel.addStrings source run found offset := by
  rw [askTexts, addStrings, Inquiry.run_bind, run_askBytes]
  cases channel.readBytes source offset run.byteLength with
  | error error => rfl
  | ok chunk =>
    rw [Outcome.ok_bind]
    dsimp only
    cases Samples.decodeStrings run.order run.sampleCount chunk with
    | error fault => rfl
    | ok strings => rfl

/-- Asking for all samples of a channel answers as reading it does. -/
theorem run_ask (channel : Channel) (source : Source) :
    channel.ask.run source = channel.read source := by
  have fixed : ∀ type, (channel.askFixed type).run source = channel.readFixed source type := by
    intro type
    rw [askFixed, readFixed, Inquiry.run_bind_done,
      channel.run_askChunks (channel.run_askChunk source type)]
  have texts : channel.askStrings.run source = channel.readStrings source := by
    rw [askStrings, readStrings, Inquiry.run_bind_done,
      channel.run_askChunks (channel.run_askTexts source)]
  rw [ask, read]
  cases channel.type with
  | none => rfl
  | some type =>
    cases type with
    | string => rw [Inquiry.run_bind_done, texts]
    | _ => rw [Inquiry.run_bind_done, fixed]

/-- A channel is asked for its chunks and nothing else: from the start of a chunk, as many bytes
as its samples take. -/
theorem ask_asksOnly
    (samples : ∀ type, channel.type = some type → type ≠ .string → ∀ run ∈ channel.runs,
      ∀ chunk < run.chunkCount, allowed ⟨run.chunkOffset chunk, chunkLength run type.width⟩)
    (texts : channel.type = some .string → ∀ run ∈ channel.runs, ∀ chunk < run.chunkCount,
      allowed ⟨run.chunkOffset chunk, run.byteLength⟩) :
    channel.ask.AsksOnly allowed := by
  unfold ask
  split
  · trivial
  · rename_i typed
    refine .bind (.bind (askChunks_asksOnly (fun run listed chunk counted found => ?_) _)
      fun _ => trivial) fun _ => trivial
    refine .bind (.bytes (texts typed run listed chunk counted) _) fun bytes => ?_
    split
    · trivial
    · trivial
  · rename_i type notString typed
    refine .bind (.bind (askChunks_asksOnly (fun run listed chunk counted filled => ?_) _)
      fun _ => trivial) fun _ => trivial
    unfold askChunk
    split
    · trivial
    · exact .bind (.bytes (samples type typed notString run listed chunk counted) _)
        fun bytes => trivial

end Channel

end Tdms
