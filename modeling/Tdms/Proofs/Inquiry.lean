import Mathlib
import Tdms.Error
import Tdms.Proofs.Window

/-!
Inquiries: programs that ask a source for bytes, read by read.

An inquiry is either done, with an answer or an error, or it asks for one read
and goes on with what the source says to that. Running it on a source gives the
outcome, and `requests` lists the reads on the way there. What an inquiry may
ask for is a property of the inquiry alone, whatever it is answered; two sources
that answer these reads alike lead to the same outcome.
-/

namespace Tdms

/-- A read by position. -/
structure Request where
  offset : Nat
  length : Nat
  deriving DecidableEq, Repr

namespace Request

/-- What a source says to the read. -/
def answer (source : Source) (request : Request) : Except Source.Fault ByteArray :=
  source.read request.offset request.length

/-- The read ends no later than `size` bytes do. -/
def Inside (size : Nat) (request : Request) : Prop :=
  request.offset + request.length ≤ size

/-- Inside the content, a source that grants all reads there shows the content. -/
theorem Inside.answer_eq {source : Source} {content : ByteArray} {request : Request}
    (inside : request.Inside content.size) (grants : source.Grants content) :
    request.answer source = .ok (window content request.offset request.length) :=
  grants.read_eq _ _ inside

end Request

/-- A program that asks for bytes until it has an outcome. -/
inductive Inquiry (α : Type) where
  | done (outcome : Except Error α)
  | ask (request : Request) (next : Except Source.Fault ByteArray → Inquiry α)

namespace Inquiry

variable {α β σ ι : Type} {source other : Source}

/-! ## Building inquiries -/

/-- Goes on with the answer of an inquiry, if it has one. -/
def bind (inquiry : Inquiry α) (next : α → Inquiry β) : Inquiry β :=
  match inquiry with
  | done (.error error) => done (.error error)
  | done (.ok value) => next value
  | ask request more => ask request fun answer => (more answer).bind next

instance : Monad Inquiry where
  pure value := done (.ok value)
  bind := bind

/-- Asks for bytes. A fault is reported with what was being read. -/
def bytes (action : Action) (offset length : Nat) : Inquiry ByteArray :=
  ask ⟨offset, length⟩ fun
    | .ok bytes => done (.ok bytes)
    | .error fault => done (.error (.unreadable action fault))

/-- Takes the outcome of an inquiry for an answer, so that it can go on after an error. -/
def attempt : Inquiry α → Inquiry (Except Error α)
  | done outcome => done (.ok outcome)
  | ask request next => ask request fun answer => (next answer).attempt

/-! ## Running inquiries -/

/-- The outcome of an inquiry that is made at a source. -/
def run (source : Source) : Inquiry α → Except Error α
  | done outcome => outcome
  | ask request next => (next (request.answer source)).run source

/-- The reads of an inquiry that is made at a source, one after another. -/
def requests (source : Source) : Inquiry α → List Request
  | done _ => []
  | ask request next => request :: (next (request.answer source)).requests source

theorem run_bind (inquiry : Inquiry α) (next : α → Inquiry β) :
    (inquiry >>= next).run source =
      inquiry.run source >>= fun value => (next value).run source := by
  induction inquiry with
  | done outcome =>
    cases outcome with
    | error error => rfl
    | ok value => rfl
  | ask request more ih => exact ih (request.answer source)

/-- An inquiry whose answer is changed in the end answers with the changed one. -/
theorem run_bind_done (inquiry : Inquiry α) (change : α → β) :
    (inquiry >>= fun value => done (.ok (change value))).run source =
      (inquiry.run source).map change := by
  rw [run_bind]
  cases inquiry.run source with
  | error error => rfl
  | ok value => rfl

theorem run_bytes (action : Action) (offset length : Nat) :
    (bytes action offset length).run source =
      match source.read offset length with
      | .ok bytes => .ok bytes
      | .error fault => .error (.unreadable action fault) := by
  rw [bytes, run, Request.answer]
  dsimp only
  cases source.read offset length with
  | ok bytes => rfl
  | error fault => rfl

theorem run_attempt (inquiry : Inquiry α) :
    inquiry.attempt.run source = .ok (inquiry.run source) := by
  induction inquiry with
  | done outcome => rfl
  | ask request next ih => exact ih (request.answer source)

/-- A fold of inquiries runs as the fold of what they run as. -/
theorem run_foldlM {step : σ → ι → Inquiry σ} {plain : σ → ι → Except Error σ} {items : List ι}
    (same : ∀ item ∈ items, ∀ state, (step state item).run source = plain state item) (state : σ) :
    (items.foldlM step state).run source = items.foldlM plain state := by
  induction items generalizing state with
  | nil => rfl
  | cons item rest ih =>
    rcases List.forall_mem_cons.1 same with ⟨one, others⟩
    rw [List.foldlM_cons, List.foldlM_cons, run_bind, one]
    congr 1
    funext next
    exact ih others next

/-! ## What inquiries ask for -/

/-- Whatever it is answered, the inquiry asks for nothing but allowed reads. -/
def AsksOnly (allowed : Request → Prop) : Inquiry α → Prop
  | done _ => True
  | ask request next => allowed request ∧ ∀ answer, (next answer).AsksOnly allowed

variable {allowed : Request → Prop} {inquiry : Inquiry α}

theorem AsksOnly.bind {next : α → Inquiry β} (first : inquiry.AsksOnly allowed)
    (later : ∀ value, (next value).AsksOnly allowed) : (inquiry >>= next).AsksOnly allowed := by
  induction inquiry with
  | done outcome =>
    cases outcome with
    | error error => trivial
    | ok value => exact later value
  | ask request more ih => exact ⟨first.1, fun answer => ih answer (first.2 answer)⟩

theorem AsksOnly.bytes {offset length : Nat} (fits : allowed ⟨offset, length⟩) (action : Action) :
    (Inquiry.bytes action offset length).AsksOnly allowed := by
  refine ⟨fits, fun answer => ?_⟩
  cases answer with
  | ok bytes => trivial
  | error fault => trivial

theorem AsksOnly.attempt (first : inquiry.AsksOnly allowed) : inquiry.attempt.AsksOnly allowed := by
  induction inquiry with
  | done outcome => trivial
  | ask request next ih => exact ⟨first.1, fun answer => ih answer (first.2 answer)⟩

theorem AsksOnly.foldlM {step : σ → ι → Inquiry σ} {items : List ι}
    (steps : ∀ item ∈ items, ∀ state, (step state item).AsksOnly allowed) (state : σ) :
    (items.foldlM step state).AsksOnly allowed := by
  induction items generalizing state with
  | nil => trivial
  | cons item rest ih =>
    rcases List.forall_mem_cons.1 steps with ⟨one, others⟩
    rw [List.foldlM_cons]
    exact .bind (one state) (ih others)

/-- The reads of an inquiry are among those that it may ask for. -/
theorem AsksOnly.forall_requests (only : inquiry.AsksOnly allowed) (source : Source) :
    ∀ request ∈ inquiry.requests source, allowed request := by
  induction inquiry with
  | done outcome => nofun
  | ask request next ih => exact List.forall_mem_cons.2 ⟨only.1, ih _ (only.2 _)⟩

/-- Sources that answer all allowed reads alike lead to the same outcome. -/
theorem AsksOnly.run_congr (only : inquiry.AsksOnly allowed)
    (same : ∀ request, allowed request → request.answer source = request.answer other) :
    inquiry.run source = inquiry.run other := by
  induction inquiry with
  | done outcome => rfl
  | ask request next ih =>
    rw [run, run, same request only.1]
    exact ih _ (only.2 _)

end Inquiry

end Tdms
