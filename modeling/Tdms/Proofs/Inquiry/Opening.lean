import Mathlib
import Tdms.Catalogue.Build
import Tdms.Proofs.Inquiry
import Tdms.Proofs.Outcome
import Tdms.Proofs.Segment

/-!
Opening a source, read by read.

`Catalogue.ask` is the inquiry that opens a source of which only the length is
known: it asks for a lead-in, then for the metadata of that segment, takes the
segment up, and goes on behind it. It comes to what `Catalogue.build` answers
with at every source of that length, although that scans all segments before it
takes up the first. Whatever it is answered, it asks for nothing behind the end.
-/

namespace Tdms

namespace Segment

variable {source : Source} {length offset ordinal : Nat}

/-! ## One segment -/

/-- Asks for the lead-in of the segment at `offset`, unless the source ends before. -/
def askLeadIn (length offset : Nat) : Inquiry (Option LeadIn) :=
  if length ≤ offset then .done (.ok none)
  else if length < offset + leadInLength then
    .done (.error (.truncated offset (offset + leadInLength) length))
  else do
    let bytes ← .bytes (.leadIn offset) offset leadInLength
    match LeadIn.decode bytes.data.toList with
    | .error fault => .done (.error (.corruptHeader offset (.leadIn fault)))
    | .ok leadIn => .done (.ok (some leadIn))

/-- Asks for the metadata of the segment at `offset`, if it has any. -/
def askMetadata (offset : Nat) (leadIn : LeadIn) : Inquiry (Option ByteArray) :=
  if leadIn.contents.hasMetadata then do
    let bytes ←
      .bytes (.metadata offset) (offset + leadInLength) leadIn.rawDataOffset.toNat
    .done (.ok (some bytes))
  else .done (.ok none)

/-- A segment that was found at `offset`, with the place where the next one starts. -/
structure Found (length offset : Nat) where
  segment : Segment
  next : Nat
  after : offset + leadInLength ≤ next
  inside : next ≤ length

/-- Asks for the segment at `offset`. -/
def ask (length offset ordinal : Nat) : Inquiry (Option (Found length offset)) := do
  match ← askLeadIn length offset with
  | none => .done (.ok none)
  | some leadIn =>
    match bounded : bounds length offset leadIn with
    | .error error => .done (.error error)
    | .ok (next, data) => do
      let metadata ← askMetadata offset leadIn
      .done <| .ok <| some
        { segment :=
            { ordinal
              offset
              leadIn
              metadataOffset := offset + leadInLength
              metadata
              dataOffset := data
              dataLength := if leadIn.contents.hasRawData then next - data else 0 }
          next
          after := by
            rw [(bounds_eq_ok.1 bounded).1]
            exact Nat.le_add_right _ _
          inside := (bounds_eq_ok.1 bounded).2.2.2.2.1 }

theorem run_askLeadIn (source : Source) (offset : Nat) :
    (askLeadIn source.length offset).run source = readLeadIn source offset := by
  unfold askLeadIn readLeadIn
  split
  · rfl
  · split
    · rfl
    · rw [Inquiry.run_bind, Inquiry.run_bytes]
      cases source.read offset leadInLength with
      | error fault => rfl
      | ok bytes =>
        dsimp only
        rw [Outcome.ok_bind]
        cases LeadIn.decode bytes.data.toList with
        | error fault => rfl
        | ok leadIn => rfl

theorem run_askMetadata (source : Source) (offset : Nat) (leadIn : LeadIn) :
    (askMetadata offset leadIn).run source = readMetadata source offset leadIn := by
  unfold askMetadata readMetadata
  split
  · rw [Inquiry.run_bind, Inquiry.run_bytes]
    cases source.read (offset + leadInLength) leadIn.rawDataOffset.toNat with
    | error fault => rfl
    | ok bytes => rfl
  · rfl

/-- Asking for a segment finds the one that is read, and the place where it ends. -/
theorem run_ask (source : Source) (offset ordinal : Nat) :
    ((ask source.length offset ordinal).run source).map
        (Option.map fun found => (found.segment, found.next)) =
      read source offset ordinal := by
  rw [ask, Inquiry.run_bind, run_askLeadIn, read]
  cases readLeadIn source offset with
  | error error => rfl
  | ok leadIn? =>
    cases leadIn? with
    | none => rfl
    | some leadIn =>
      rw [Outcome.ok_bind]
      dsimp only
      -- The proof of the bounds stands in what was found, so that they are not rewritten there.
      split
      · rename_i error refused
        simp only [refused]
        rfl
      · rename_i next data bounded
        simp only [bounded]
        rw [Inquiry.run_bind, run_askMetadata]
        cases readMetadata source offset leadIn with
        | error error => rfl
        | ok metadata => rfl

theorem askLeadIn_asksOnly (length offset : Nat) :
    (askLeadIn length offset).AsksOnly (Request.Inside length) := by
  unfold askLeadIn
  split
  · trivial
  · split
    · trivial
    · rename_i room
      refine .bind (.bytes (Nat.not_lt.1 room) _) fun bytes => ?_
      split
      · trivial
      · trivial

theorem askMetadata_asksOnly {leadIn : LeadIn}
    (inside : offset + leadInLength + leadIn.rawDataOffset.toNat ≤ length) :
    (askMetadata offset leadIn).AsksOnly (Request.Inside length) := by
  unfold askMetadata
  split
  · exact .bind (.bytes inside _) fun bytes => trivial
  · trivial

/-- Of a segment, nothing behind the end is asked for: the lead-in only where there is room, and
the metadata only after the bounds have been checked. -/
theorem ask_asksOnly (length offset ordinal : Nat) :
    (ask length offset ordinal).AsksOnly (Request.Inside length) := by
  refine .bind (askLeadIn_asksOnly length offset) fun leadIn? => ?_
  cases leadIn? with
  | none => trivial
  | some leadIn =>
    dsimp only
    split
    · trivial
    · rename_i next data bounded
      rcases bounds_eq_ok.1 bounded with ⟨-, rfl, -, -, -, inside⟩
      exact .bind (askMetadata_asksOnly inside) fun metadata => trivial

end Segment

namespace Catalogue

variable {source : Source} {recover : Bool} {length offset ordinal : Nat} {catalogue : Catalogue}

/-! ## All segments -/

/-- The answer when no more segments follow: all is well at the end of the source, and a truncated
segment is left out if the file may be recovered. -/
def conclude (recover : Bool) (catalogue : Catalogue) :
    Option Error → Except Error (Catalogue × Option Nat)
  | none => .ok (catalogue, none)
  | some (.truncated offset required available) =>
    if recover then .ok (catalogue, some offset)
    else .error (.truncated offset required available)
  | some error => .error error

/-- Asks for the segments from `offset` on, each of which is taken up before the next one. -/
def askFrom (length : Nat) (recover : Bool) (offset ordinal : Nat) (catalogue : Catalogue) :
    Inquiry (Catalogue × Option Nat) := do
  match ← (Segment.ask length offset ordinal).attempt with
  | .error error => .done (catalogue.conclude recover (some error))
  | .ok none => .done (catalogue.conclude recover none)
  | .ok (some found) =>
    match catalogue.apply found.segment with
    | .error error => .done (.error error)
    | .ok next => askFrom length recover found.next (ordinal + 1) next
termination_by length - offset
decreasing_by
  have after := found.after
  have inside := found.inside
  simp only [leadInLength] at after
  omega

/-- Opens a source of the given length. -/
def ask (length : Nat) (recover : Bool) : Inquiry (Catalogue × Option Nat) :=
  askFrom length recover 0 0 .empty

/-- The catalogue of some segments that were scanned, and the answer after them. -/
theorem build_eq_conclude (source : Source) (recover : Bool) :
    build source recover =
      (scan source).segments.foldlM apply empty >>= fun catalogue =>
        catalogue.conclude recover (scan source).error? := by
  rw [build]
  cases (scan source).segments.foldlM apply empty with
  | error error => rfl
  | ok catalogue => rfl

/-- Segments that are taken up one by one lead where all segments of the scan do. -/
theorem run_askFrom (source : Source) (recover : Bool) (offset ordinal : Nat)
    (catalogue : Catalogue) :
    (askFrom source.length recover offset ordinal catalogue).run source =
      (scanFrom source offset ordinal).segments.foldlM apply catalogue >>= fun final =>
        final.conclude recover (scanFrom source offset ordinal).error? := by
  fun_induction scanFrom source offset ordinal generalizing catalogue with
  | case1 offset ordinal error failed =>
    have asked := Segment.run_ask source offset ordinal
    rw [failed, Outcome.map_eq_error] at asked
    rw [askFrom, Inquiry.run_bind, Inquiry.run_attempt, asked]
    rfl
  | case2 offset ordinal ended =>
    have asked := Segment.run_ask source offset ordinal
    rw [ended] at asked
    rcases Outcome.map_eq_ok.1 asked with ⟨found?, answer, none⟩
    cases found? with
    | some found => cases none
    | none =>
      rw [askFrom, Inquiry.run_bind, Inquiry.run_attempt, answer]
      rfl
  | case3 offset ordinal segment next read rest ih =>
    have asked := Segment.run_ask source offset ordinal
    rw [read] at asked
    rcases Outcome.map_eq_ok.1 asked with ⟨found?, answer, some⟩
    cases found? with
    | none => cases some
    | some found =>
      cases some
      rw [askFrom, Inquiry.run_bind, Inquiry.run_attempt, answer, List.foldlM_cons,
        Outcome.ok_bind]
      dsimp only
      cases catalogue.apply found.segment with
      | error error => rfl
      | ok next => exact ih next

/-- Opening read by read answers as `build` does. -/
theorem run_ask (source : Source) (recover : Bool) :
    (ask source.length recover).run source = build source recover := by
  rw [ask, run_askFrom, build_eq_conclude]
  rfl

theorem askFrom_asksOnly (length : Nat) (recover : Bool) (offset ordinal : Nat)
    (catalogue : Catalogue) :
    (askFrom length recover offset ordinal catalogue).AsksOnly (Request.Inside length) := by
  fun_induction askFrom length recover offset ordinal catalogue with
  | case1 offset ordinal catalogue ih =>
    refine .bind (Segment.ask_asksOnly length offset ordinal).attempt fun outcome => ?_
    split
    · trivial
    · trivial
    · split
      · trivial
      · exact ih _ _

/-- Opening asks for nothing behind the end of the source, whatever it is answered. -/
theorem ask_asksOnly (length : Nat) (recover : Bool) :
    (ask length recover).AsksOnly (Request.Inside length) :=
  askFrom_asksOnly length recover 0 0 .empty

end Catalogue

end Tdms
