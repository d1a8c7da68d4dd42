import Mathlib
import Tdms.Metadata.Block
import Tdms.Proofs.Outcome

/-!
What readers of metadata guarantee of the values they take.

`bind_eq_ok` opens a reader that runs two readers in turn. On it rest the
`Yields` laws, which carry a property of the taken values through the grammar;
`declared_of_decode` is their result for a whole block: every raw data index
that a block declares is well formed.
-/

namespace Tdms.Metadata

namespace Reader

variable {α β : Type} {cursor next : Cursor}

/-! ## Readers in turn -/

theorem bind_eq_ok {read : Reader α} {rest : α → Reader β} {result : β × Cursor} :
    (read >>= rest) cursor = .ok result ↔
      ∃ value middle, read cursor = .ok (value, middle) ∧ rest value middle = .ok result := by
  change (read cursor >>= fun taken => rest taken.1 taken.2) = .ok result ↔ _
  cases read cursor with
  | error refusal => simp [bind, Except.bind]
  | ok taken =>
    obtain ⟨value, middle⟩ := taken
    simp [bind, Except.bind]

theorem map_eq_bind (change : α → β) (read : Reader α) :
    change <$> read = read >>= fun value => pure (change value) :=
  (bind_pure_comp change read).symm

/-! ## What a reader yields -/

/-- Whatever a reader takes has a property. -/
def Yields (read : Reader α) (good : α → Prop) : Prop :=
  ∀ cursor next value, read cursor = .ok (value, next) → good value

theorem Yields.pure {good : α → Prop} {value : α} (holds : good value) :
    Yields (pure value) good := by
  intro cursor next taken read
  cases read
  exact holds

theorem Yields.refuse {good : α → Prop} (refusal : Refusal) :
    Yields (fun _ => .error refusal) good := by
  intro cursor next taken read
  cases read

theorem Yields.bind {read : Reader α} {rest : α → Reader β} {good : β → Prop}
    (later : ∀ value, Yields (rest value) good) : Yields (read >>= rest) good := by
  intro cursor next taken read
  obtain ⟨value, middle, -, second⟩ := bind_eq_ok.1 read
  exact later value _ _ _ second

/-- A property of the first value may be used for the second. -/
theorem Yields.bind_of {read : Reader α} {rest : α → Reader β} {first : α → Prop}
    {good : β → Prop} (early : Yields read first)
    (later : ∀ value, first value → Yields (rest value) good) : Yields (read >>= rest) good := by
  intro cursor next taken read
  obtain ⟨value, middle, opening, second⟩ := bind_eq_ok.1 read
  exact later value (early _ _ _ opening) _ _ _ second

theorem Yields.map {read : Reader α} {change : α → β} {good : β → Prop}
    (holds : Yields read fun value => good (change value)) : Yields (change <$> read) good := by
  rw [map_eq_bind]
  exact holds.bind_of fun _ good => .pure good

theorem Yields.many {read : Reader α} {good : α → Prop} (each : Yields read good) (count : Nat) :
    Yields (many read count) fun values => ∀ value ∈ values, good value := by
  induction count with
  | zero => exact .pure (by simp)
  | succ count ih =>
    refine each.bind_of fun first holds => ih.bind_of fun rest others => .pure ?_
    exact List.forall_mem_cons.2 ⟨holds, others⟩

/-! ## Declarations -/

theorem rawIndex_yields (order : ByteOrder) (path : String) :
    Yields (rawIndex order path) RawIndex.WellFormed := by
  refine .bind fun code => .bind fun type => .bind fun dimension => ?_
  by_cases one : dimension ≠ 1
  · simp only [if_pos one]
    exact .refuse _
  · simp only [if_neg one]
    refine .bind fun count => ?_
    cases fixed : type.width? with
    | some width =>
      by_cases fits : count.toNat * width < UInt64.size
      · simp only [if_pos fits]
        refine .pure ⟨count.toNat_lt_size, fits, ?_⟩
        simp only [fixed]
      · simp only [if_neg fits]
        exact .refuse _
    | none =>
      refine .bind fun size => ?_
      by_cases room : 4 * count.toNat ≤ size.toNat
      · simp only [if_pos room]
        refine .pure ⟨count.toNat_lt_size, size.toNat_lt_size, ?_⟩
        simpa only [fixed] using room
      · simp only [if_neg room]
        exact .refuse _

/-- If the declaration declares a raw data index, it is well formed. -/
def declaresWell : Declaration → Prop
  | .noData | .matchesPrevious => True
  | .new index => index.WellFormed

theorem declaration_yields (order : ByteOrder) (path : String) :
    Yields (declaration order path) declaresWell := by
  refine .bind fun header => ?_
  by_cases absent : header = noDataHeader
  · simp only [if_pos absent]
    exact .pure trivial
  · by_cases again : header = matchesPreviousHeader
    · simp only [if_neg absent, if_pos again]
      exact .pure trivial
    · by_cases device : header ∈ deviceHeaders
      · simp only [if_neg absent, if_neg again, if_pos device]
        exact .refuse _
      · simp only [if_neg absent, if_neg again, if_neg device]
        have well : Yields (rawIndex order path) fun index => declaresWell (.new index) :=
          rawIndex_yields order path
        exact well.map

theorem record_yields (order : ByteOrder) :
    Yields (record order) fun taken => declaresWell taken.declaration := by
  refine .bind fun path => ?_
  cases ObjectPath.parse? path with
  | none => exact .refuse _
  | some object =>
    refine (declaration_yields order path).bind_of fun declaration well => ?_
    exact .bind fun count => .bind fun properties => .pure well

end Reader

/-- Every raw data index that a metadata block declares is well formed. -/
theorem declared_of_decode {order : ByteOrder} {bytes : List UInt8} {records : List Record}
    (read : decode order bytes = .ok records) {record : Record} (listed : record ∈ records)
    {index : RawIndex} (declares : record.declaration = .new index) : index.WellFormed := by
  obtain ⟨taken, parsed, rfl⟩ := Outcome.map_eq_ok.1 read
  have well : Reader.Yields (Reader.records order) fun records =>
      ∀ record ∈ records, Reader.declaresWell record.declaration :=
    .bind fun count => (Reader.record_yields order).many _
  have holds := well _ _ _ parsed record listed
  rwa [declares] at holds

end Tdms.Metadata
