import Mathlib
import Tdms.Proofs.Export.Buffers
import Tdms.Proofs.Outcome
import Tdms.Proofs.Timestamp.Nanos

/-!
What a column holds of the samples that it is made of.

`Refused` names the samples that have no column, each with its error: complex
numbers, and moments of which one is too far from 1970 to count. Any other
samples are shown one by one by their column, and the parcel that the column is
packed into gives it back.
-/

namespace Tdms.Export

/-- The type of the columns of values of a type, if they have any. -/
def ColumnType.ofScalar? : ScalarType → Option ColumnType
  | .int8 => some .int8
  | .int16 => some .int16
  | .int32 => some .int32
  | .int64 => some .int64
  | .uint8 => some .uint8
  | .uint16 => some .uint16
  | .uint32 => some .uint32
  | .uint64 => some .uint64
  | .float32 => some .float32
  | .float64 => some .float64
  | .string => some .utf8
  | .boolean => some .boolean
  | .timestamp => some .timestamp
  | .complex64 | .complex128 => none

/-- An element of a column stands for a value: it is the value itself, or the nanoseconds of a
moment. -/
inductive Carries : (scalar : ScalarType) → (type : ColumnType) → scalar.Value → type.Element → Prop
  | int8 (value : Int8) : Carries .int8 .int8 value value
  | int16 (value : Int16) : Carries .int16 .int16 value value
  | int32 (value : Int32) : Carries .int32 .int32 value value
  | int64 (value : Int64) : Carries .int64 .int64 value value
  | uint8 (value : UInt8) : Carries .uint8 .uint8 value value
  | uint16 (value : UInt16) : Carries .uint16 .uint16 value value
  | uint32 (value : UInt32) : Carries .uint32 .uint32 value value
  | uint64 (value : UInt64) : Carries .uint64 .uint64 value value
  | float32 (value : Binary32) : Carries .float32 .float32 value value
  | float64 (value : Binary64) : Carries .float64 .float64 value value
  | string (value : String) : Carries .string .utf8 value value
  | boolean (value : Bool) : Carries .boolean .boolean value value
  | timestamp {moment : Timestamp} {nanos : Int64}
      (counted : moment.unixNanos? = some nanos.toInt) : Carries .timestamp .timestamp moment nanos

/-- A column shows samples one by one. -/
inductive Shows : Samples → Column → Prop
  | void : Shows .void ⟨.null, []⟩
  | column {scalar : ScalarType} {type : ColumnType} {values : List scalar.Value}
      {elements : List type.Element} (typed : ColumnType.ofScalar? scalar = some type)
      (each : List.Forall₂ (Carries scalar type) values elements) :
      Shows (.column scalar values) ⟨type, elements⟩

/-- The samples have no column, and an error that says why. -/
inductive Refused : Samples → Error → Prop
  | complex64 (values : List (Complex Binary32)) :
      Refused (.column .complex64 values) (.unsupportedExport .complex64)
  | complex128 (values : List (Complex Binary64)) :
      Refused (.column .complex128 values) (.unsupportedExport .complex128)
  /-- The first moment that has no nanoseconds. -/
  | timestamp {before : List Timestamp} {moment : Timestamp} (after : List Timestamp)
      (counted : ∀ earlier ∈ before, ∃ nanos, earlier.unixNanos? = some nanos)
      (uncounted : moment.unixNanos? = none) :
      Refused (.column .timestamp (before ++ moment :: after)) (.timestampRange moment.seconds)

/-- A parcel tells the type of a column and how many elements it has, none of them missing. -/
structure Parcel.Announces (parcel : Parcel) (column : Column) : Prop where
  type_eq : parcel.type = column.type
  format_eq : parcel.schema.format = column.type.format
  length_eq : parcel.array.length = column.length
  nullCount_eq : parcel.array.nullCount = 0
  offset_eq : parcel.array.offset = 0
  released_eq : parcel.released = false

variable {samples : Samples} {column : Column} {error : Error}

theorem Shows.length_eq (shows : Shows samples column) : column.length = samples.length := by
  cases shows with
  | void => rfl
  | column typed each => exact each.length_eq.symm

/-! ## Moments -/

/-- The nanoseconds of one moment, as a column of moments takes them. -/
def nanosOf (moment : Timestamp) : Except Error Int64 :=
  match moment.unixNanos? with
  | some nanos => .ok (Int64.ofInt nanos)
  | none => .error (.timestampRange moment.seconds)

theorem nanosOf_eq_ok_iff {moment : Timestamp} {nanos : Int64} :
    nanosOf moment = .ok nanos ↔ moment.unixNanos? = some nanos.toInt := by
  unfold nanosOf
  cases known : moment.unixNanos? with
  | none => simp
  | some number =>
    have exact := Timestamp.toInt_ofInt_unixNanos known
    rw [Except.ok.injEq, Option.some.injEq, ← Int64.toInt_inj, exact]

theorem nanosOf_eq_error_iff {moment : Timestamp} :
    nanosOf moment = .error error ↔
      moment.unixNanos? = none ∧ error = .timestampRange moment.seconds := by
  unfold nanosOf
  cases known : moment.unixNanos? with
  | none => simp [eq_comm]
  | some number => simp

theorem unixNanos_eq_ok_iff {moments : List Timestamp} {nanos : List Int64} :
    Column.unixNanos moments = .ok nanos ↔
      List.Forall₂ (fun moment value => moment.unixNanos? = some value.toInt) moments nanos := by
  change moments.mapM nanosOf = .ok nanos ↔ _
  simp only [Outcome.mapM_eq_ok_iff, nanosOf_eq_ok_iff]

/-- The first moment that cannot be counted is the one that the error names. -/
theorem unixNanos_eq_error_iff {moments : List Timestamp} :
    Column.unixNanos moments = .error error ↔ Refused (.column .timestamp moments) error := by
  change moments.mapM nanosOf = .error error ↔ _
  rw [Outcome.mapM_eq_error_iff]
  constructor
  · intro ⟨before, moment, after, whole, counted, failed⟩
    obtain ⟨uncounted, rfl⟩ := nanosOf_eq_error_iff.1 failed
    subst whole
    refine .timestamp after (fun earlier listed => ?_) uncounted
    obtain ⟨nanos, known⟩ := counted earlier listed
    exact ⟨_, nanosOf_eq_ok_iff.1 known⟩
  · intro refused
    cases refused with
    | timestamp after counted uncounted =>
      refine ⟨_, _, after, rfl, fun earlier listed => ?_, nanosOf_eq_error_iff.2 ⟨uncounted, rfl⟩⟩
      obtain ⟨nanos, known⟩ := counted earlier listed
      refine ⟨Int64.ofInt nanos, nanosOf_eq_ok_iff.2 ?_⟩
      rw [known, Timestamp.toInt_ofInt_unixNanos known]

/-! ## Samples -/

theorem ofSamples_eq_error_iff :
    Column.ofSamples samples = .error error ↔ Refused samples error := by
  cases samples with
  | void => exact iff_of_false nofun nofun
  | column type values =>
    cases type with
    | timestamp =>
      rw [← unixNanos_eq_error_iff, Column.ofSamples, Outcome.map_eq_error]
    | complex64 | complex128 =>
      constructor
      · intro failed
        cases failed
        constructor
      · intro refused
        cases refused
        rfl
    | _ => exact iff_of_false nofun nofun

theorem shows_of_ofSamples (made : Column.ofSamples samples = .ok column) :
    Shows samples column := by
  cases samples with
  | void =>
    cases made
    exact .void
  | column type values =>
    cases type with
    | timestamp =>
      obtain ⟨nanos, counted, rfl⟩ := Outcome.map_eq_ok.1 made
      exact .column rfl ((unixNanos_eq_ok_iff.1 counted).imp fun _ _ => .timestamp)
    | complex64 | complex128 => cases made
    | _ =>
      cases made
      refine .column rfl (List.forall₂_same.2 fun value _ => ?_)
      constructor

/-- Strings are as long in a column as they were as samples. -/
theorem short_of_ofSamples (made : Column.ofSamples samples = .ok column)
    (short : ∀ texts, samples = .column .string texts → textSize texts < 2 ^ 31)
    (texts : List String) (strings : column = ⟨.utf8, texts⟩) : textSize texts < 2 ^ 31 := by
  subst strings
  cases samples with
  | void => cases made
  | column type values =>
    cases type with
    | string =>
      cases made
      exact short texts rfl
    | timestamp =>
      obtain ⟨nanos, -, other⟩ := Outcome.map_eq_ok.1 made
      cases other
    | _ => cases made

/-- Samples have a column and a parcel unless they are refused, and both fail alike. The column
shows the samples one by one, and the parcel announces the column and gives it back. -/
theorem ofSamples_carries (samples : Samples) :
    (∀ error, Column.ofSamples samples = .error error ↔ Refused samples error) ∧
    (∀ error, Parcel.ofSamples samples = .error error ↔ Refused samples error) ∧
    ((∀ error, ¬ Refused samples error) → ∃ column parcel,
      Column.ofSamples samples = .ok column ∧ Parcel.ofSamples samples = .ok parcel ∧
      Shows samples column ∧ column.length = samples.length ∧ column.nullCount = 0 ∧
      parcel.Announces column ∧
      ((∀ texts, samples = .column .string texts → textSize texts < 2 ^ 31) →
        parcel.unpack? = some column)) := by
  refine ⟨fun error => ofSamples_eq_error_iff, fun error => ?_, fun granted => ?_⟩
  · rw [Parcel.ofSamples, Outcome.map_eq_error, ofSamples_eq_error_iff]
  · cases made : Column.ofSamples samples with
    | error error => exact absurd (ofSamples_eq_error_iff.1 made) (granted error)
    | ok column =>
      have shows := shows_of_ofSamples made
      have packed : Parcel.ofSamples samples = .ok column.pack := by
        rw [Parcel.ofSamples, made]
        rfl
      exact ⟨column, column.pack, rfl, packed, shows, shows.length_eq, rfl,
        ⟨rfl, rfl, rfl, rfl, rfl, rfl⟩,
        fun short => column.unpack?_pack (short_of_ofSamples made short)⟩

/-- The second of three moments is too far off. Strings, of which one is empty, come back. -/
theorem ofSamples_carries_sample :
    Parcel.ofSamples (.column .timestamp
        [⟨0, 0⟩, ⟨Int64.maxValue, 0⟩, ⟨Int64.minValue, 0⟩]) =
      .error (.timestampRange Int64.maxValue) ∧
    ∃ column parcel, Parcel.ofSamples (.column .string ["", "µs"]) = .ok parcel ∧
      Shows (.column .string ["", "µs"]) column ∧ parcel.unpack? = some column := by
  have early : ∀ earlier ∈ [Timestamp.mk 0 0], ∃ nanos, earlier.unixNanos? = some nanos := by
    simp only [List.mem_singleton, forall_eq]
    exact ⟨_, rfl⟩
  have far : (Timestamp.mk Int64.maxValue 0).unixNanos? = none := by decide
  obtain ⟨column, parcel, -, packed, shows, -, -, -, back⟩ :=
    (ofSamples_carries (.column .string ["", "µs"])).2.2 nofun
  refine ⟨((ofSamples_carries _).2.1 _).2 (.timestamp _ early far), column, parcel, packed, shows,
    back fun texts same => ?_⟩
  cases same
  decide

end Tdms.Export
