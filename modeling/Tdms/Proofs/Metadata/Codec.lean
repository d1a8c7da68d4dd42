import Mathlib
import Tdms.Proofs.Layout
import Tdms.Proofs.Metadata.Grammar

/-!
Metadata blocks are read exactly by their grammar, and read back from what a
plain writer makes of their records.

What the writer makes of an object spells its record, so that the objects of a
draft are read back as `decode_append` states. `decode_iff_spells` describes all
blocks: a block is read exactly if it starts with a spelling of records, and
there is a spelling exactly of those records whose numbers fit their fields.
-/

namespace Tdms

open Draft (Short ShortValue ShortProperty Declared)

namespace Metadata

variable {order : ByteOrder}

/-! ## Spelling what a writer is given -/

theorem spells_value (order : ByteOrder) {property : Property} (short : ShortValue property) :
    SpellsValue order property.type property.value
      (Draft.valueBytes order property.type property.value) := by
  obtain ⟨type, given⟩ := property
  cases type with
  | string => exact .text short
  | boolean =>
    have written : Draft.valueBytes order .boolean given = [UInt8.ofNat given.toNat] := by
      cases order with
      | little => rfl
      | big => rfl
    have same : (UInt8.ofNat given.toNat != 0) = given := by
      cases given with
      | false => rfl
      | true => rfl
    have spelled : SpellsValue order .boolean _ _ := .boolean (UInt8.ofNat given.toNat)
    rw [same] at spelled
    dsimp only
    rwa [written]
  | _ => exact .cell given nofun nofun

theorem spells_property (order : ByteOrder) {property : String × Property}
    (short : ShortProperty property) :
    SpellsProperty order property (Draft.propertyBytes order property) := by
  rw [Draft.propertyBytes, List.append_assoc]
  exact .mk short.1 (.own _) (spells_value order short.2)

theorem SpellsEach.of_forall {α item : Type} {spells : α → List UInt8 → Prop} {mean : item → α}
    {spell : item → List UInt8} {items : List item}
    (each : ∀ one ∈ items, spells (mean one) (spell one)) :
    SpellsEach spells (items.map mean) (items.flatMap spell) := by
  induction items with
  | nil => exact .nil
  | cons one rest ih =>
    obtain ⟨first, others⟩ := List.forall_mem_cons.1 each
    exact .cons first (ih others)

/-- What is declared with a well-formed raw data index is spelled. -/
theorem spells_declaration (order : ByteOrder) {declared : Declared} (known : declared.Known)
    (well : ∀ index ∈ declared.index?, index.WellFormed) :
    SpellsDeclaration order declared.declaration (declared.bytes order) := by
  cases declared with
  | noData => exact .noData
  | matchesPrevious => exact .matchesPrevious
  | values code count =>
    obtain ⟨type, known, notString⟩ := known
    have fits : count.toNat * type.width < UInt64.size :=
      (well _ (congrArg (Option.map _) known)).2.1
    cases fixed : type.width? with
    | none => exact absurd (ScalarType.width?_eq_none_iff.1 fixed) notString
    | some width =>
      rw [(ScalarType.width_of_width? fixed).1] at fits
      have same : (Declared.values code count).declaration =
          .new ⟨type, count.toNat, count.toNat * width⟩ := by
        simp [Declared.declaration, Declared.index?, known, ScalarType.width, fixed]
      rw [Declared.bytes, List.append_assoc, List.append_assoc, same]
      exact @SpellsDeclaration.new order 20 _ _ (by decide)
        (.values (ScalarType.ofCode?_eq_some_iff.1 known) fixed fits)
  | strings count size =>
    rw [Declared.bytes, List.append_assoc, List.append_assoc, List.append_assoc]
    exact @SpellsDeclaration.new order 28 _ _ (by decide) (.strings ((well _ rfl).table_le rfl))

/-- An object whose texts and properties fit their fields is spelled. -/
theorem spells_object (order : ByteOrder) {object : Draft.Object}
    (short : Short object.path.render)
    (properties : ∀ property ∈ object.properties, ShortProperty property)
    (few : object.properties.length < UInt32.size) (known : object.declared.Known)
    (well : ∀ index ∈ object.declared.index?, index.WellFormed) :
    SpellsRecord order object.record (object.bytes order) := by
  have each : SpellsEach (SpellsProperty order) (object.properties.map id)
      (object.properties.flatMap (Draft.propertyBytes order)) :=
    .of_forall fun property listed => spells_property order (properties property listed)
  rw [List.map_id] at each
  rw [Draft.Object.bytes, List.append_assoc, List.append_assoc]
  exact .mk short (spells_declaration order known well) (.mk few each)

theorem spells_objects {objects : List Draft.Object} (few : objects.length < UInt32.size)
    (each : ∀ object ∈ objects, SpellsRecord order object.record (object.bytes order)) :
    SpellsBlock order (objects.map Draft.Object.record)
      (order.bytes 4 objects.length ++ objects.flatMap (Draft.Object.bytes order)) := by
  have few : (objects.map Draft.Object.record).length < UInt32.size := by rwa [List.length_map]
  have block : SpellsBlock order _ _ := .mk few (.of_forall each)
  rwa [List.length_map] at block

/-! ## Reading -/

/-- A block is read exactly if a spelling of records opens it. -/
theorem decode_eq_ok_iff {bytes : List UInt8} {records : List Record} :
    decode order bytes = .ok records ↔
      ∃ spelling rest, bytes = spelling ++ rest ∧ SpellsBlock order records spelling := by
  have accepts := Reader.accepts_records order
  rw [decode, Outcome.map_eq_ok]
  constructor
  · rintro ⟨⟨_, next⟩, read, rfl⟩
    obtain ⟨spelling, spelled, whole, -⟩ := (accepts ..).1 read
    exact ⟨spelling, next.rest, whole, spelled⟩
  · rintro ⟨spelling, rest, rfl, spelled⟩
    exact ⟨_, accepts.read_append spelled 0 rest, rfl⟩

/-- The records of a metadata block are read back, whatever follows the block. -/
theorem decode_append {objects : List Draft.Object} (few : objects.length < UInt32.size)
    (each : ∀ object ∈ objects, SpellsRecord order object.record (object.bytes order))
    (rest : List UInt8) :
    decode order (order.bytes 4 objects.length ++ objects.flatMap (Draft.Object.bytes order) ++
      rest) = .ok (objects.map Draft.Object.record) :=
  decode_eq_ok_iff.2 ⟨_, rest, rfl, spells_objects few each⟩

/-! ## Records that have a spelling -/

/-- Whether the numbers of a record fit the fields that the format has for them. -/
structure Record.Encodable (record : Record) : Prop where
  shortPath : Short record.path.render
  shortProperties : ∀ property ∈ record.properties, ShortProperty property
  fewProperties : record.properties.length < UInt32.size
  wellFormed : ∀ index, record.declaration = .new index → index.WellFormed

/-- What a writer is given to declare. -/
def Declaration.draft : Declaration → Declared
  | noData => .noData
  | matchesPrevious => .matchesPrevious
  | new index =>
    if index.type = .string then .strings (.ofNat index.count) (.ofNat index.size)
    else .values index.type.code (.ofNat index.count)

/-- The object that a writer is given for a record. -/
def Record.draft (record : Record) : Draft.Object where
  path := record.path
  declared := record.declaration.draft
  properties := record.properties

/-- The block that a writer makes of records. -/
def encode (order : ByteOrder) (records : List Record) : List UInt8 :=
  order.bytes 4 records.length ++ (records.map Record.draft).flatMap (Draft.Object.bytes order)

theorem Declaration.known_draft (declaration : Declaration) : declaration.draft.Known := by
  cases declaration with
  | noData => trivial
  | matchesPrevious => trivial
  | new index =>
    rw [draft]
    split
    · trivial
    · rename_i notString
      exact ⟨index.type, ScalarType.ofCode?_code _, notString⟩

/-- A writer is given the raw data index that a record declares. -/
theorem Declaration.index?_draft {index : RawIndex} (well : index.WellFormed) :
    (Declaration.new index).draft.index? = some index := by
  have count := UInt64.toNat_ofNat_of_lt' well.1
  rw [draft]
  split
  · rename_i text
    have size := UInt64.toNat_ofNat_of_lt' well.2.1
    rw [Declared.index?, count, size, ← text]
  · rename_i notString
    obtain ⟨width, fixed⟩ := Option.ne_none_iff_exists'.1
      (mt ScalarType.width?_eq_none_iff.1 notString)
    rw [Declared.index?, ScalarType.ofCode?_code, Option.map_some, count,
      (ScalarType.width_of_width? fixed).1, ← well.size_eq fixed]

theorem Record.record_draft {record : Record} (encodable : record.Encodable) :
    record.draft.record = record := by
  obtain ⟨path, declaration, properties⟩ := record
  have same : declaration.draft.declaration = declaration := by
    cases declaration with
    | noData => rfl
    | matchesPrevious => rfl
    | new index =>
      have given := Declaration.index?_draft (encodable.wellFormed index rfl)
      cases drafted : (Declaration.new index).draft with
      | noData | matchesPrevious =>
        rw [drafted] at given
        cases given
      | values code count | strings count size =>
        rw [drafted] at given
        rw [Declared.declaration, given]
        nofun
  rw [draft, Draft.Object.record, same]

theorem spells_draft {record : Record} (encodable : record.Encodable) :
    SpellsRecord order record (record.draft.bytes order) := by
  have well : ∀ index ∈ record.declaration.draft.index?, index.WellFormed := by
    intro index given
    cases declaration : record.declaration with
    | noData | matchesPrevious =>
      rw [declaration] at given
      cases given
    | new other =>
      have well := encodable.wellFormed other declaration
      rw [declaration, Declaration.index?_draft well] at given
      cases given
      exact well
  have spelled : SpellsRecord order record.draft.record _ := spells_object order
    encodable.shortPath encodable.shortProperties encodable.fewProperties
    record.declaration.known_draft well
  rwa [Record.record_draft encodable] at spelled

/-- A writer spells every list of records whose numbers fit. -/
theorem spells_encode {records : List Record} (few : records.length < UInt32.size)
    (encodable : ∀ record ∈ records, record.Encodable) :
    SpellsBlock order records (encode order records) := by
  have each : SpellsEach (SpellsRecord order) (records.map id)
      (records.flatMap fun record => record.draft.bytes order) :=
    .of_forall fun record listed => spells_draft (encodable record listed)
  rw [List.map_id] at each
  rw [encode, List.flatMap_map]
  exact .mk few each

theorem SpellsEach.forall_mem {α : Type} {spells : α → List UInt8 → Prop} {good : α → Prop}
    {items : List α} {bytes : List UInt8} (spelled : SpellsEach spells items bytes)
    (each : ∀ item bytes, spells item bytes → good item) : ∀ item ∈ items, good item := by
  induction spelled with
  | nil => nofun
  | cons first _ ih => exact List.forall_mem_cons.2 ⟨each _ _ first, ih⟩

theorem SpellsValue.short {type : ScalarType} {value : type.Value} {bytes : List UInt8}
    (spelled : SpellsValue order type value bytes) : ShortValue ⟨type, value⟩ := by
  cases spelled with
  | text short => exact short
  | boolean byte => trivial
  | cell value notString _ =>
    cases type with
    | string => exact absurd rfl notString
    | _ => trivial

theorem SpellsIndex.wellFormed {index : RawIndex} {bytes : List UInt8}
    (spelled : SpellsIndex order index bytes) : index.WellFormed := by
  cases spelled with
  | values _ fixed fits =>
    refine ⟨UInt64.toNat_lt_size _, fits, ?_⟩
    simp only [fixed]
  | strings room => exact ⟨UInt64.toNat_lt_size _, UInt64.toNat_lt_size _, room⟩

theorem SpellsRecord.encodable {record : Record} {bytes : List UInt8}
    (spelled : SpellsRecord order record bytes) : record.Encodable := by
  obtain ⟨short, declared, ⟨few, described⟩⟩ := spelled
  refine ⟨short, described.forall_mem fun property bytes one => ?_, few, ?_⟩
  · obtain ⟨named, -, value⟩ := one
    exact ⟨named, value.short⟩
  · rintro index rfl
    obtain _ | _ | ⟨-, spelled⟩ := declared
    exact spelled.wellFormed

/-- A block is read exactly if a spelling of records opens it, and then as these records, whatever
follows the spelling. There is a spelling of exactly those records whose numbers fit their fields,
and such records are read back from what a writer makes of them. -/
theorem decode_iff_spells (order : ByteOrder) :
    (∀ bytes records, decode order bytes = .ok records ↔
      ∃ spelling rest, bytes = spelling ++ rest ∧ SpellsBlock order records spelling) ∧
    (∀ records, (∃ spelling, SpellsBlock order records spelling) ↔
      records.length < UInt32.size ∧ ∀ record ∈ records, record.Encodable) ∧
    ∀ records, records.length < UInt32.size → (∀ record ∈ records, record.Encodable) →
      ∀ rest, decode order (encode order records ++ rest) = .ok records := by
  refine ⟨fun bytes records => decode_eq_ok_iff, fun records => ⟨?_, ?_⟩, ?_⟩
  · rintro ⟨_, few, each⟩
    exact ⟨few, each.forall_mem fun record bytes spelled => spelled.encodable⟩
  · rintro ⟨few, encodable⟩
    exact ⟨_, spells_encode few encodable⟩
  · intro records few encodable rest
    exact decode_eq_ok_iff.2 ⟨_, rest, rfl, spells_encode few encodable⟩

/-- A channel of two floats with a unit, and a property that is on. -/
def sampleRecords : List Record :=
  [⟨.channel "m" "t", .new ⟨.float64, 2, 16⟩, [("on", ⟨.boolean, true⟩)]⟩]

/-- A block of the sample records that no plain writer makes: the type has its second code, and the
byte of the property is five. -/
def sampleSpelling : List UInt8 :=
  [0, 0, 0, 1, 0, 0, 0, 8, 47, 39, 109, 39, 47, 39, 116, 39,
    0, 0, 0, 99, 0, 0, 0, 0x1A, 0, 0, 0, 1, 0, 0, 0, 0, 0, 0, 0, 2,
    0, 0, 0, 1, 0, 0, 0, 2, 111, 110, 0, 0, 0, 0x21, 5]

theorem spells_sample : SpellsBlock .big sampleRecords sampleSpelling := by
  have flag : SpellsProperty .big ("on", ⟨.boolean, true⟩) _ :=
    .mk (by unfold Short; decide) (.own .boolean) (.boolean 5)
  have index : SpellsIndex .big ⟨.float64, 2, 16⟩ _ := @SpellsIndex.values .big _ _ _ 2
    .float64 rfl (by decide)
  have record : SpellsRecord .big ⟨.channel "m" "t", .new ⟨.float64, 2, 16⟩, [_]⟩ _ :=
    .mk (by unfold Short; decide) (@SpellsDeclaration.new .big 99 _ _ (by decide) index)
      (.mk (by decide) (.cons flag .nil))
  exact .mk (by decide) (.cons record .nil)

theorem decode_sample :
    decode .big (sampleSpelling ++ [7, 8]) = .ok sampleRecords ∧
      decode .big (encode .big sampleRecords ++ [9]) = .ok sampleRecords := by
  obtain ⟨read, spelled, written⟩ := decode_iff_spells .big
  obtain ⟨few, encodable⟩ := (spelled sampleRecords).1 ⟨_, spells_sample⟩
  exact ⟨(read ..).2 ⟨_, _, rfl, spells_sample⟩, written sampleRecords few encodable [9]⟩

end Metadata

end Tdms
