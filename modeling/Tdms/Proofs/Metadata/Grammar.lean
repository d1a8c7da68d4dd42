import Mathlib
import Tdms.Proofs.Draft
import Tdms.Proofs.Metadata.Reader
import Tdms.Proofs.ObjectPath

/-!
The grammar of metadata blocks.

For every part of a block, a relation says which bytes spell it: `SpellsValue`
and `SpellsProperty`, `SpellsIndex` and `SpellsDeclaration`, `SpellsRecord` and
`SpellsBlock`. Only a few things have more than one spelling: a true boolean, a
type that two codes stand for, and the header of a new raw data index.

`Accepts` says that a reader takes exactly the bytes that a relation allows, and
leaves what follows them. It is closed under readers in turn, so that every
reader of a block accepts its part of the grammar.
-/

namespace Tdms

open Draft (textBytes Short)

/-! ## The grammar -/

/-- The codes that stand for a type. A plain float has a second code, for floats with a unit. -/
inductive ScalarType.HasCode : ScalarType → UInt32 → Prop
  | own (type : ScalarType) : HasCode type type.code
  | float32 : HasCode .float32 0x19
  | float64 : HasCode .float64 0x1A

namespace Metadata

/-- The value of a property: a text, a byte that is zero exactly if a boolean is false, or the cell
of any other value. -/
inductive SpellsValue (order : ByteOrder) : (type : ScalarType) → type.Value → List UInt8 → Prop
  | text {text : String} : Short text → SpellsValue order .string text (textBytes order text)
  | boolean (byte : UInt8) : SpellsValue order .boolean (byte != 0) [byte]
  | cell {type : ScalarType} (value : type.Value) : type ≠ .string → type ≠ .boolean →
    SpellsValue order type value (type.toCell order value)

/-- A property: its name, a code of its type, and its value. -/
inductive SpellsProperty (order : ByteOrder) : String × Property → List UInt8 → Prop
  | mk {name : String} {code : UInt32} {type : ScalarType} {value : type.Value}
    {bytes : List UInt8} : Short name → type.HasCode code → SpellsValue order type value bytes →
    SpellsProperty order (name, ⟨type, value⟩)
      (textBytes order name ++ (order.bytes 4 code.toNat ++ bytes))

/-- A raw data index: a code of its type, the dimension one and the number of values. Strings are
followed by the number of their bytes; other values take what their width makes of them. -/
inductive SpellsIndex (order : ByteOrder) : RawIndex → List UInt8 → Prop
  | values {code : UInt32} {type : ScalarType} {width : Nat} {count : UInt64} :
    type.HasCode code → type.width? = some width → count.toNat * width < UInt64.size →
    SpellsIndex order ⟨type, count.toNat, count.toNat * width⟩
      (order.bytes 4 code.toNat ++ (order.bytes 4 1 ++ order.bytes 8 count.toNat))
  | strings {count size : UInt64} : 4 * count.toNat ≤ size.toNat →
    SpellsIndex order ⟨.string, count.toNat, size.toNat⟩
      (order.bytes 4 ScalarType.string.code.toNat ++
        (order.bytes 4 1 ++ (order.bytes 8 count.toNat ++ order.bytes 8 size.toNat)))

/-- What a record says about raw data: one of two headers, or any header but those and the ones of
device data, with a raw data index. -/
inductive SpellsDeclaration (order : ByteOrder) : Declaration → List UInt8 → Prop
  | noData : SpellsDeclaration order .noData (order.bytes 4 0xFFFFFFFF)
  | matchesPrevious : SpellsDeclaration order .matchesPrevious (order.bytes 4 0)
  | new {header : UInt32} {index : RawIndex} {bytes : List UInt8} :
    header ∉ [0xFFFFFFFF, 0, 0x1269, 0x126A] → SpellsIndex order index bytes →
    SpellsDeclaration order (.new index) (order.bytes 4 header.toNat ++ bytes)

/-- Items one after another. -/
inductive SpellsEach {α : Type} (spells : α → List UInt8 → Prop) : List α → List UInt8 → Prop
  | nil : SpellsEach spells [] []
  | cons {item : α} {rest : List α} {first others : List UInt8} : spells item first →
    SpellsEach spells rest others → SpellsEach spells (item :: rest) (first ++ others)

/-- Items after their number. -/
inductive SpellsList (order : ByteOrder) {α : Type} (spells : α → List UInt8 → Prop) :
    List α → List UInt8 → Prop
  | mk {items : List α} {bytes : List UInt8} : items.length < UInt32.size →
    SpellsEach spells items bytes →
    SpellsList order spells items (order.bytes 4 items.length ++ bytes)

/-- A record: the path of its object, what it says about raw data, and its properties. -/
inductive SpellsRecord (order : ByteOrder) : Record → List UInt8 → Prop
  | mk {path : ObjectPath} {declaration : Declaration} {properties : List (String × Property)}
    {declared described : List UInt8} : Short path.render →
    SpellsDeclaration order declaration declared →
    SpellsList order (SpellsProperty order) properties described →
    SpellsRecord order ⟨path, declaration, properties⟩
      (textBytes order path.render ++ (declared ++ described))

/-- A metadata block: its records. -/
def SpellsBlock (order : ByteOrder) (records : List Record) (bytes : List UInt8) : Prop :=
  SpellsList order (SpellsRecord order) records bytes

end Metadata

/-! ## Type codes -/

/-- A code is read as a type exactly if it stands for the type. -/
theorem ScalarType.ofCode?_eq_some_iff {code : UInt32} {type : ScalarType} :
    ofCode? code = some type ↔ type.HasCode code := by
  constructor
  · intro known
    rw [ofCode?] at known
    iterate 8
      rcases ite_eq_iff.1 known with ⟨rfl, ⟨⟩⟩ | ⟨-, known⟩
      · exact .own _
    rcases ite_eq_iff.1 known with ⟨rfl | rfl, ⟨⟩⟩ | ⟨-, known⟩
    · exact .own _
    · exact .float32
    rcases ite_eq_iff.1 known with ⟨rfl | rfl, ⟨⟩⟩ | ⟨-, known⟩
    · exact .own _
    · exact .float64
    iterate 5
      rcases ite_eq_iff.1 known with ⟨rfl, ⟨⟩⟩ | ⟨-, known⟩
      · exact .own _
    cases known
  · rintro (_ | _ | _)
    · exact ofCode?_code type
    · rfl
    · rfl

namespace Metadata.Reader

variable {α β : Type}

/-! ## Readers that accept a grammar -/

/-- The reader takes exactly the bytes that spell its value, and leaves what follows them. -/
def Accepts (read : Reader α) (spells : α → List UInt8 → Prop) : Prop :=
  ∀ position bytes value next, read ⟨position, bytes⟩ = .ok (value, next) ↔
    ∃ taken, spells value taken ∧ bytes = taken ++ next.rest ∧
      next.position = position + taken.length

theorem Accepts.congr {read : Reader α} {spells others : α → List UInt8 → Prop}
    (accepts : Accepts read spells)
    (same : ∀ value bytes, spells value bytes ↔ others value bytes) :
    Accepts read others := by
  intro position bytes value next
  simp only [accepts position bytes value next, same]

theorem Accepts.pure (value : α) : Accepts (pure value) fun other bytes =>
    other = value ∧ bytes = [] := by
  rintro position bytes other ⟨place, rest⟩
  change Except.ok (value, Cursor.mk position bytes) = _ ↔ _
  simp only [Except.ok.injEq, Prod.mk.injEq, Cursor.mk.injEq]
  constructor
  · rintro ⟨rfl, rfl, rfl⟩
    exact ⟨[], ⟨rfl, rfl⟩, rfl, rfl⟩
  · rintro ⟨_, ⟨rfl, rfl⟩, rfl, rfl⟩
    exact ⟨rfl, rfl, rfl⟩

theorem Accepts.refuse (refusal : Refusal) :
    Accepts (fun _ => .error refusal : Reader α) fun _ _ => False := by
  intro position bytes value next
  simp

/-- A second reader goes on where the first one stops. -/
theorem Accepts.bind {read : Reader α} {later : α → Reader β} {early : α → List UInt8 → Prop}
    {late : α → β → List UInt8 → Prop} (first : Accepts read early)
    (second : ∀ value, Accepts (later value) (late value)) :
    Accepts (read >>= later) fun result bytes => ∃ value taken others,
      early value taken ∧ late value result others ∧ bytes = taken ++ others := by
  intro position bytes result next
  rw [bind_eq_ok]
  constructor
  · rintro ⟨value, ⟨place, left⟩, opening, closing⟩
    obtain ⟨taken, spelled, rfl, rfl⟩ := (first ..).1 opening
    obtain ⟨others, also, rfl, stop⟩ := (second value ..).1 closing
    refine ⟨taken ++ others, ⟨value, taken, others, spelled, also, rfl⟩, ?_, ?_⟩
    · rw [List.append_assoc]
    · rw [stop, List.length_append, Nat.add_assoc]
  · rintro ⟨_, ⟨value, taken, others, spelled, also, rfl⟩, rfl, stop⟩
    refine ⟨value, ⟨position + taken.length, others ++ next.rest⟩, ?_, ?_⟩
    · exact (first ..).2 ⟨taken, spelled, List.append_assoc .., rfl⟩
    · refine (second value ..).2 ⟨others, also, rfl, ?_⟩
      rw [stop, List.length_append, Nat.add_assoc]

theorem Accepts.map {read : Reader α} {spells : α → List UInt8 → Prop}
    (accepts : Accepts read spells) (change : α → β) :
    Accepts (change <$> read) fun result bytes =>
      ∃ value, spells value bytes ∧ result = change value := by
  rw [map_eq_bind]
  refine (accepts.bind fun value => .pure (change value)).congr fun result bytes => ?_
  constructor
  · rintro ⟨value, taken, _, spelled, ⟨same, rfl⟩, rfl⟩
    rw [List.append_nil]
    exact ⟨value, spelled, same⟩
  · rintro ⟨value, spelled, same⟩
    exact ⟨value, bytes, [], spelled, ⟨same, rfl⟩, (List.append_nil bytes).symm⟩

theorem Accepts.ite {condition : Prop} [Decidable condition] {read other : Reader α}
    {spells others : α → List UInt8 → Prop} (first : Accepts read spells)
    (second : Accepts other others) :
    Accepts (if condition then read else other) fun value bytes =>
      if condition then spells value bytes else others value bytes := by
  split
  · exact first
  · exact second

/-- What is read of a spelling, whatever follows it. -/
theorem Accepts.read_append {read : Reader α} {spells : α → List UInt8 → Prop}
    (accepts : Accepts read spells) {value : α} {bytes : List UInt8} (spelled : spells value bytes)
    (position : Nat) (rest : List UInt8) :
    read ⟨position, bytes ++ rest⟩ = .ok (value, ⟨position + bytes.length, rest⟩) :=
  (accepts ..).2 ⟨bytes, spelled, rfl, rfl⟩

/-! ## Numbers and texts -/

theorem accepts_take (count : Nat) :
    Accepts (take count) fun value bytes => value = bytes ∧ bytes.length = count := by
  rintro position bytes value ⟨place, rest⟩
  unfold take
  dsimp only
  split
  · rename_i whole
    simp only [Except.ok.injEq, Prod.mk.injEq, Cursor.mk.injEq]
    constructor
    · rintro ⟨rfl, rfl, rfl⟩
      exact ⟨bytes.take count, ⟨rfl, whole⟩, (List.take_append_drop count bytes).symm,
        by rw [whole]⟩
    · rintro ⟨_, ⟨rfl, length⟩, rfl, rfl⟩
      exact ⟨List.take_left' length, by rw [length], List.drop_left' length⟩
  · rename_i short
    simp only [reduceCtorEq, false_iff]
    rintro ⟨_, ⟨rfl, length⟩, rfl, -⟩
    exact short (by rw [List.take_left' length, length])

theorem accepts_uint32 (order : ByteOrder) :
    Accepts (uint32 order) fun number bytes => bytes = order.bytes 4 number.toNat := by
  refine ((accepts_take 4).map order.uint32).congr fun number bytes => ?_
  constructor
  · rintro ⟨_, ⟨rfl, whole⟩, rfl⟩
    exact (order.bytes_uint32 whole).symm
  · rintro rfl
    exact ⟨_, ⟨rfl, order.length_bytes 4 _⟩, (order.uint32_bytes number).symm⟩

theorem accepts_uint64 (order : ByteOrder) :
    Accepts (uint64 order) fun number bytes => bytes = order.bytes 8 number.toNat := by
  refine ((accepts_take 8).map order.uint64).congr fun number bytes => ?_
  constructor
  · rintro ⟨_, ⟨rfl, whole⟩, rfl⟩
    exact (order.bytes_uint64 whole).symm
  · rintro rfl
    exact ⟨_, ⟨rfl, order.length_bytes 8 _⟩, (order.uint64_bytes number).symm⟩

/-- The bytes of a text are read exactly if they spell one. -/
theorem accepts_decoded (bytes : List UInt8) :
    Accepts (match Utf8.decode bytes with
      | .ok text => pure text
      | .error fault => corrupt (.text fault)) fun text taken =>
        bytes = Utf8.encode text ∧ taken = [] := by
  cases found : Utf8.decode bytes with
  | error fault =>
    refine (Accepts.refuse _).congr fun text taken => ?_
    rw [← Utf8.decode_eq_ok_iff, found]
    simp
  | ok text =>
    refine (Accepts.pure text).congr fun other taken => ?_
    rw [← Utf8.decode_eq_ok_iff, found, Except.ok.injEq, eq_comm]

theorem accepts_text (order : ByteOrder) :
    Accepts (Reader.text order) fun text bytes => Short text ∧ bytes = textBytes order text := by
  refine ((accepts_uint32 order).bind fun length =>
    (accepts_take length.toNat).bind accepts_decoded).congr fun text bytes => ?_
  constructor
  · rintro ⟨length, _, _, rfl, ⟨_, taken, _, ⟨rfl, whole⟩, ⟨rfl, rfl⟩, rfl⟩, rfl⟩
    rw [Short, textBytes, whole, List.append_nil]
    exact ⟨length.toNat_lt_size, rfl⟩
  · rintro ⟨short, rfl⟩
    have length : (UInt32.ofNat (Utf8.encode text).length).toNat = (Utf8.encode text).length :=
      UInt32.toNat_ofNat_of_lt' short
    refine ⟨.ofNat (Utf8.encode text).length, _, Utf8.encode text, rfl,
      ⟨_, Utf8.encode text, [], ⟨rfl, length.symm⟩, ⟨rfl, rfl⟩, (List.append_nil _).symm⟩, ?_⟩
    rw [length, textBytes]

/-! ## Values -/

theorem bind_take_congr {count : Nat} {later other : List UInt8 → Reader α}
    (same : ∀ bytes, bytes.length = count → later bytes = other bytes) :
    (take count >>= later) = (take count >>= other) := by
  funext cursor
  change (take count cursor >>= fun taken => later taken.1 taken.2) =
    (take count cursor >>= fun taken => other taken.1 taken.2)
  cases answer : take count cursor with
  | error refusal => rfl
  | ok taken =>
    obtain ⟨bytes, next⟩ := taken
    obtain ⟨_, ⟨rfl, whole⟩, -⟩ := (accepts_take count ..).1 answer
    exact congrFun (same bytes whole) next

/-- The value of a property of a fixed width is the sample in the cell that its bytes are. -/
theorem value_of_width {type : ScalarType} {width : Nat} (fixed : type.width? = some width)
    (order : ByteOrder) :
    value order type = take width >>= fun cell => pure (type.ofCell order cell) := by
  have same : ∀ cell : List UInt8, cell.length = type.turnedWidth →
      littleValue (type.toLittleCell order cell) = order.value cell := fun cell =>
    ScalarType.littleValue_toLittleCell type order
  have halves : ∀ cell : List UInt8, cell.length = 2 * type.turnedWidth → _ := fun cell =>
    ScalarType.littleValue_toLittleCell_halves type order
  cases type with
  | string => cases fixed
  | int8 | uint8 | boolean =>
    cases fixed
    refine bind_take_congr fun cell whole => ?_
    rw [ScalarType.ofCell, ScalarType.ofLittleCell, same cell whole]
  | int16 | uint16 =>
    cases fixed
    refine bind_take_congr fun cell whole => ?_
    rw [ScalarType.ofCell, ScalarType.ofLittleCell, same cell whole]
    rfl
  | int32 | float32 =>
    cases fixed
    rw [value, uint32, map_eq_bind]
    simp only [bind_assoc, pure_bind]
    refine bind_take_congr fun cell whole => ?_
    rw [ScalarType.ofCell, ScalarType.ofLittleCell, same cell whole]
    rfl
  | int64 | float64 =>
    cases fixed
    rw [value, uint64, map_eq_bind]
    simp only [bind_assoc, pure_bind]
    refine bind_take_congr fun cell whole => ?_
    rw [ScalarType.ofCell, ScalarType.ofLittleCell, same cell whole]
    rfl
  | uint32 =>
    cases fixed
    rw [value, uint32, map_eq_bind]
    refine bind_take_congr fun cell whole => ?_
    rw [ScalarType.ofCell, ScalarType.ofLittleCell, same cell whole]
    rfl
  | uint64 =>
    cases fixed
    rw [value, uint64, map_eq_bind]
    refine bind_take_congr fun cell whole => ?_
    rw [ScalarType.ofCell, ScalarType.ofLittleCell, same cell whole]
    rfl
  | timestamp =>
    cases fixed
    refine bind_take_congr fun cell whole => ?_
    cases order with
    | little => rfl
    | big =>
      rw [ScalarType.ofCell, ScalarType.toLittleCell_of_length .timestamp cell whole,
        ScalarType.ofLittleCell, ScalarType.ofLittleBytes_reverse whole]
  | complex64 | complex128 =>
    cases fixed
    refine bind_take_congr fun cell whole => ?_
    obtain ⟨first, second⟩ := halves cell whole
    rw [ScalarType.ofCell, ScalarType.ofLittleCell]
    unfold ScalarType.turnedWidth at first second
    dsimp only at first second
    rw [first, second]
    rfl

theorem ofCell_boolean (order : ByteOrder) (byte : UInt8) :
    ScalarType.boolean.ofCell order [byte] = (byte != 0) := by
  rw [ScalarType.ofCell, ScalarType.ofLittleCell,
    ScalarType.littleValue_toLittleCell .boolean order rfl]
  have number : order.value [byte] = byte.toNat := by
    cases order with
    | little => rfl
    | big => rfl
  rw [number, Bool.eq_iff_iff, bne_iff_ne, bne_iff_ne, Ne, Ne, ← UInt8.toNat_inj]
  rfl

/-- A cell of a fixed width spells the sample in it. -/
theorem spells_ofCell (order : ByteOrder) {type : ScalarType} {width : Nat}
    (fixed : type.width? = some width) {cell : List UInt8} (whole : cell.length = width) :
    SpellsValue order type (type.ofCell order cell) cell := by
  by_cases truth : type = .boolean
  · subst truth
    cases fixed
    obtain ⟨byte, rfl⟩ := List.length_eq_one_iff.1 whole
    rw [ofCell_boolean]
    exact .boolean byte
  · have notString : type ≠ .string := fun text => by
      rw [text] at fixed
      cases fixed
    have spelled : SpellsValue order type _ _ := .cell (type.ofCell order cell) notString truth
    rwa [ScalarType.toCell_ofCell fixed truth order whole] at spelled

theorem accepts_value (order : ByteOrder) (type : ScalarType) :
    Accepts (value order type) (SpellsValue order type) := by
  cases fixed : type.width? with
  | none =>
    obtain rfl := ScalarType.width?_eq_none_iff.1 fixed
    refine (accepts_text order).congr fun text bytes => ?_
    constructor
    · rintro ⟨short, rfl⟩
      exact .text short
    · rintro (⟨short⟩ | _ | ⟨_, notString, -⟩)
      · exact ⟨short, rfl⟩
      · exact absurd rfl notString
  | some width =>
    rw [value_of_width fixed]
    refine ((accepts_take width).bind fun cell => .pure (type.ofCell order cell)).congr
      fun value bytes => ?_
    constructor
    · rintro ⟨cell, _, _, ⟨rfl, whole⟩, ⟨rfl, rfl⟩, rfl⟩
      rw [List.append_nil]
      exact spells_ofCell order fixed whole
    · rintro (_ | byte | ⟨_, -, -⟩)
      · cases fixed
      · cases fixed
        exact ⟨_, [byte], [], ⟨rfl, rfl⟩, ⟨(ofCell_boolean order byte).symm, rfl⟩, rfl⟩
      · exact ⟨_, _, [], ⟨rfl, ScalarType.length_toCell fixed order value⟩,
          ⟨(ScalarType.ofCell_toCell fixed order value).symm, rfl⟩, (List.append_nil _).symm⟩

/-! ## Properties -/

theorem accepts_scalarType (code : UInt32) (path : String) :
    Accepts (scalarType code path) fun type bytes => type.HasCode code ∧ bytes = [] := by
  unfold scalarType
  cases found : ScalarType.ofCode? code with
  | none =>
    refine (Accepts.refuse _).congr fun type bytes => ?_
    rw [← ScalarType.ofCode?_eq_some_iff, found]
    simp
  | some known =>
    refine (Accepts.pure known).congr fun type bytes => ?_
    rw [← ScalarType.ofCode?_eq_some_iff, found, Option.some.injEq, eq_comm]

theorem accepts_property (order : ByteOrder) (path : String) :
    Accepts (Reader.property order path) (SpellsProperty order) := by
  refine ((accepts_text order).bind fun name => (accepts_uint32 order).bind fun code =>
    (accepts_scalarType code path).bind fun type => (accepts_value order type).bind fun value =>
      .pure (name, Property.mk type value)).congr fun property bytes => ?_
  constructor
  · rintro ⟨name, _, _, ⟨short, rfl⟩, ⟨code, _, _, rfl, ⟨type, _, _, ⟨known, rfl⟩,
      ⟨value, spelling, _, spelled, ⟨rfl, rfl⟩, rfl⟩, rfl⟩, rfl⟩, rfl⟩
    rw [List.append_nil, List.nil_append]
    exact .mk short known spelled
  · rintro ⟨short, known, spelled⟩
    exact ⟨_, _, _, ⟨short, rfl⟩, ⟨_, _, _, rfl, ⟨_, [], _, ⟨known, rfl⟩,
      ⟨_, _, [], spelled, ⟨rfl, rfl⟩, (List.append_nil _).symm⟩, rfl⟩, rfl⟩, rfl⟩

/-! ## Lists -/

theorem accepts_many {read : Reader α} {spells : α → List UInt8 → Prop}
    (accepts : Accepts read spells) (count : Nat) :
    Accepts (many read count) fun items bytes =>
      SpellsEach spells items bytes ∧ items.length = count := by
  induction count with
  | zero =>
    refine (Accepts.pure []).congr fun items bytes => ?_
    constructor
    · rintro ⟨rfl, rfl⟩
      exact ⟨.nil, rfl⟩
    · rintro ⟨_ | _, length⟩
      · exact ⟨rfl, rfl⟩
      · cases length
  | succ count ih =>
    refine (accepts.bind fun first => ih.bind fun rest => .pure (first :: rest)).congr
      fun items bytes => ?_
    constructor
    · rintro ⟨first, _, _, one, ⟨rest, _, _, ⟨others, rfl⟩, ⟨rfl, rfl⟩, rfl⟩, rfl⟩
      rw [List.append_nil]
      exact ⟨.cons one others, rfl⟩
    · rintro ⟨_ | ⟨one, others⟩, length⟩
      · cases length
      · exact ⟨_, _, _, one, ⟨_, _, [], ⟨others, Nat.succ.inj length⟩, ⟨rfl, rfl⟩,
          (List.append_nil _).symm⟩, rfl⟩

theorem accepts_list (order : ByteOrder) {read : Reader α} {spells : α → List UInt8 → Prop}
    (accepts : Accepts read spells) :
    Accepts (uint32 order >>= fun count => many read count.toNat) (SpellsList order spells) := by
  refine ((accepts_uint32 order).bind fun count => accepts_many accepts count.toNat).congr
    fun items bytes => ?_
  constructor
  · rintro ⟨count, _, taken, rfl, ⟨each, length⟩, rfl⟩
    rw [← length]
    exact .mk (length ▸ count.toNat_lt_size) each
  · rintro ⟨few, each⟩
    have counted : (UInt32.ofNat items.length).toNat = items.length :=
      UInt32.toNat_ofNat_of_lt' few
    exact ⟨.ofNat items.length, _, _, rfl, ⟨each, counted.symm⟩, by rw [counted]⟩

/-! ## Raw data indexes -/

/-- Values of a fixed width are counted in one number, strings in two. -/
theorem accepts_counted (order : ByteOrder) (path : String) (type : ScalarType) (count : UInt64) :
    Accepts (match type.width? with
      | some width =>
        if count.toNat * width < UInt64.size then
          pure (RawIndex.mk type count.toNat (count.toNat * width))
        else corrupt (.valueCount path count.toNat)
      | none =>
        uint64 order >>= fun size =>
          if 4 * count.toNat ≤ size.toNat then pure (RawIndex.mk type count.toNat size.toNat)
          else corrupt (.stringTable path count.toNat size.toNat)) fun index bytes =>
      match type.width? with
      | some width => count.toNat * width < UInt64.size ∧
        index = RawIndex.mk type count.toNat (count.toNat * width) ∧ bytes = []
      | none => ∃ size : UInt64, 4 * count.toNat ≤ size.toNat ∧
        index = RawIndex.mk type count.toNat size.toNat ∧ bytes = order.bytes 8 size.toNat := by
  cases type.width? with
  | some width =>
    refine ((Accepts.pure _).ite (.refuse _)).congr fun index bytes => ?_
    split
    · rename_i fits
      simp [fits]
    · rename_i large
      simp [large]
  | none =>
    refine ((accepts_uint64 order).bind fun size => (Accepts.pure _).ite (.refuse _)).congr
      fun index bytes => ?_
    constructor
    · rintro ⟨size, _, others, rfl, checked, rfl⟩
      split at checked
      · rename_i room
        obtain ⟨rfl, rfl⟩ := checked
        exact ⟨size, room, rfl, List.append_nil _⟩
      · cases checked
    · rintro ⟨size, room, rfl, rfl⟩
      exact ⟨size, _, [], rfl, by rw [if_pos room]; exact ⟨rfl, rfl⟩, (List.append_nil _).symm⟩

theorem accepts_rawIndex (order : ByteOrder) (path : String) :
    Accepts (rawIndex order path) (SpellsIndex order) := by
  refine ((accepts_uint32 order).bind fun code => (accepts_scalarType code path).bind fun type =>
    (accepts_uint32 order).bind fun dimension => (Accepts.refuse _).ite
      ((accepts_uint64 order).bind fun count => accepts_counted order path type count)).congr
        fun index bytes => ?_
  constructor
  · rintro ⟨code, _, _, rfl, ⟨type, _, _, ⟨known, rfl⟩, ⟨dimension, _, _, rfl, checked, rfl⟩,
      rfl⟩, rfl⟩
    split at checked
    · cases checked
    · rename_i one
      obtain rfl := not_not.1 one
      obtain ⟨count, _, _, rfl, counted, rfl⟩ := checked
      cases fixed : type.width? with
      | some width =>
        rw [fixed] at counted
        obtain ⟨fits, rfl, rfl⟩ := counted
        rw [List.append_nil]
        exact .values known fixed fits
      | none =>
        obtain rfl := ScalarType.width?_eq_none_iff.1 fixed
        rw [fixed] at counted
        obtain ⟨size, room, rfl, rfl⟩ := counted
        obtain _ | _ := known
        exact .strings room
  · rintro (⟨known, fixed, fits⟩ | @⟨count, size, room⟩)
    · refine ⟨_, _, _, rfl, ⟨_, [], _, ⟨known, rfl⟩, ⟨1, _, _, rfl, ?_, rfl⟩, rfl⟩, rfl⟩
      rw [if_neg (not_not.2 rfl)]
      refine ⟨_, _, [], rfl, ?_, (List.append_nil _).symm⟩
      rw [fixed]
      exact ⟨fits, rfl, rfl⟩
    · refine ⟨_, _, _, rfl, ⟨_, [], _, ⟨.own .string, rfl⟩, ⟨1, _, _, rfl, ?_, rfl⟩, rfl⟩, rfl⟩
      rw [if_neg (not_not.2 rfl)]
      exact ⟨_, _, _, rfl, ⟨size, room, rfl, rfl⟩, rfl⟩

theorem accepts_declaration (order : ByteOrder) (path : String) :
    Accepts (declaration order path) (SpellsDeclaration order) := by
  have parsed := ((accepts_rawIndex order path).map Declaration.new)
  refine ((accepts_uint32 order).bind fun header => (Accepts.pure _).ite ((Accepts.pure _).ite
    ((Accepts.refuse _).ite parsed))).congr fun declaration bytes => ?_
  constructor
  · rintro ⟨header, _, others, rfl, chosen, rfl⟩
    split at chosen
    · rename_i absent
      obtain ⟨rfl, rfl⟩ := chosen
      rw [absent, List.append_nil]
      exact .noData
    · rename_i notAbsent
      split at chosen
      · rename_i again
        obtain ⟨rfl, rfl⟩ := chosen
        rw [again, List.append_nil]
        exact .matchesPrevious
      · rename_i notAgain
        split at chosen
        · cases chosen
        · rename_i notDevice
          obtain ⟨index, spelled, rfl⟩ := chosen
          refine .new ?_ spelled
          rintro (_ | ⟨_, _ | ⟨_, device⟩⟩)
          · exact notAbsent rfl
          · exact notAgain rfl
          · exact notDevice device
  · rintro (_ | _ | @⟨header, index, spelling, other, spelled⟩)
    · refine ⟨noDataHeader, _, [], rfl, ?_, (List.append_nil _).symm⟩
      rw [if_pos rfl]
      exact ⟨rfl, rfl⟩
    · refine ⟨matchesPreviousHeader, _, [], rfl, ?_, (List.append_nil _).symm⟩
      rw [if_neg (by decide), if_pos rfl]
      exact ⟨rfl, rfl⟩
    · refine ⟨_, _, _, rfl, ?_, rfl⟩
      change header ∉ noDataHeader :: matchesPreviousHeader :: deviceHeaders at other
      rw [List.mem_cons, List.mem_cons, not_or, not_or] at other
      obtain ⟨notAbsent, notAgain, notDevice⟩ := other
      rw [if_neg notAbsent, if_neg notAgain, if_neg notDevice]
      exact ⟨_, spelled, rfl⟩

/-! ## Records -/

/-- Behind the path of a record, its declaration and its properties are read. -/
theorem accepts_body (order : ByteOrder) (path : String) :
    Accepts (match ObjectPath.parse? path with
      | none => corrupt (.path path)
      | some object => declaration order path >>= fun declaration =>
        (uint32 order >>= fun count => many (Reader.property order path) count.toNat) >>=
          fun properties => pure (Record.mk object declaration properties)) fun record bytes =>
        path = record.path.render ∧ ∃ declared described, bytes = declared ++ described ∧
          SpellsDeclaration order record.declaration declared ∧
          SpellsList order (SpellsProperty order) record.properties described := by
  cases found : ObjectPath.parse? path with
  | none =>
    refine (Accepts.refuse _).congr fun record bytes => ?_
    rw [← ObjectPath.parse?_eq_some_iff, found]
    simp
  | some object =>
    refine ((accepts_declaration order path).bind fun declaration =>
      (accepts_list order (accepts_property order path)).bind fun properties =>
        .pure (Record.mk object declaration properties)).congr fun record bytes => ?_
    rw [← ObjectPath.parse?_eq_some_iff, found, Option.some.injEq]
    constructor
    · rintro ⟨declaration, declared, _, saying, ⟨properties, described, _, listed, ⟨rfl, rfl⟩,
        rfl⟩, rfl⟩
      rw [List.append_nil]
      exact ⟨rfl, declared, described, rfl, saying, listed⟩
    · rintro ⟨rfl, declared, described, rfl, saying, listed⟩
      exact ⟨_, _, _, saying, ⟨_, _, [], listed, ⟨rfl, rfl⟩, (List.append_nil _).symm⟩, rfl⟩

theorem accepts_record (order : ByteOrder) : Accepts (record order) (SpellsRecord order) := by
  have body := accepts_body order
  simp only [bind_assoc] at body
  refine ((accepts_text order).bind body).congr fun record bytes => ?_
  constructor
  · rintro ⟨_, _, _, ⟨short, rfl⟩, ⟨rfl, declared, described, rfl, saying, listed⟩, rfl⟩
    exact .mk short saying listed
  · rintro ⟨short, saying, listed⟩
    exact ⟨_, _, _, ⟨short, rfl⟩, ⟨rfl, _, _, rfl, saying, listed⟩, rfl⟩

/-- A metadata block is read exactly by its grammar. -/
theorem accepts_records (order : ByteOrder) : Accepts (records order) (SpellsBlock order) :=
  accepts_list order (accepts_record order)

end Metadata.Reader

end Tdms
