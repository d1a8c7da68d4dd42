import Mathlib
import Tdms.Proofs.Cell
import Tdms.Proofs.Walk

/-!
Drafts of segments, and the bytes that a plain writer makes of them.

A draft lists the objects of a segment with what they declare and their
properties, and the raw data round by round: a column of values for each
object that owns some. The writer never checks a draft. `Draft.WellFormed` says
when drafts make a file together, and `Draft.Encodable` when the numbers of a
draft fit the fields that the format has for them.
-/

namespace Tdms

open Metadata (RawIndex Record Declaration)
open Walk (Memory Share)

namespace Draft

/-! ## Objects -/

/-- What an object declares about its raw data. -/
inductive Declared where
  | noData
  | matchesPrevious
  /-- So many values of the fixed width type that `code` stands for. -/
  | values (code : UInt32) (count : UInt64)
  /-- So many strings in so many bytes. -/
  | strings (count size : UInt64)
  deriving DecidableEq

/-- An object of a segment. -/
structure Object where
  path : ObjectPath
  declared : Declared
  properties : List (String × Property)
  deriving DecidableEq

/-- The raw data index that an object declares anew, if it does. -/
def Declared.index? : Declared → Option RawIndex
  | noData | matchesPrevious => none
  | values code count =>
    (ScalarType.ofCode? code).map fun type => ⟨type, count.toNat, count.toNat * type.width⟩
  | strings count size => some ⟨.string, count.toNat, size.toNat⟩

/-- What a reader makes of a declaration. -/
def Declared.declaration : Declared → Declaration
  | matchesPrevious => .matchesPrevious
  | declared =>
    match declared.index? with
    | some index => .new index
    | none => .noData

/-- Whether the values that are declared are of a type of fixed width. -/
def Declared.Known : Declared → Prop
  | noData | matchesPrevious | strings _ _ => True
  | values code _ => ∃ type, ScalarType.ofCode? code = some type ∧ type ≠ .string

/-- The record of an object. -/
def Object.record (object : Object) : Record where
  path := object.path
  declaration := object.declared.declaration
  properties := object.properties

/-- A text: its length in bytes, then its bytes. -/
def textBytes (order : ByteOrder) (text : String) : List UInt8 :=
  order.bytes 4 (Utf8.encode text).length ++ Utf8.encode text

/-- Whether the length of a text fits the field for it. -/
def Short (text : String) : Prop :=
  (Utf8.encode text).length < UInt32.size

/-- Whether a value that is a text fits the field for it. -/
def ShortValue : Property → Prop
  | ⟨.string, text⟩ => Short text
  | _ => True

/-- Whether the texts of a property fit their fields. -/
def ShortProperty (property : String × Property) : Prop :=
  Short property.1 ∧ ShortValue property.2

/-- The value of a property. -/
def valueBytes (order : ByteOrder) : (type : ScalarType) → type.Value → List UInt8
  | .string, text => textBytes order text
  | type, value => type.toCell order value

/-- A property: its name, the code of its type, and its value. -/
def propertyBytes (order : ByteOrder) (property : String × Property) : List UInt8 :=
  textBytes order property.1 ++ order.bytes 4 property.2.type.code.toNat ++
    valueBytes order property.2.type property.2.value

/-- Raw data headers of a declaration of values and of one of strings: how long they are. -/
def valuesHeader : Nat := 20

def stringsHeader : Nat := 28

/-- What an object declares about its raw data. -/
def Declared.bytes (order : ByteOrder) : Declared → List UInt8
  | noData => order.bytes 4 Metadata.noDataHeader.toNat
  | matchesPrevious => order.bytes 4 Metadata.matchesPreviousHeader.toNat
  | values code count =>
    order.bytes 4 valuesHeader ++ order.bytes 4 code.toNat ++ order.bytes 4 1 ++
      order.bytes 8 count.toNat
  | strings count size =>
    order.bytes 4 stringsHeader ++ order.bytes 4 ScalarType.string.code.toNat ++
      order.bytes 4 1 ++ order.bytes 8 count.toNat ++ order.bytes 8 size.toNat

/-- The record of an object. -/
def Object.bytes (order : ByteOrder) (object : Object) : List UInt8 :=
  textBytes order object.path.render ++ object.declared.bytes order ++
    order.bytes 4 object.properties.length ++ object.properties.flatMap (propertyBytes order)

/-! ## Raw data -/

/-- The values of an object in one round. -/
structure Column where
  type : ScalarType
  values : List type.Value
  /-- Bytes after the values, which mean nothing. -/
  padding : List UInt8

/-- The end offsets of texts, the first of which starts at `start`. -/
def stopBytes (order : ByteOrder) : (start : Nat) → List String → List UInt8
  | _, [] => []
  | start, text :: rest =>
    let stop := start + (Utf8.encode text).length
    order.bytes 4 stop ++ stopBytes order stop rest

/-- The values of a column: a chunk of strings, or cells that follow each other. -/
def cellBytes (order : ByteOrder) : (type : ScalarType) → List type.Value → List UInt8
  | .string, texts => stopBytes order 0 texts ++ texts.flatMap Utf8.encode
  | type, values => values.flatMap (type.toCell order)

/-- A column with its padding. -/
def Column.bytes (order : ByteOrder) (column : Column) : List UInt8 :=
  cellBytes order column.type column.values ++ column.padding

/-- The values of a column, each with its type. -/
def Column.scalars (column : Column) : List Property :=
  column.values.map (Property.mk column.type)

/-- Whether a column has the type, the number of values and the bytes that its owner owns. -/
structure Column.Fills (order : ByteOrder) (share : Share) (column : Column) : Prop where
  type : column.type = share.type
  count : column.values.length = share.count
  size : (column.bytes order).length = share.size

end Draft

/-! ## Segments -/

/-- What a segment is to hold. -/
structure Draft where
  contents : Contents
  objects : List Draft.Object
  /-- The columns of each round of raw data. -/
  rounds : List (List Draft.Column)
  /-- Whether the writer leaves the segment without its length. -/
  unfinished : Bool

namespace Draft

def order (draft : Draft) : ByteOrder :=
  draft.contents.order

/-- The metadata block, empty without the flag for it. -/
def metadataBytes (draft : Draft) : List UInt8 :=
  if draft.contents.hasMetadata then
    draft.order.bytes 4 draft.objects.length ++
      draft.objects.flatMap (Object.bytes draft.order)
  else []

/-- The raw data, round by round. -/
def dataBytes (draft : Draft) : List UInt8 :=
  draft.rounds.flatMap fun round => round.flatMap (Column.bytes draft.order)

/-- The lead-in of a segment. -/
def leadIn (draft : Draft) : LeadIn where
  contents := draft.contents
  version := 4713
  nextSegmentOffset :=
    if draft.unfinished then LeadIn.unfinished
    else UInt64.ofNat (draft.metadataBytes.length + draft.dataBytes.length)
  rawDataOffset := UInt64.ofNat draft.metadataBytes.length

/-- The bytes of a segment. -/
def bytes (draft : Draft) : List UInt8 :=
  draft.leadIn.encode ++ draft.metadataBytes ++ draft.dataBytes

/-- The bytes of a file. -/
def file (drafts : List Draft) : ByteArray :=
  (drafts.flatMap bytes).toByteArray

/-! ## What a draft means -/

/-- The records of a segment, none without the flag for metadata. -/
def records (draft : Draft) : List Record :=
  if draft.contents.hasMetadata then draft.objects.map Object.record else []

/-- What is remembered after the metadata of a segment. -/
def enter (memory : Memory) (draft : Draft) : Memory :=
  let start :=
    if draft.contents.hasMetadata ∧ draft.contents.hasNewObjectList then
      { memory with active := [] }
    else memory
  draft.records.foldl Memory.note start

/-- What the objects of a segment own in every round. -/
def shares (memory : Memory) (draft : Draft) : List Share :=
  Walk.shares draft.contents.isInterleaved (draft.enter memory).owners

/-- The values of a round for the object at `path`. -/
def writtenIn (path : ObjectPath) (shares : List Share) (round : List Column) : List Property :=
  (shares.zip round).flatMap fun (share, column) =>
    if share.path = path then column.scalars else []

/-- The values that a draft writes for the object at `path`, in order. -/
def written (path : ObjectPath) (memory : Memory) (draft : Draft) : List Property :=
  draft.rounds.flatMap (writtenIn path (draft.shares memory))

/-- The values that drafts write for the object at `path`, in order. -/
def allWritten (path : ObjectPath) : Memory → List Draft → List Property
  | _, [] => []
  | memory, draft :: rest => draft.written path memory ++ allWritten path (draft.enter memory) rest

/-! ## Which drafts are well formed -/

/-- The objects that the metadata of a segment lists. -/
def listed (draft : Draft) : List Object :=
  if draft.contents.hasMetadata then draft.objects else []

/-- What an object owes to the drafts before its segment, of which `memory` is remembered. -/
structure Object.Fits (memory : Memory) (object : Object) : Prop where
  /-- Only channels declare raw data. -/
  channel : object.declared.index?.isSome → object.path.isChannel = true
  known : object.declared.Known
  sameType : ∀ index ∈ object.declared.index?, ∀ previous ∈ memory.latest object.path,
    index.type = previous.type
  declaredBefore : object.declared = .matchesPrevious → (memory.latest object.path).isSome
  shortPath : Short object.path.render
  shortProperties : ∀ property ∈ object.properties, ShortProperty property

/-- What a draft owes to the drafts before it, of which `memory` is remembered. -/
structure Fits (memory : Memory) (draft : Draft) : Prop where
  distinct : (draft.listed.map Object.path).Nodup
  objects : ∀ object ∈ draft.listed, object.Fits memory
  /-- No record holds strings. -/
  fixedRecords : draft.contents.isInterleaved → draft.rounds ≠ [] →
    ∀ share ∈ draft.shares memory, share.type ≠ .string
  /-- Every round has one column for each object that owns raw data. -/
  filled : ∀ round ∈ draft.rounds,
    List.Forall₂ (Column.Fills draft.order) (draft.shares memory) round
  flagged : draft.contents.hasRawData = false → draft.rounds = []
  shortValues : ∀ round ∈ draft.rounds, ∀ column ∈ round, ∀ value ∈ column.scalars,
    ShortValue value

/-- What all drafts owe to each other. -/
def FitsAll : Memory → List Draft → Prop
  | _, [] => True
  | memory, draft :: rest => draft.Fits memory ∧ FitsAll (draft.enter memory) rest

/-- Well-formed drafts of a file: each fits those before it, only the last may be unfinished, and
the file is shorter than 2^63 bytes. -/
structure WellFormed (drafts : List Draft) : Prop where
  fits : FitsAll .blank drafts
  finished : ∀ draft ∈ drafts.dropLast, draft.unfinished = false
  short : (file drafts).size < UInt64.size / 2

/-- Bytes of the texts of a column. -/
def Column.textLength : Column → Nat
  | ⟨.string, texts, _⟩ => (texts.flatMap Utf8.encode).length
  | _ => 0

/-- Whether the numbers of an object fit the fields that the format has for them. -/
structure Object.Encodable (object : Object) : Prop where
  fewProperties : object.properties.length < UInt32.size
  wellFormed : ∀ index ∈ object.declared.index?, index.WellFormed

/-- Whether the numbers of a draft fit the fields that the format has for them. -/
structure Encodable (draft : Draft) : Prop where
  fewObjects : draft.listed.length < UInt32.size
  objects : ∀ object ∈ draft.listed, object.Encodable
  shortChunks : ∀ round ∈ draft.rounds, ∀ column ∈ round, column.textLength < UInt32.size

/-! ## Deciding whether drafts are well formed -/

instance (declared : Declared) : Decidable declared.Known :=
  match declared with
  | .noData | .matchesPrevious | .strings _ _ => .isTrue trivial
  | .values code _ =>
    inferInstanceAs (Decidable (∃ type ∈ ScalarType.ofCode? code, type ≠ .string))

instance (text : String) : Decidable (Short text) :=
  inferInstanceAs (Decidable (_ < _))

instance (value : Property) : Decidable (ShortValue value) :=
  match value with
  | ⟨.string, text⟩ => inferInstanceAs (Decidable (Short text))
  | ⟨.int8, _⟩ | ⟨.int16, _⟩ | ⟨.int32, _⟩ | ⟨.int64, _⟩ | ⟨.uint8, _⟩ | ⟨.uint16, _⟩
  | ⟨.uint32, _⟩ | ⟨.uint64, _⟩ | ⟨.float32, _⟩ | ⟨.float64, _⟩ | ⟨.boolean, _⟩
  | ⟨.timestamp, _⟩ | ⟨.complex64, _⟩ | ⟨.complex128, _⟩ => .isTrue trivial

instance (property : String × Property) : Decidable (ShortProperty property) :=
  inferInstanceAs (Decidable (_ ∧ _))

instance (order : ByteOrder) (share : Share) (column : Column) :
    Decidable (column.Fills order share) :=
  decidable_of_iff (column.type = share.type ∧ column.values.length = share.count ∧
    (column.bytes order).length = share.size) ⟨fun all => ⟨all.1, all.2.1, all.2.2⟩,
      fun fills => ⟨fills.type, fills.count, fills.size⟩⟩

instance (memory : Memory) (object : Object) : Decidable (object.Fits memory) :=
  decidable_of_iff ((object.declared.index?.isSome → object.path.isChannel = true) ∧
      object.declared.Known ∧
      (∀ index ∈ object.declared.index?, ∀ previous ∈ memory.latest object.path,
        index.type = previous.type) ∧
      (object.declared = .matchesPrevious → (memory.latest object.path).isSome) ∧
      Short object.path.render ∧ ∀ property ∈ object.properties, ShortProperty property)
    ⟨fun ⟨channel, known, sameType, declaredBefore, shortPath, shortProperties⟩ =>
      ⟨channel, known, sameType, declaredBefore, shortPath, shortProperties⟩,
    fun fits => ⟨fits.channel, fits.known, fits.sameType, fits.declaredBefore, fits.shortPath,
      fits.shortProperties⟩⟩

instance (memory : Memory) (draft : Draft) : Decidable (draft.Fits memory) :=
  decidable_of_iff ((draft.listed.map Object.path).Nodup ∧
      (∀ object ∈ draft.listed, object.Fits memory) ∧
      (draft.contents.isInterleaved → draft.rounds ≠ [] →
        ∀ share ∈ draft.shares memory, share.type ≠ .string) ∧
      (∀ round ∈ draft.rounds,
        List.Forall₂ (Column.Fills draft.order) (draft.shares memory) round) ∧
      (draft.contents.hasRawData = false → draft.rounds = []) ∧
      ∀ round ∈ draft.rounds, ∀ column ∈ round, ∀ value ∈ column.scalars, ShortValue value)
    ⟨fun ⟨distinct, objects, fixedRecords, filled, flagged, shortValues⟩ =>
      ⟨distinct, objects, fixedRecords, filled, flagged, shortValues⟩,
    fun fits => ⟨fits.distinct, fits.objects, fits.fixedRecords, fits.filled, fits.flagged,
      fits.shortValues⟩⟩

instance decidableFitsAll (memory : Memory) (drafts : List Draft) :
    Decidable (FitsAll memory drafts) :=
  match drafts with
  | [] => .isTrue trivial
  | draft :: rest =>
    have : Decidable (FitsAll (draft.enter memory) rest) := decidableFitsAll _ rest
    inferInstanceAs (Decidable (draft.Fits memory ∧ FitsAll (draft.enter memory) rest))

instance (drafts : List Draft) : Decidable (WellFormed drafts) :=
  decidable_of_iff (FitsAll .blank drafts ∧ (∀ draft ∈ drafts.dropLast, draft.unfinished = false) ∧
      (file drafts).size < UInt64.size / 2)
    ⟨fun ⟨fits, finished, short⟩ => ⟨fits, finished, short⟩,
      fun all => ⟨all.fits, all.finished, all.short⟩⟩

instance (index : RawIndex) : Decidable index.WellFormed :=
  match fixed : index.type.width? with
  | some width =>
    decidable_of_iff (index.count < UInt64.size ∧ index.size < UInt64.size ∧
      index.size = index.count * width) (by rw [RawIndex.WellFormed, fixed])
  | none =>
    decidable_of_iff (index.count < UInt64.size ∧ index.size < UInt64.size ∧
      4 * index.count ≤ index.size) (by rw [RawIndex.WellFormed, fixed])

instance (object : Object) : Decidable object.Encodable :=
  decidable_of_iff (object.properties.length < UInt32.size ∧
      ∀ index ∈ object.declared.index?, index.WellFormed)
    ⟨fun ⟨few, wellFormed⟩ => ⟨few, wellFormed⟩, fun all => ⟨all.fewProperties, all.wellFormed⟩⟩

instance (draft : Draft) : Decidable draft.Encodable :=
  decidable_of_iff (draft.listed.length < UInt32.size ∧
      (∀ object ∈ draft.listed, object.Encodable) ∧
      ∀ round ∈ draft.rounds, ∀ column ∈ round, column.textLength < UInt32.size)
    ⟨fun ⟨few, objects, shortChunks⟩ => ⟨few, objects, shortChunks⟩,
      fun all => ⟨all.fewObjects, all.objects, all.shortChunks⟩⟩

end Draft

end Tdms
