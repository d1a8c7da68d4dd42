import Tdms.Catalogue
import Tdms.Metadata.Block
import Tdms.Segment.Layout
import Tdms.Segment.Scan

/-!
Building the catalogue of a file from its segments, in file order.

`apply` takes up one segment: first its records, then the runs of its raw
data. A segment that does not fit leaves no catalogue behind. `build` takes up
the segments of a source; where it may recover, a truncated segment ends the
file instead of refusing it.
-/

namespace Tdms.Catalogue

open Metadata (RawIndex Record Declaration)

/-- The raw data that `record` gives its object. -/
def resolve (catalogue : Catalogue) (offset : Nat) (record : Record) :
    Except Error (Option RawIndex) :=
  match record.declaration with
  | .noData => .ok none
  | .new index => .ok (some index)
  | .matchesPrevious =>
    match catalogue.declared.get? record.path with
    | some index => .ok (some index)
    | none => .error (.corruptMetadata offset (.neverDeclared record.path))

/-- Declares the raw data of a channel. A channel keeps the type that it declared first. -/
def declare (catalogue : Catalogue) (offset : Nat) (path : ObjectPath) (index : RawIndex) :
    Except Error Catalogue :=
  match path with
  | .channel owner name =>
    match (catalogue.channel? owner name).bind Channel.type with
    | some existing =>
      if existing = index.type then
        .ok { catalogue with declared := catalogue.declared.insert path index }
      else .error (.inconsistentType path.render existing index.type)
    | none =>
      let typed := catalogue.alterChannel owner name fun channel =>
        { channel with type := some index.type }
      .ok { typed with declared := typed.declared.insert path index }
  | .root | .group _ => .error (.corruptMetadata offset (.notChannel path))

/-- Names the object at `path` and writes its properties, later values over earlier ones. -/
def describe (catalogue : Catalogue) (path : ObjectPath) (properties : List (String × Property)) :
    Catalogue :=
  match path with
  | .root => { catalogue with properties := catalogue.properties.insertAll properties }
  | .group name =>
    catalogue.alterGroup name fun group =>
      { group with properties := group.properties.insertAll properties }
  | .channel owner name =>
    catalogue.alterChannel owner name fun channel =>
      { channel with properties := channel.properties.insertAll properties }

/-- Takes up one record of the segment at `offset`. -/
def applyRecord (offset : Nat) (catalogue : Catalogue) (record : Record) :
    Except Error Catalogue := do
  let index? ← catalogue.resolve offset record
  let declared ←
    match index? with
    | some index => catalogue.declare offset record.path index
    | none => pure catalogue
  let described := declared.describe record.path record.properties
  pure { described with active := described.active.insert record.path index? }

/-- Takes up the records of a segment, with no object active before them if the segment starts a
new list of objects. -/
def applyRecords (catalogue : Catalogue) (segment : Segment) (records : List Record) :
    Except Error Catalogue :=
  let start :=
    if segment.hasNewObjectList then { catalogue with active := .empty } else catalogue
  records.foldlM (applyRecord segment.offset) start

/-- Takes up the metadata of a segment, if it has any. -/
def applyMetadata (catalogue : Catalogue) (segment : Segment) : Except Error Catalogue :=
  match segment.metadata with
  | none => .ok catalogue
  | some block =>
    match Metadata.decode segment.order block.data.toList with
    | .error (.corrupt fault) => .error (.corruptMetadata segment.offset fault)
    | .error (.unknownType code path) => .error (.unknownType code path)
    | .ok records => catalogue.applyRecords segment records

/-- The active objects that have raw data, in order. -/
def owners (catalogue : Catalogue) : List (ObjectPath × RawIndex) :=
  catalogue.active.entries.filterMap fun entry => entry.2.map fun index => (entry.1, index)

/-- Gives the channel at `path` one more run. -/
def pushRun (catalogue : Catalogue) (path : ObjectPath) (run : Run) : Catalogue :=
  match path with
  | .channel owner name => catalogue.modifyChannel owner name fun channel => channel.push run
  | .root | .group _ => catalogue

/-- Takes up the raw data of a segment. -/
def applyData (catalogue : Catalogue) (segment : Segment) : Except Error Catalogue :=
  let owners := catalogue.owners
  match Layout.runs segment (owners.map Prod.snd) with
  | .error fault => .error (.corruptMetadata segment.offset fault)
  | .ok runs =>
    .ok <| (owners.zip runs).foldl
      (fun catalogue (owner, run?) =>
        match run? with
        | some run => catalogue.pushRun owner.1 run
        | none => catalogue)
      catalogue

/-- Takes up one segment. -/
def apply (catalogue : Catalogue) (segment : Segment) : Except Error Catalogue := do
  let described ← catalogue.applyMetadata segment
  let placed ← if 0 < segment.dataLength then described.applyData segment else pure described
  pure { placed with segmentCount := placed.segmentCount + 1 }

/-- The catalogue of a source, and where the segment starts that was left out as truncated. -/
def build (source : Source) (recover : Bool) : Except Error (Catalogue × Option Nat) :=
  let found := scan source
  match found.segments.foldlM apply empty with
  | .error error => .error error
  | .ok catalogue =>
    match found.error? with
    | none => .ok (catalogue, none)
    | some (.truncated offset required available) =>
      if recover then .ok (catalogue, some offset)
      else .error (.truncated offset required available)
    | some error => .error error

end Tdms.Catalogue
