import Tdms.Error
import Tdms.OrderedMap
import Tdms.Samples.Run

/-!
The catalogue of a file: its properties, its groups and their channels, in the
order in which the file first names them.

A channel has the runs of bytes in which its samples lie. Beside what callers
look up, the catalogue keeps what the next segment builds on: the active
objects, and the raw data index that each object declared last.
-/

namespace Tdms

open Metadata (RawIndex)

/-- Properties under their names, in the order in which they were first written. -/
abbrev Properties := OrderedMap String Property

/-- A channel and where its samples lie. -/
structure Channel where
  /-- Name of the group it belongs to. -/
  group : String
  name : String
  /-- Type of its samples, once a segment has declared any. -/
  type : Option ScalarType
  /-- Where its samples lie, with the latest run first. -/
  latestRuns : List Run
  /-- Samples in all runs. -/
  sampleCount : Nat
  properties : Properties
  deriving DecidableEq, Inhabited

namespace Channel

/-- A channel that the file has only named. -/
def named (group name : String) : Channel :=
  { group, name, type := none, latestRuns := [], sampleCount := 0, properties := .empty }

/-- The path of a channel as text. -/
def path (channel : Channel) : String :=
  (ObjectPath.channel channel.group channel.name).render

/-- Where the samples of a channel lie, in file order. -/
def runs (channel : Channel) : List Run :=
  channel.latestRuns.reverse

/-- The channel with one more run. -/
def push (channel : Channel) (run : Run) : Channel :=
  { channel with
    latestRuns := Run.push channel.latestRuns run
    sampleCount := channel.sampleCount + run.totalSamples }

end Channel

/-- A group and its channels. -/
structure Group where
  name : String
  properties : Properties
  /-- Channels under their names. -/
  channels : OrderedMap String Channel
  deriving DecidableEq, Inhabited

/-- A group that the file has only named. -/
def Group.named (name : String) : Group :=
  { name, properties := .empty, channels := .empty }

/-- What a file holds, and what its next segment builds on. -/
structure Catalogue where
  /-- Properties of the file itself. -/
  properties : Properties
  /-- Groups under their names. -/
  groups : OrderedMap String Group
  /-- Objects of the last segment with metadata, with their raw data in each chunk. -/
  active : OrderedMap ObjectPath (Option RawIndex)
  /-- The raw data index that each object declared last. -/
  declared : OrderedMap ObjectPath RawIndex
  /-- Segments taken up so far. -/
  segmentCount : Nat
  deriving DecidableEq, Inhabited

namespace Catalogue

/-- The catalogue of a file without segments. -/
def empty : Catalogue :=
  { properties := .empty, groups := .empty, active := .empty, declared := .empty,
    segmentCount := 0 }

/-- The channel `name` of the group `owner`, if the file names it. -/
def channel? (catalogue : Catalogue) (owner name : String) : Option Channel :=
  (catalogue.groups.get? owner).bind fun group => group.channels.get? name

/-- The group with exactly this name. -/
def group (catalogue : Catalogue) (name : String) : Except Error Group :=
  match catalogue.groups.get? name with
  | some group => .ok group
  | none => .error (.noSuchGroup name)

/-- The channel with exactly this name in the group with exactly this name. -/
def channel (catalogue : Catalogue) (owner name : String) : Except Error Channel :=
  match catalogue.group owner with
  | .error error => .error error
  | .ok group =>
    match group.channels.get? name with
    | some channel => .ok channel
    | none => .error (.noSuchChannel owner name)

/-- Puts the group `name` through `change`, named first if it is new. -/
def alterGroup (catalogue : Catalogue) (name : String) (change : Group → Group) : Catalogue :=
  { catalogue with groups := catalogue.groups.alter name (.named name) change }

/-- Puts a channel through `change`, named first if it is new. -/
def alterChannel (catalogue : Catalogue) (owner name : String) (change : Channel → Channel) :
    Catalogue :=
  catalogue.alterGroup owner fun group =>
    { group with channels := group.channels.alter name (.named owner name) change }

/-- Puts a channel through `change`, if the catalogue has it. -/
def modifyChannel (catalogue : Catalogue) (owner name : String) (change : Channel → Channel) :
    Catalogue :=
  { catalogue with
    groups := catalogue.groups.modify owner fun group =>
      { group with channels := group.channels.modify name change } }

end Catalogue

end Tdms
