import Tdms.File
import Tdms.Json
import Tdms.Property.Text

/-!
Listings: what a file holds, as text for people and as JSON for programs.

Groups and channels keep the order of the file. The properties of an object
are sorted by name.
-/

namespace Tdms

/-- A value as listings show it. -/
def Property.toJson : Property → Json
  | ⟨.int8, value⟩ => .int value.toInt
  | ⟨.int16, value⟩ => .int value.toInt
  | ⟨.int32, value⟩ => .int value.toInt
  | ⟨.int64, value⟩ => .int value.toInt
  | ⟨.uint8, value⟩ => .int value.toNat
  | ⟨.uint16, value⟩ => .int value.toNat
  | ⟨.uint32, value⟩ => .int value.toNat
  | ⟨.uint64, value⟩ => .int value.toNat
  | ⟨.float32, value⟩ => .ofBinary64 value.toBinary64
  | ⟨.float64, value⟩ => .ofBinary64 value
  | ⟨.string, value⟩ => .string value
  | ⟨.boolean, value⟩ => .bool value
  | ⟨.timestamp, value⟩ => .string value.text
  | ⟨.complex64, value⟩ =>
    .array [.ofBinary64 value.re.toBinary64, .ofBinary64 value.im.toBinary64]
  | ⟨.complex128, value⟩ => .array [.ofBinary64 value.re, .ofBinary64 value.im]

/-- What a listing shows of a channel. -/
structure ChannelListing where
  name : String
  type : Option ScalarType
  samples : Nat
  properties : List (String × Json)
  deriving Inhabited

/-- What a listing shows of a group. -/
structure GroupListing where
  name : String
  properties : List (String × Json)
  channels : List ChannelListing
  deriving Inhabited

/-- What a listing shows of a file. -/
structure Listing where
  path : String
  segments : Nat
  truncatedAt : Option Nat
  properties : List (String × Json)
  groups : List GroupListing
  deriving Inhabited

namespace Listing

/-- Properties as listings show them, sorted by name. -/
def sortedProperties (properties : Properties) : List (String × Json) :=
  (properties.entries.map fun entry => (entry.1, entry.2.toJson)).mergeSort
    fun left right => left.1 ≤ right.1

/-- The listing of `file`, which is called `path`, with or without properties. -/
def ofFile (path : String) (file : File) (withProperties : Bool) : Listing :=
  let shown (properties : Properties) :=
    if withProperties then sortedProperties properties else []
  { path
    segments := file.catalogue.segmentCount
    truncatedAt := file.truncatedAt
    properties := shown file.properties
    groups := file.catalogue.groups.values.map fun group =>
      { name := group.name
        properties := shown group.properties
        channels := group.channels.values.map fun channel =>
          { name := channel.name
            type := channel.type
            samples := channel.sampleCount
            properties := shown channel.properties } } }

/-- Properties as a member of an object, left out if there are none. -/
def propertiesMember (properties : List (String × Json)) : List (String × Json) :=
  if properties.isEmpty then [] else [("properties", .object properties)]

/-- A channel as JSON. -/
def channelJson (channel : ChannelListing) : Json :=
  .object <|
    [("name", .string channel.name),
      ("data_type", channel.type.elim .null fun type => .string type.name),
      ("samples", .int channel.samples)] ++ propertiesMember channel.properties

/-- A group as JSON. -/
def groupJson (group : GroupListing) : Json :=
  .object <|
    [("name", .string group.name)] ++ propertiesMember group.properties ++
      [("channels", .array (group.channels.map channelJson))]

/-- A listing as JSON. -/
def toJson (listing : Listing) : Json :=
  .object <|
    [("path", .string listing.path), ("segments", .int listing.segments)] ++
      listing.truncatedAt.elim [] (fun offset => [("truncated_at", .int offset)]) ++
      propertiesMember listing.properties ++
      [("groups", .array (listing.groups.map groupJson))]

/-- A property on a line of its own. Strings are shown as they are, all else as JSON. -/
def propertyLine (indent : String) (property : String × Json) : String :=
  let value :=
    match property.2 with
    | .string text => text
    | other => other.compact
  indent ++ property.1 ++ " = " ++ value ++ "\n"

/-- Properties, each on a line of its own. -/
def propertyLines (indent : String) (properties : List (String × Json)) : String :=
  String.join (properties.map (propertyLine indent))

/-- The lines of a channel. -/
def channelText (group : String) (channel : ChannelListing) : String :=
  let type := channel.type.elim "void" ScalarType.name
  s!"  {group} / {channel.name}  {type}  {channel.samples} samples\n" ++
    propertyLines "      " channel.properties

/-- The lines of a group. -/
def groupText (group : GroupListing) : String :=
  group.name ++ "\n" ++ propertyLines "    " group.properties ++
    String.join (group.channels.map (channelText group.name))

/-- A listing as text. -/
def text (listing : Listing) : String :=
  s!"{listing.path} ({listing.segments} segments)\n" ++
    listing.truncatedAt.elim "" (fun offset => s!"truncated at byte {offset}\n") ++
    propertyLines "  " listing.properties ++
    String.join (listing.groups.map groupText)

end Listing

end Tdms
