import Tdms.File

/-!
The journal of an opening: what is worth telling about the segments that were
read and the raw data that was laid out, in the order in which it came up.

The journal is computed from the same segments and catalogues as the file, but
apart from them, so that nothing that is read depends on what is told.
-/

namespace Tdms

/-- How much an entry of the journal matters. -/
inductive Level where
  | debug
  | info
  | warn
  deriving DecidableEq, Repr, Inhabited

/-- An entry of the journal. -/
structure Entry where
  level : Level
  text : String
  deriving DecidableEq, Repr, Inhabited

/-- The name of a level. -/
def Level.name : Level → String
  | debug => "DEBUG"
  | info => "INFO"
  | warn => "WARN"

/-- An entry in one line. -/
def Entry.line (entry : Entry) : String :=
  entry.level.name ++ " " ++ entry.text

namespace Journal

/-- Tells of a segment whose writer never finished it. -/
def ofLeadIn (source : Source) (offset : Nat) (leadIn : LeadIn) : List Entry :=
  if leadIn.isUnfinished then
    let remaining := Segment.declaredLength source.length offset leadIn
    [⟨.warn, s!"segment at byte {offset} of {source.describe} was not finalized; " ++
      s!"treating the remaining {remaining} bytes as its contents"⟩]
  else []

/-- Tells of a segment that was read. -/
def ofSegment (segment : Segment) : Entry :=
  let contents := Text.hexDigits 4 segment.leadIn.contents.bits.toNat
  let metadata := segment.leadIn.rawDataOffset.toNat
  ⟨.debug, s!"segment {segment.ordinal} at byte {segment.offset}: toc=0x{contents} " ++
    s!"metadata={metadata}B raw={segment.dataLength}B"⟩

/-- Tells of the reading of the segment at `offset`. -/
def ofRead (source : Source) (offset ordinal : Nat) : List Entry :=
  let started :=
    match Segment.readLeadIn source offset with
    | .ok (some leadIn) => ofLeadIn source offset leadIn
    | .ok none | .error _ => []
  let finished :=
    match Segment.read source offset ordinal with
    | .ok (some (segment, _)) => [ofSegment segment]
    | .ok none | .error _ => []
  started ++ finished

/-- Tells of a scan: of its segments, and of the reading that stopped it. -/
def ofScan (source : Source) (found : Scan) : List Entry :=
  (found.segments.flatMap fun segment => ofRead source segment.offset segment.ordinal) ++
    ofRead source found.stop found.segments.length

/-- Tells of contiguous raw data that no object declares, or that ends inside a chunk. -/
def ofContiguous (segment : Segment) (indexes : List Metadata.RawIndex) : List Entry :=
  let size := Layout.chunkSize indexes
  let leftover := segment.dataLength % size
  if UInt64.size ≤ size then []
  else if size = 0 then
    [⟨.warn, s!"segment {segment.ordinal} has {segment.dataLength} bytes of raw data " ++
      "but no object declares any"⟩]
  else if leftover = 0 then []
  else
    [⟨.warn, s!"segment {segment.ordinal} ends with a partial chunk of {leftover} bytes " ++
      s!"(chunk size {size}); ignoring it"⟩]

/-- Tells of interleaved raw data that ends inside a record. -/
def ofInterleaved (segment : Segment) (indexes : List Metadata.RawIndex) : List Entry :=
  let width := Layout.recordWidth indexes
  let leftover := segment.dataLength % width
  if width = 0 ∨ leftover = 0 then []
  else
    [⟨.warn, s!"interleaved segment {segment.ordinal} ends with a partial record of " ++
      s!"{leftover} bytes (record width {width}); ignoring it"⟩]

/-- Tells of the raw data of a segment, of which the objects own the given bytes. -/
def ofLayout (segment : Segment) (indexes : List Metadata.RawIndex) : List Entry :=
  match Layout.runs segment indexes with
  | .error _ => []
  | .ok _ =>
    if segment.isInterleaved then ofInterleaved segment indexes else ofContiguous segment indexes

/-- Tells of a segment that a catalogue takes up. -/
def ofApply (catalogue : Catalogue) (segment : Segment) : List Entry :=
  match catalogue.applyMetadata segment with
  | .error _ => []
  | .ok described =>
    if 0 < segment.dataLength then ofLayout segment (described.owners.map Prod.snd) else []

/-- Tells of segments that are read and taken up in turn, and gives the catalogue after the last,
unless one of them does not fit. -/
def ofSegments (source : Source) : Catalogue → List Segment → List Entry × Option Catalogue
  | catalogue, [] => ([], some catalogue)
  | catalogue, segment :: rest =>
    let told := ofRead source segment.offset segment.ordinal ++ ofApply catalogue segment
    match catalogue.apply segment with
    | .error _ => (told, none)
    | .ok next =>
      let (later, last) := ofSegments source next rest
      (told ++ later, last)

/-- Tells of a finished catalogue. -/
def ofCatalogue (source : Source) (catalogue : Catalogue) : Entry :=
  ⟨.debug, s!"{source.describe}: indexed {catalogue.segmentCount} segments, " ++
    s!"{catalogue.groups.keys.length} groups"⟩

/-- Tells of a source that ends before byte `required`, inside the segment at `offset`, and that
is opened without this segment. -/
def ofRecovery (source : Source) (catalogue : Catalogue) (offset required available : Nat) :
    List Entry :=
  [⟨.warn, s!"{source.describe}: segment at byte {offset} needs {required} bytes " ++
      s!"but only {available} exist; " ++
      s!"keeping the {catalogue.segmentCount} complete segments before it"⟩,
    ofCatalogue source catalogue,
    ⟨.info, s!"{source.describe} opened in recovery mode; " ++
      s!"data from byte {offset} on is ignored"⟩]

/-- Tells of the opening of a source. -/
def ofOpening (source : Source) (recover : Bool) : List Entry :=
  let found := scan source
  match ofSegments source .empty found.segments with
  | (told, none) => told
  | (told, some catalogue) =>
    let stopped := ofRead source found.stop found.segments.length
    let closing :=
      match found.error? with
      | none => [ofCatalogue source catalogue]
      | some (.truncated offset required available) =>
        if recover then ofRecovery source catalogue offset required available else []
      | some _ => []
    told ++ stopped ++ closing

end Journal

end Tdms
