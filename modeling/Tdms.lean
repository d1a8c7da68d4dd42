import Tdms.Bytes.Spelling
import Tdms.Export.Parcel
import Tdms.Journal
import Tdms.Main
import Tdms.Proofs.Draft
import Tdms.Proofs.Metadata.Reader
import Tdms.Proofs.OrderedMap
import Tdms.Proofs.Catalogue.Channels
import Tdms.Proofs.Catalogue.Records
import Tdms.Proofs.Segment
import Tdms.Proofs.Layout
import Tdms.Proofs.Stage
import Tdms.Proofs.Catalogue.Runs
import Tdms.Proofs.Catalogue.Consistent
import Tdms.Proofs.Blocks
import Tdms.Proofs.Catalogue.Partition
import Tdms.Proofs.Reading
import Tdms.Proofs.Metadata.Codec
import Tdms.Proofs.Draft.Scan
import Tdms.Proofs.Catalogue.Directory
import Tdms.Proofs.Draft.Accepted
import Tdms.Proofs.Draft.Columns
import Tdms.Proofs.RoundTrip
import Tdms.Proofs.Metadata.Grammar
import Tdms.Proofs.Segment.Cut
import Tdms.Proofs.Catalogue.Apply
import Tdms.Proofs.Catalogue.Cut
import Tdms.Proofs.Recovery
import Tdms.Proofs.Segment.Append
import Tdms.Proofs.Shift
import Tdms.Proofs.Catalogue.Append
import Tdms.Proofs.Append
import Tdms.Proofs.Segment.Tiling
import Tdms.Proofs.Agreement
import Tdms.Proofs.Isolation
import Tdms.Proofs.Segment.Split
import Tdms.Proofs.Catalogue.Split
import Tdms.Proofs.Alike
import Tdms.Proofs.Split
import Tdms.Proofs.Naming
import Tdms.Proofs.Catalogue.Types
import Tdms.Proofs.Inquiry
import Tdms.Proofs.Inquiry.Opening
import Tdms.Proofs.Inquiry.Channel
import Tdms.Proofs.Safety
import Tdms.Proofs.Sources
import Tdms.Proofs.Layout.Visits
import Tdms.Proofs.Layout.Checked
import Tdms.Proofs.Catalogue.Checked
import Tdms.Proofs.Options
import Tdms.Proofs.Table
import Tdms.Proofs.Command
import Tdms.Proofs.Json.Grammar
import Tdms.Proofs.Json.Reader
import Tdms.Proofs.Listing
import Tdms.Proofs.Strings
import Tdms.Proofs.Spelled
import Tdms.Proofs.Catalogue.Positions
import Tdms.Proofs.Catalogue.Active
import Tdms.Proofs.Catalogue.Growth
import Tdms.Proofs.Segment.Verdict
import Tdms.Proofs.Metadata.Cut
import Tdms.Proofs.Elsewhere
import Tdms.Proofs.Timestamp.Nanos
import Tdms.Proofs.Timestamp.Calendar
import Tdms.Proofs.Timestamp.Text
import Tdms.Proofs.Export.Buffers
import Tdms.Proofs.Export.Column
import Tdms.Proofs.Values
import Tdms.Proofs.Coalescing
import Tdms.Proofs.Sources.Contract
