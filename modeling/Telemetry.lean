import Telemetry.Number.Reader
import Telemetry.Number.Layout
import Telemetry.Text.Blank
import Telemetry.Text.NaturalOrder
import Telemetry.Text.Quoted
import Telemetry.Text.Utf8
import Telemetry.Register.Window
import Telemetry.Series.Registry
import Telemetry.Series.Exposition
import Telemetry.Metric.Basic
import Telemetry.Block.Pass
import Telemetry.Block.Attachment
import Telemetry.Metric.Template
import Telemetry.Block.Stock
import Telemetry.Domain.Sampler
import Telemetry.Report.Basic
import Telemetry.Outline
import Telemetry.Http.Target
import Telemetry.Http.Form
import Telemetry.Main
import Telemetry.Json.Settings
import Telemetry.Replay.Clock
import Telemetry.Proofs.Passing
import Telemetry.Proofs.Site
import Telemetry.Proofs.Labelling
import Telemetry.Proofs.Faults
import Telemetry.Proofs.Numbering
import Telemetry.Proofs.Following
import Telemetry.Proofs.Counters
import Telemetry.Proofs.Sampled
import Telemetry.Proofs.Counting
import Telemetry.Proofs.Registered
import Telemetry.Proofs.Scraped
import Telemetry.Proofs.AllOrNothing
import Telemetry.Proofs.Sparing
import Telemetry.Proofs.Histories
import Telemetry.Proofs.Hooks
import Telemetry.Proofs.Interleaving
import Telemetry.Proofs.Consequences
import Telemetry.Proofs.Handles
import Telemetry.Proofs.Hearing
import Telemetry.Proofs.Converting
import Telemetry.Proofs.Flattening
import Telemetry.Proofs.Tallying
import Telemetry.Proofs.Describing
import Telemetry.Proofs.Rising
import Telemetry.Proofs.Played
import Telemetry.Proofs.Decoding
import Telemetry.Proofs.Clearing
import Telemetry.Proofs.Ordering
import Telemetry.Proofs.Grouping
import Telemetry.Proofs.Naming
import Telemetry.Proofs.Figures
import Telemetry.Proofs.Reporting
import Telemetry.Proofs.Padding
import Telemetry.Proofs.Significant
import Telemetry.Proofs.Denoting
import Telemetry.Proofs.Direct
import Telemetry.Proofs.Overheard
import Telemetry.Proofs.Stopping
import Telemetry.Block.Buffer
import Telemetry.Proofs.Buffered
import Telemetry.Proofs.Apart
import Telemetry.Proofs.Counterparts
import Telemetry.Proofs.Wholes
import Telemetry.Proofs.Headings
import Telemetry.Proofs.Served
import Telemetry.Proofs.Memory
import Telemetry.Proofs.Mapping
import Telemetry.Proofs.Intervals
import Telemetry.Proofs.Pacing
