import Hygrometer.Acquisition
import Hygrometer.Address.Parser
import Hygrometer.Address.Printer
import Hygrometer.Binary64.Arithmetic
import Hygrometer.Binary64.Basic
import Hygrometer.Config.Basic
import Hygrometer.Config.Document
import Hygrometer.Config.Load
import Hygrometer.Decimal
import Hygrometer.Failure
import Hygrometer.Frame
import Hygrometer.Http
import Hygrometer.Json.Number
import Hygrometer.Json.Record
import Hygrometer.Json.Skip
import Hygrometer.Json.Text
import Hygrometer.Metrics.Family
import Hygrometer.Metrics.Registry
import Hygrometer.Page
import Hygrometer.Reading
import Hygrometer.Service
import Hygrometer.Session
import Hygrometer.Source
import Hygrometer.Text.Basic
import Hygrometer.Text.Quoted
import Hygrometer.Yaml.Cursor
import Hygrometer.Yaml.Event
import Hygrometer.Yaml.Node
import Hygrometer.Yaml.Property
import Hygrometer.Yaml.Resolve
import Hygrometer.Yaml.Scalar
import Hygrometer.Yaml.Token
import Hygrometer.Yaml.Token.Scan
import Hygrometer.Proofs.Acquisition.Course
import Hygrometer.Proofs.Acquisition.Plausible
import Hygrometer.Proofs.Acquisition.Protocol
import Hygrometer.Proofs.Address.Grammar
import Hygrometer.Proofs.Address.Printer
import Hygrometer.Proofs.Address.Reader
import Hygrometer.Proofs.Binary64.Clamp
import Hygrometer.Proofs.Binary64.Drift
import Hygrometer.Proofs.Binary64.Exact
import Hygrometer.Proofs.Binary64.Rounding
import Hygrometer.Proofs.Checksum.Detection
import Hygrometer.Proofs.Checksum.Division
import Hygrometer.Proofs.Config.Condition
import Hygrometer.Proofs.Config.Defaults
import Hygrometer.Proofs.Config.Layers
import Hygrometer.Proofs.Config.Leaf
import Hygrometer.Proofs.Config.Overlay
import Hygrometer.Proofs.Config.Port
import Hygrometer.Proofs.Config.Reading
import Hygrometer.Proofs.Config.Section
import Hygrometer.Proofs.Config.Strictness
import Hygrometer.Proofs.Config.Validity
import Hygrometer.Proofs.Config.Whole
import Hygrometer.Proofs.Decimal.Nearest
import Hygrometer.Proofs.Decimal.Shortest
import Hygrometer.Proofs.Frame.Classification
import Hygrometer.Proofs.Frame.RoundTrip
import Hygrometer.Proofs.Frame.Saturation
import Hygrometer.Proofs.Frame.Scale
import Hygrometer.Proofs.Health.Wire
import Hygrometer.Proofs.Http.Failure
import Hygrometer.Proofs.Http.Target
import Hygrometer.Proofs.Json.Grammar
import Hygrometer.Proofs.Json.Members
import Hygrometer.Proofs.Json.Number
import Hygrometer.Proofs.Json.Range
import Hygrometer.Proofs.Json.ReadBack
import Hygrometer.Proofs.Json.Record
import Hygrometer.Proofs.Json.Unambiguous
import Hygrometer.Proofs.Metrics.Counters
import Hygrometer.Proofs.Metrics.Exposition
import Hygrometer.Proofs.Metrics.Family
import Hygrometer.Proofs.Metrics.Histograms
import Hygrometer.Proofs.Metrics.Labels
import Hygrometer.Proofs.Metrics.Reader
import Hygrometer.Proofs.Metrics.Registry
import Hygrometer.Proofs.Metrics.RoundTrip
import Hygrometer.Proofs.Page.Escaping
import Hygrometer.Proofs.Page.Markup
import Hygrometer.Proofs.Reading.Members
import Hygrometer.Proofs.Reading.Wire
import Hygrometer.Proofs.Service.Conservation
import Hygrometer.Proofs.Service.Dispatch
import Hygrometer.Proofs.Service.Isolation
import Hygrometer.Proofs.Service.Run
import Hygrometer.Proofs.Service.Serving
import Hygrometer.Proofs.Session.Transcript
import Hygrometer.Proofs.Source.Faithful
import Hygrometer.Proofs.Source.Simulated
import Hygrometer.Proofs.Text.Basic
import Hygrometer.Proofs.Yaml.BlankText
import Hygrometer.Proofs.Yaml.Nested.Document
import Hygrometer.Proofs.Yaml.Number
import Hygrometer.Proofs.Yaml.Reordered
import Hygrometer.Proofs.Yaml.Scan
