import BoolQuery.Main
import BoolQuery.Query.Draft
import BoolQuery.Json.Reader
import BoolQuery.Session
import BoolQuery.Proofs.Query.Scan
import BoolQuery.Proofs.Query.Language
import BoolQuery.Proofs.Query.Viability
import BoolQuery.Proofs.Query.Spelling
import BoolQuery.Proofs.Query.Depiction
import BoolQuery.Proofs.Query.Writing
import BoolQuery.Proofs.Query.Joining
import BoolQuery.Proofs.Query.LastRun
import BoolQuery.Proofs.Query.Respacing
import BoolQuery.Proofs.Data.Named
import BoolQuery.Proofs.Config.Merging
import BoolQuery.Proofs.Config.Leaves
import BoolQuery.Proofs.Config.Sources
import BoolQuery.Proofs.Data.Depth
import BoolQuery.Proofs.Config.Judgment
import BoolQuery.Proofs.Config.Precedence
import BoolQuery.Proofs.Json.Escapes
import BoolQuery.Proofs.Json.Numbers
import BoolQuery.Proofs.Json.RoundTrip
import BoolQuery.Proofs.Json.Characters
import BoolQuery.Proofs.Query.Printing
import BoolQuery.Proofs.Command.Compilation
import BoolQuery.Proofs.Session.Keeping
import BoolQuery.Proofs.Config.Breakdowns
import BoolQuery.Proofs.Session.Problems
import BoolQuery.Proofs.Query.Drafting
import BoolQuery.Proofs.Query.WellFormed
import BoolQuery.Proofs.Query.Tracing
import BoolQuery.Proofs.Command.Input
import BoolQuery.Proofs.Number.Decimal
import BoolQuery.Proofs.Toml.Written
import BoolQuery.Proofs.Config.Carriers
import BoolQuery.Proofs.Command.Showing
import BoolQuery.Proofs.Log.Routing
import BoolQuery.Proofs.Log.Reconfiguration
import BoolQuery.Proofs.Config.EnvLines
import BoolQuery.Proofs.Number.Grammar
import BoolQuery.Proofs.Config.Naturals
import BoolQuery.Proofs.Command.Indents
import BoolQuery.Proofs.Query.Positions
import BoolQuery.Proofs.Text.Quoted
import BoolQuery.Proofs.Query.Outlining
import BoolQuery.Proofs.Log.Objects
import BoolQuery.Proofs.Config.Assigning
import BoolQuery.Proofs.Log.Fields
