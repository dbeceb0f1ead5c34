import Mson.Api.Description
import Mson.Api.Payload
import Mson.Command.Catalog
import Mson.Command.Execution
import Mson.Command.HelpPage
import Mson.Command.Invocation
import Mson.Command.Options
import Mson.Configuration.Reading
import Mson.Configuration.Scaffold
import Mson.Element.Basic
import Mson.Element.Flags
import Mson.Element.KeyText
import Mson.Element.Kind
import Mson.Example.Rendering
import Mson.File.Access
import Mson.File.Archive
import Mson.File.Fault
import Mson.File.Path
import Mson.File.Store
import Mson.Inheritance
import Mson.Json.Basic
import Mson.Json.Printer
import Mson.Json.Reader
import Mson.Main
import Mson.Mapping
import Mson.Mixin
import Mson.Number.Decimal
import Mson.Number.Double
import Mson.Reachability
import Mson.Refract.Parser
import Mson.Refract.Unwrap
import Mson.Report.Markup
import Mson.Report.RunReport
import Mson.Report.Spreadsheet
import Mson.Report.Workbook
import Mson.Run.NamedType
import Mson.Run.Notice
import Mson.Run.Outcome
import Mson.Run.RenderedPayload
import Mson.Run.Settings
import Mson.Schema.Equality
import Mson.Schema.Rendering
import Mson.Schema.Widening
import Mson.SymbolTable
import Mson.Text.Base64
import Mson.Text.Blank
import Mson.Text.Cased
import Mson.Text.DecimalDigit
import Mson.Text.Integer
import Mson.Text.LowerCase
import Mson.Text.Newline
import Mson.Text.Printable
import Mson.Text.Quoted
import Mson.Text.Real
import Mson.Text.Similar
import Mson.Text.Split
import Mson.Text.TerminalCode
import Mson.Text.Utf8
import Mson.Time.Calendar
import Mson.Time.Digits
import Mson.Time.Iso
import Mson.Time.Moment
import Mson.Value
import Mson.Yaml.Atom
import Mson.Yaml.Cursor
import Mson.Yaml.Fault
import Mson.Yaml.Merge
import Mson.Yaml.Node
import Mson.Yaml.Scalar
import Mson.Yaml.Tag
import Mson.Yaml.Timestamp
import Mson.Yaml.Token
import Mson.Yaml.TokenStream
import Mson.Yaml.Value
import Mson.Proofs.Datum
import Mson.Proofs.Expansion
import Mson.Proofs.Example.Contribution
import Mson.Proofs.Schema.Acceptance
import Mson.Proofs.Computation
import Mson.Proofs.Refract.Shape
import Mson.Proofs.Schema.Widening
import Mson.Proofs.Schema.Form
import Mson.Proofs.Schema.Items
import Mson.Proofs.Schema.Nullable
import Mson.Proofs.Rendering.Limit
import Mson.Proofs.Reachability
import Mson.Proofs.Rendering.Coverage
import Mson.Proofs.Rendering.Success
import Mson.Proofs.Rendering.Termination
import Mson.Proofs.Rendering.Conformance
import Mson.Proofs.Schema.Contribution
import Mson.Proofs.Rendering.Object
import Mson.Proofs.Overriding
import Mson.Proofs.Rendering.Mixin
import Mson.Proofs.Rendering.Exclusion
import Mson.Proofs.Rendering.Printable
import Mson.Proofs.Api.Payload
import Mson.Proofs.Run.Isolation
import Mson.Proofs.ReferenceCycle
import Mson.Proofs.Rendering.Flattening
import Mson.Proofs.Run.NamedType
import Mson.Proofs.Rendering.OptionSet
import Mson.Proofs.JoinedMembers
import Mson.Proofs.Refract.Grammar
import Mson.Proofs.Rendering.FirstOption
import Mson.Proofs.Rendering.Layout
import Mson.Proofs.Rendering.PropertyNames
import Mson.Proofs.Declarations
import Mson.Proofs.Schema.Equality
import Mson.Proofs.Run.Provenance
import Mson.Proofs.Configuration.Loading
import Mson.Proofs.Worklist
import Mson.Proofs.Api.Label
import Mson.Proofs.Run.GivenText
import Mson.Proofs.Run.EmittedText
import Mson.Proofs.LastDefinition
import Mson.Proofs.Schema.ClosedShape
import Mson.Proofs.Rendering.InPlace
import Mson.Proofs.Refract.Unwrapping
