import FormGuard.Element.Reader
import FormGuard.Form.Validation
import FormGuard.Main
import FormGuard.Value.Compiled
import FormGuard.Proofs.Action
import FormGuard.Proofs.Failure
import FormGuard.Proofs.Registry.Lookup
import FormGuard.Proofs.Registry.Verdict
import FormGuard.Proofs.Registry.Presence
import FormGuard.Proofs.Registry.Registration
import FormGuard.Proofs.Registry.Run
import FormGuard.Proofs.Registry.StoredData
import FormGuard.Proofs.Registry.Refusal
import FormGuard.Proofs.Registry.Binding
import FormGuard.Proofs.Registry.Sharing
import FormGuard.Proofs.Form.Declaration
import FormGuard.Proofs.Form.Step
import FormGuard.Proofs.Form.Answer
import FormGuard.Proofs.Form.Pass
import FormGuard.Proofs.Form.Run
import FormGuard.Proofs.Form.Acceptance
import FormGuard.Proofs.Form.Mandatory
import FormGuard.Proofs.Form.GroupCount
import FormGuard.Proofs.Script.Literal
import FormGuard.Proofs.Script.Closing
import FormGuard.Proofs.Rule.Words
import FormGuard.Proofs.Rule.Length
import FormGuard.Proofs.Script.Page
import FormGuard.Proofs.Form.Stepwise
import FormGuard.Proofs.Form.Blocks
import FormGuard.Proofs.Form.Browser
import FormGuard.Proofs.Form.Call
import FormGuard.Proofs.Form.Growth
import FormGuard.Proofs.Form.Script
import FormGuard.Proofs.Form.Texts
import FormGuard.Proofs.Form.Closing
import FormGuard.Proofs.Form.Names
import FormGuard.Proofs.Form.Report
import FormGuard.Proofs.Form.Skipping
import FormGuard.Proofs.Form.Order
import FormGuard.Proofs.Form.References
import FormGuard.Proofs.Form.Refusal
import FormGuard.Proofs.Form.Children
import FormGuard.Proofs.Form.Emptiness
import FormGuard.Proofs.Text.Position
import FormGuard.Proofs.Form.Path
import FormGuard.Proofs.Registry.Offer
import FormGuard.Proofs.Registry.Likeness
import FormGuard.Proofs.Registry.Replacement
import FormGuard.Proofs.Registry.Settling
import FormGuard.Proofs.Registry.Kind
import FormGuard.Proofs.Registry.Building
import FormGuard.Proofs.Registry.Configuration
import FormGuard.Proofs.Registry.Escape
import FormGuard.Proofs.CommandLine.Checking
import FormGuard.Proofs.Loading.Element
import FormGuard.Proofs.Loading.Config
import FormGuard.Proofs.Loading.Declaration
import FormGuard.Proofs.Loading.Rule
import FormGuard.Proofs.Loading.Form
import FormGuard.Proofs.Regex.Span
import FormGuard.Proofs.Regex.Word
import FormGuard.Proofs.Regex.Reading
import FormGuard.Proofs.Regex.Composition
import FormGuard.Proofs.Regex.Brackets
import FormGuard.Proofs.Regex.Steady
import FormGuard.Proofs.Regex.Fault
import FormGuard.Proofs.Pattern.Named
import FormGuard.Proofs.Pattern.Email
import FormGuard.Proofs.Pattern.Delimited
import FormGuard.Proofs.Pattern.Browser
import FormGuard.Proofs.Pattern.Quad
import FormGuard.Proofs.Text.Replacement
import FormGuard.Proofs.Rule.Option
import FormGuard.Proofs.Form.Testless
import FormGuard.Proofs.Script.Grammar
import FormGuard.Proofs.Script.Evaluation
import FormGuard.Proofs.Script.Reader
import FormGuard.Proofs.Script.Guard
import FormGuard.Proofs.Registry.Compilation
import FormGuard.Proofs.Rule.Bound
import FormGuard.Proofs.Rule.Operand
import FormGuard.Proofs.Form.Addressing
import FormGuard.Proofs.Text.LeadingNumber
import FormGuard.Proofs.Loading.Shape
