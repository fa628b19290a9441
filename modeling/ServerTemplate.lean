import ServerTemplate.Component.Escaping
import ServerTemplate.Json.Write
import ServerTemplate.Library.Basic
import ServerTemplate.Output.Function
import ServerTemplate.Proofs.Emission.After
import ServerTemplate.Proofs.Emission.Step
import ServerTemplate.Proofs.Emission.Stepwise
import ServerTemplate.Proofs.Emission.Lowered
import ServerTemplate.Proofs.Escaping.Function
import ServerTemplate.Proofs.Emission.Effects
import ServerTemplate.Proofs.Escaping.Reads
import ServerTemplate.Proofs.Outline.Outline
import ServerTemplate.Proofs.Outline.Reference
import ServerTemplate.Proofs.Outline.MarkerFree
import ServerTemplate.Proofs.Outline.Scopes
import ServerTemplate.Proofs.Outline.Writes
import ServerTemplate.Proofs.Outline.Code
import ServerTemplate.Proofs.Outline.Agreement
import ServerTemplate.Proofs.Outline.Balance
import ServerTemplate.Proofs.Outline.Conversion
import ServerTemplate.Proofs.Markup.Alike
import ServerTemplate.Proofs.Outline.Paths
import ServerTemplate.Proofs.Outline.Soundness
import ServerTemplate.Proofs.Region.Read
import ServerTemplate.Proofs.Region.Scan
import ServerTemplate.Proofs.Region.Blocks
import ServerTemplate.Proofs.Region.Sync
import ServerTemplate.Proofs.Outline.Translation
import ServerTemplate.Proofs.Scope.Visits
import ServerTemplate.Proofs.Scope.Follows
import ServerTemplate.Proofs.Scope.Lexical
import ServerTemplate.Proofs.Variables.Run
import ServerTemplate.Proofs.Variables.Scoped
import ServerTemplate.Proofs.Variables.Capture
import ServerTemplate.Proofs.Scope.Reads
import ServerTemplate.Proofs.Scope.Instance
import ServerTemplate.Proofs.Coverage.Occurrence
import ServerTemplate.Proofs.Coverage.Brings
import ServerTemplate.Proofs.Coverage.Covered
import ServerTemplate.Proofs.Entry.Expression
import ServerTemplate.Proofs.Coverage.Conversion
import ServerTemplate.Proofs.Coverage.Optional
import ServerTemplate.Proofs.Entry.Position
import ServerTemplate.Proofs.Entry.Search
import ServerTemplate.Proofs.Entry.Whole
import ServerTemplate.Proofs.Outline.Uniform
import ServerTemplate.Proofs.Literal.Part
import ServerTemplate.Proofs.Literal.Rendering
import ServerTemplate.Proofs.Literal.Puts
import ServerTemplate.Proofs.Literal.Scan
import ServerTemplate.Proofs.Literal.Region
import ServerTemplate.Proofs.Literal.Loop
import ServerTemplate.Proofs.Literal.Conditional
import ServerTemplate.Proofs.Literal.Echo
import ServerTemplate.Proofs.Server.Grammar
import ServerTemplate.Proofs.Server.Reading
import ServerTemplate.Proofs.Server.Number
import ServerTemplate.Proofs.Server.Lexing
import ServerTemplate.Proofs.Server.Grouping
import ServerTemplate.Proofs.Server.Condition
import ServerTemplate.Proofs.Markup.Lookahead
import ServerTemplate.Proofs.Marker.Replay
import ServerTemplate.Proofs.Emission.Alongside
import ServerTemplate.Proofs.Marker.Seam
import ServerTemplate.Proofs.Literal.Constant
import ServerTemplate.Proofs.Marker.Reach
import ServerTemplate.Proofs.Scope.Over
import ServerTemplate.Proofs.Literal.Concatenation
import ServerTemplate.Proofs.Region.Branches
import ServerTemplate.Proofs.Rescan.FixedPoint
import ServerTemplate.Proofs.Entry.Spelling
import ServerTemplate.Proofs.Library.Session
import ServerTemplate.Proofs.Server.Prologue
import ServerTemplate.Proofs.Text.Lines
import ServerTemplate.Proofs.Entry.Inside
import ServerTemplate.Proofs.Entry.Snippet
import ServerTemplate.Proofs.Tandem.Growth
import ServerTemplate.Proofs.Tandem.Places
import ServerTemplate.Proofs.Region.Ordered
import ServerTemplate.Proofs.Text.CodeUnit
import ServerTemplate.Proofs.Script.StringLiteral
import ServerTemplate.Proofs.Script.StringEscape
import ServerTemplate.Proofs.Literal.OperandHole
import ServerTemplate.Proofs.Server.StringValue
import ServerTemplate.Proofs.Marker.Balance
import ServerTemplate.Proofs.Markup.Hole
import ServerTemplate.Proofs.Markup.Cut
import ServerTemplate.Proofs.Scope.History
import ServerTemplate.Proofs.Number.Nearest
import ServerTemplate.Proofs.Number.Reading
import ServerTemplate.Proofs.Value.Integer
import ServerTemplate.Proofs.Value.Nested
import ServerTemplate.Proofs.Script.Digits
import ServerTemplate.Proofs.Server.Literal
import ServerTemplate.Proofs.Value.Reading
import ServerTemplate.Proofs.Script.NumberLiteral
import ServerTemplate.Proofs.Number.Token
import ServerTemplate.Proofs.Server.NumberValue
import ServerTemplate.Proofs.Component.Lookup
import ServerTemplate.Proofs.Server.ResultCount
import ServerTemplate.Proofs.Text.Place
import ServerTemplate.Proofs.Entry.Place
import ServerTemplate.Proofs.Library.Files
import ServerTemplate.Proofs.Library.Agreement
import ServerTemplate.Proofs.Diagnostic.Styles
import ServerTemplate.Proofs.Entry.Chunks
import ServerTemplate.Proofs.Text.Utf8
import ServerTemplate.Proofs.Script.Span
import ServerTemplate.Proofs.Entry.Around
import ServerTemplate.Proofs.Script.StringParts
import ServerTemplate.Proofs.Json.Texts
import ServerTemplate.Proofs.Component.Validation
import ServerTemplate.Proofs.Component.Refusal
