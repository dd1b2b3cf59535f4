import PayloadTypes.CommandLine.Option
import PayloadTypes.CommandLine.Reach
import PayloadTypes.CommandLine.Request
import PayloadTypes.CommandLine.Session
import PayloadTypes.Console
import PayloadTypes.Data.Moment
import PayloadTypes.Data.OrderedMap
import PayloadTypes.Data.ReadFault
import PayloadTypes.Data.Value
import PayloadTypes.Decimal.Binary
import PayloadTypes.Decimal.Shortest
import PayloadTypes.Failure
import PayloadTypes.Field
import PayloadTypes.Files.Change
import PayloadTypes.Files.Charset
import PayloadTypes.Files.Discovery
import PayloadTypes.Files.Glob
import PayloadTypes.Files.Path
import PayloadTypes.Files.Tree
import PayloadTypes.Files.Utf8
import PayloadTypes.Generation.Basic
import PayloadTypes.Generation.Companion
import PayloadTypes.Generation.Generate
import PayloadTypes.Generation.Output
import PayloadTypes.Generation.Render
import PayloadTypes.Json.Parser
import PayloadTypes.Json.Printer
import PayloadTypes.Json.Token
import PayloadTypes.Main
import PayloadTypes.Notice
import PayloadTypes.Project.Assembly
import PayloadTypes.Project.Basic
import PayloadTypes.Project.Check
import PayloadTypes.Project.ClassTable
import PayloadTypes.Project.Loading
import PayloadTypes.Project.Manifest
import PayloadTypes.Project.ManifestText
import PayloadTypes.Project.MediaType
import PayloadTypes.Project.Scan
import PayloadTypes.Proofs.Data.NamedValues
import PayloadTypes.Proofs.Data.OrderedMap
import PayloadTypes.Proofs.Data.Outcome
import PayloadTypes.Proofs.Files.DiscoveryOrder
import PayloadTypes.Proofs.Files.Keeping
import PayloadTypes.Proofs.Files.Listing
import PayloadTypes.Proofs.Files.Placing
import PayloadTypes.Proofs.Generation.Accounting
import PayloadTypes.Proofs.Generation.Companions
import PayloadTypes.Proofs.Generation.Drift
import PayloadTypes.Proofs.Generation.EnumMembers
import PayloadTypes.Proofs.Generation.Exports
import PayloadTypes.Proofs.Generation.Optionality
import PayloadTypes.Proofs.Generation.Reordering
import PayloadTypes.Proofs.Generation.Reporting
import PayloadTypes.Proofs.Generation.Selection
import PayloadTypes.Proofs.Generation.Writing
import PayloadTypes.Proofs.Json.ReadMaps
import PayloadTypes.Proofs.Json.RoundTrip
import PayloadTypes.Proofs.Project.ClassKind
import PayloadTypes.Proofs.Project.Keyed
import PayloadTypes.Proofs.Project.Lineage
import PayloadTypes.Proofs.Project.ManifestReading
import PayloadTypes.Proofs.Project.Merging
import PayloadTypes.Proofs.Project.ScanOrder
import PayloadTypes.Proofs.Project.ScannedClasses
import PayloadTypes.Proofs.Project.Settling
import PayloadTypes.Proofs.Response.ClassReference
import PayloadTypes.Proofs.Response.Making
import PayloadTypes.Proofs.Response.Mapping
import PayloadTypes.Proofs.Response.Spelling
import PayloadTypes.Proofs.Rule.ChoiceForms
import PayloadTypes.Proofs.Rule.ChoiceLiteral
import PayloadTypes.Proofs.Rule.ChoiceText
import PayloadTypes.Proofs.Rule.Confirmation
import PayloadTypes.Proofs.Rule.DefiniteType
import PayloadTypes.Proofs.Rule.Definitions
import PayloadTypes.Proofs.Rule.ItemRules
import PayloadTypes.Proofs.Rule.Leaves
import PayloadTypes.Proofs.Rule.Nullability
import PayloadTypes.Proofs.Rule.TokenOrder
import PayloadTypes.Proofs.Settings.Precedence
import PayloadTypes.Proofs.Settings.Saving
import PayloadTypes.Proofs.Source.CaseListing
import PayloadTypes.Proofs.Source.Closing
import PayloadTypes.Proofs.Source.ClosingBracket
import PayloadTypes.Proofs.Source.DeclaredName
import PayloadTypes.Proofs.Source.DistinctMembers
import PayloadTypes.Proofs.Source.Docblocks
import PayloadTypes.Proofs.Source.Entries
import PayloadTypes.Proofs.Source.Expression
import PayloadTypes.Proofs.Source.ImportReading
import PayloadTypes.Proofs.Source.KeywordType
import PayloadTypes.Proofs.Source.LeadingComment
import PayloadTypes.Proofs.Source.Matching
import PayloadTypes.Proofs.Source.MethodSource
import PayloadTypes.Proofs.Source.Nesting
import PayloadTypes.Proofs.Source.Places
import PayloadTypes.Proofs.Source.QualifiedType
import PayloadTypes.Proofs.Source.Quoting
import PayloadTypes.Proofs.Source.RuleReading
import PayloadTypes.Proofs.Source.RuleSpec
import PayloadTypes.Proofs.Source.Scanned
import PayloadTypes.Proofs.Source.Segments
import PayloadTypes.Proofs.Source.Strings
import PayloadTypes.Proofs.Source.TypeOutline
import PayloadTypes.Proofs.Source.TypeReading
import PayloadTypes.Proofs.Source.TypeSpec
import PayloadTypes.Proofs.Symbols
import PayloadTypes.Proofs.Text.Ascii
import PayloadTypes.Proofs.Text.Escape
import PayloadTypes.Proofs.Text.Matches
import PayloadTypes.Proofs.Text.Numeral
import PayloadTypes.Proofs.Text.Reader
import PayloadTypes.Proofs.Text.Search
import PayloadTypes.Proofs.Text.Trim
import PayloadTypes.Proofs.Text.Word
import PayloadTypes.Proofs.TypeText.ArrayItem
import PayloadTypes.Proofs.TypeText.Literal
import PayloadTypes.Proofs.TypeText.LiteralType
import PayloadTypes.Proofs.TypeText.LowerCase
import PayloadTypes.Proofs.TypeText.Members
import PayloadTypes.Proofs.TypeText.Nested
import PayloadTypes.Proofs.TypeText.NormalForm
import PayloadTypes.Proofs.TypeText.NullMembers
import PayloadTypes.Proofs.TypeText.OpenWords
import PayloadTypes.Proofs.TypeText.Parts
import PayloadTypes.Proofs.TypeText.Reference
import PayloadTypes.Proofs.TypeText.Scan
import PayloadTypes.Proofs.TypeText.Splitting
import PayloadTypes.Response.Idiom
import PayloadTypes.Response.Inference
import PayloadTypes.Response.Naming
import PayloadTypes.Rule.Basic
import PayloadTypes.Rule.Choice
import PayloadTypes.Rule.Definition
import PayloadTypes.Rule.Field
import PayloadTypes.Rule.Inference
import PayloadTypes.Rule.Manifest
import PayloadTypes.Rule.Presence
import PayloadTypes.Rule.Token
import PayloadTypes.Settings.Basic
import PayloadTypes.Settings.Environment
import PayloadTypes.Settings.Layers
import PayloadTypes.Source.ArrayLiteral
import PayloadTypes.Source.ClassDecl
import PayloadTypes.Source.DeclaredType
import PayloadTypes.Source.Docblock
import PayloadTypes.Source.Enclosed
import PayloadTypes.Source.EnumCase
import PayloadTypes.Source.Lexeme
import PayloadTypes.Source.Member
import PayloadTypes.Source.RuleLiteral
import PayloadTypes.Source.Scalar
import PayloadTypes.Source.Scope
import PayloadTypes.Source.TypeShape
import PayloadTypes.Symbols
import PayloadTypes.Text.Blank
import PayloadTypes.Text.Case
import PayloadTypes.Text.CaseTable
import PayloadTypes.Text.CodePage
import PayloadTypes.Text.Cut
import PayloadTypes.Text.Digit
import PayloadTypes.Text.PrintableTable
import PayloadTypes.Text.Quoted
import PayloadTypes.Text.Reader
import PayloadTypes.Text.Surrogate
import PayloadTypes.Text.Word
import PayloadTypes.Text.WordTable
import PayloadTypes.TypeText.ArrayType
import PayloadTypes.TypeText.Length
import PayloadTypes.TypeText.Literal
import PayloadTypes.TypeText.Reference
import PayloadTypes.TypeText.Scan
import PayloadTypes.TypeText.Union
import PayloadTypes.Validation
import PayloadTypes.Yaml.Cursor
import PayloadTypes.Yaml.Node
import PayloadTypes.Yaml.Parser
import PayloadTypes.Yaml.PlainValue
import PayloadTypes.Yaml.ScalarText
import PayloadTypes.Yaml.Token
