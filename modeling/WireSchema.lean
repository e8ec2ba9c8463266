import WireSchema.Catalog
import WireSchema.Main
import WireSchema.Wire.Frame
import WireSchema.Proofs.Schema.Grammar
import WireSchema.Proofs.Schema.Declarations
import WireSchema.Proofs.Schema.Outlines
import WireSchema.Proofs.Schema.Acceptance
import WireSchema.Proofs.Schema.Directives
import WireSchema.Proofs.Schema.CanonicalForm
import WireSchema.Proofs.Schema.CanonicalText
import WireSchema.Proofs.Schema.Gaps
import WireSchema.Proofs.Schema.Tokens
import WireSchema.Proofs.Schema.Formatting
import WireSchema.Proofs.Schema.FixedForms
import WireSchema.Proofs.Wire.Layout
import WireSchema.Proofs.Wire.Decoding
import WireSchema.Proofs.Wire.Encoding
import WireSchema.Proofs.Wire.RoundTrip
import WireSchema.Proofs.Wire.Capacity
import WireSchema.Proofs.Codegen.PayloadSize
import WireSchema.Proofs.Text.LetterCase
import WireSchema.Proofs.Codegen.Identifiers
import WireSchema.Proofs.Schema.Clash
import WireSchema.Proofs.Text.LineForm
import WireSchema.Proofs.Codegen.Statements
import WireSchema.Proofs.Text.Numeral
import WireSchema.Proofs.Text.Quoted
import WireSchema.Proofs.Schema.Dumps
import WireSchema.Proofs.Codegen.RustStatements
import WireSchema.Proofs.Codegen.CppStatements
import WireSchema.Proofs.Schema.Faults
import WireSchema.Proofs.Codegen.Outcome
import WireSchema.Proofs.Codegen.Diagnostics
import WireSchema.Proofs.Codegen.Agreement
import WireSchema.Proofs.Codegen.RustSteps
import WireSchema.Proofs.Codegen.RustFunctions
import WireSchema.Proofs.Wire.Digits
import WireSchema.Proofs.Wire.Locality
import WireSchema.Proofs.Wire.Frames
import WireSchema.Proofs.Wire.WriterRuns
import WireSchema.Proofs.Text.Lexemes
import WireSchema.Proofs.Schema.LexicalGrammar
import WireSchema.Proofs.Schema.BlockComments
import WireSchema.Proofs.Wire.ReaderRuns
import WireSchema.Proofs.Wire.SpanRuns
import WireSchema.Proofs.Files.Segments
import WireSchema.Proofs.Codegen.OutputPaths
import WireSchema.Proofs.Files.Kinds
import WireSchema.Proofs.Files.Walks
import WireSchema.Proofs.Files.Writing
import WireSchema.Proofs.Command.Deliveries
import WireSchema.Proofs.Command.Runs
import WireSchema.Proofs.Command.Stages
import WireSchema.Proofs.Command.Printing
import WireSchema.Proofs.Command.Failures
import WireSchema.Proofs.Command.Descriptors
import WireSchema.Proofs.Codegen.Scopes
import WireSchema.Proofs.Codegen.SourceNames
import WireSchema.Proofs.Codegen.NameStyles
import WireSchema.Proofs.Files.Disks
import WireSchema.Proofs.Files.Outcomes
import WireSchema.Proofs.Schema.Fingerprints
import WireSchema.Proofs.Schema.LineComments
import WireSchema.Proofs.Text.Utf8
import WireSchema.Proofs.Schema.Braces
import WireSchema.Proofs.Text.Decimal
import WireSchema.Proofs.Schema.Lengths
