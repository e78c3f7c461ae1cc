import Protobuf.Codec.Config
import Protobuf.Codec.Decode
import Protobuf.Codec.Document
import Protobuf.Codec.Encode
import Protobuf.Codec.Error
import Protobuf.Codec.Merge
import Protobuf.Codec.Plan
import Protobuf.Codec.Render
import Protobuf.Codec.Scalar
import Protobuf.Codec.Set
import Protobuf.CommandLine.Arguments
import Protobuf.CommandLine.Directory
import Protobuf.CommandLine.Help
import Protobuf.CommandLine.Program
import Protobuf.Compile
import Protobuf.Emission.Decoder
import Protobuf.Emission.Encoder
import Protobuf.Emission.Enum
import Protobuf.Emission.Expression
import Protobuf.Emission.Identifier
import Protobuf.Emission.Module
import Protobuf.Emission.Names
import Protobuf.Emission.Source
import Protobuf.Json.Document
import Protobuf.Json.Fault
import Protobuf.Json.Numeral
import Protobuf.Json.Reader
import Protobuf.Keyed
import Protobuf.Main
import Protobuf.Name
import Protobuf.Number.Binary
import Protobuf.Number.Bounds
import Protobuf.Number.Layout
import Protobuf.Number.Power
import Protobuf.Number.Shortest
import Protobuf.Proofs.Codec.Associative
import Protobuf.Proofs.Codec.Coherent
import Protobuf.Proofs.Codec.Concatenation
import Protobuf.Proofs.Codec.Conformity
import Protobuf.Proofs.Codec.Conforms
import Protobuf.Proofs.Codec.Declared
import Protobuf.Proofs.Codec.Decode
import Protobuf.Proofs.Codec.Default
import Protobuf.Proofs.Codec.Encode
import Protobuf.Proofs.Codec.Evolution
import Protobuf.Proofs.Codec.Exchange
import Protobuf.Proofs.Codec.Extension
import Protobuf.Proofs.Codec.Fault
import Protobuf.Proofs.Codec.Field
import Protobuf.Proofs.Codec.Generate
import Protobuf.Proofs.Codec.Grammar
import Protobuf.Proofs.Codec.Lawful
import Protobuf.Proofs.Codec.Limits
import Protobuf.Proofs.Codec.Map
import Protobuf.Proofs.Codec.Member
import Protobuf.Proofs.Codec.Merge
import Protobuf.Proofs.Codec.Monoid
import Protobuf.Proofs.Codec.Nesting
import Protobuf.Proofs.Codec.Older
import Protobuf.Proofs.Codec.Packing
import Protobuf.Proofs.Codec.PassThrough
import Protobuf.Proofs.Codec.Place
import Protobuf.Proofs.Codec.Plays
import Protobuf.Proofs.Codec.Provenance
import Protobuf.Proofs.Codec.Reading
import Protobuf.Proofs.Codec.Refusal
import Protobuf.Proofs.Codec.Render
import Protobuf.Proofs.Codec.Replay
import Protobuf.Proofs.Codec.Restriction
import Protobuf.Proofs.Codec.RoundTrip
import Protobuf.Proofs.Codec.Scalar
import Protobuf.Proofs.Codec.Shape
import Protobuf.Proofs.Codec.Termination
import Protobuf.Proofs.Codec.Truncation
import Protobuf.Proofs.Codec.Typing
import Protobuf.Proofs.Codec.Unknown
import Protobuf.Proofs.Codec.Writable
import Protobuf.Proofs.Emission.Dispatch
import Protobuf.Proofs.Emission.Identifier
import Protobuf.Proofs.Emission.Legal
import Protobuf.Proofs.Emission.Names
import Protobuf.Proofs.Emission.Order
import Protobuf.Proofs.Emission.Reordered
import Protobuf.Proofs.Emission.Source
import Protobuf.Proofs.Emission.Spelling
import Protobuf.Proofs.Keyed
import Protobuf.Proofs.Name
import Protobuf.Proofs.Schema.Accepted
import Protobuf.Proofs.Schema.Below
import Protobuf.Proofs.Schema.Cycle
import Protobuf.Proofs.Schema.Grammar
import Protobuf.Proofs.Schema.Parts
import Protobuf.Proofs.Schema.References
import Protobuf.Proofs.Schema.Reordered
import Protobuf.Proofs.Schema.Resolution
import Protobuf.Proofs.Schema.Rules
import Protobuf.Proofs.Schema.Scoped
import Protobuf.Proofs.Schema.Shape
import Protobuf.Proofs.Schema.Token
import Protobuf.Proofs.Schema.Types
import Protobuf.Proofs.Schema.Typing
import Protobuf.Proofs.Schema.Valid
import Protobuf.Proofs.Schema.Violations
import Protobuf.Proofs.Schema.Without
import Protobuf.Proofs.Success
import Protobuf.Proofs.Value.Depth
import Protobuf.Proofs.Value.Entries
import Protobuf.Proofs.Value.Message
import Protobuf.Proofs.Value.Normal
import Protobuf.Proofs.Wire.Digits
import Protobuf.Proofs.Wire.Form
import Protobuf.Proofs.Wire.Limit
import Protobuf.Proofs.Wire.Place
import Protobuf.Proofs.Wire.Record
import Protobuf.Proofs.Wire.Run
import Protobuf.Proofs.Wire.Sequence
import Protobuf.Proofs.Wire.Session
import Protobuf.Proofs.Wire.Truncation
import Protobuf.Proofs.Wire.Varint
import Protobuf.Proofs.Wire.Writer
import Protobuf.Schema.Basic
import Protobuf.Schema.Build
import Protobuf.Schema.Cycle
import Protobuf.Schema.Declaration
import Protobuf.Schema.Document
import Protobuf.Schema.FieldType
import Protobuf.Schema.Intake
import Protobuf.Schema.Reference
import Protobuf.Schema.Registry
import Protobuf.Schema.Validate
import Protobuf.Schema.Violation
import Protobuf.Table
import Protobuf.Text.Blank
import Protobuf.Text.Case
import Protobuf.Text.CaseTable
import Protobuf.Text.CodeRange
import Protobuf.Text.PrintTable
import Protobuf.Text.Quote
import Protobuf.Text.Utf8
import Protobuf.Value.Basic
import Protobuf.Value.Document
import Protobuf.Value.Text
import Protobuf.Wire.Cursor
import Protobuf.Wire.Error
import Protobuf.Wire.Key
import Protobuf.Wire.Record
import Protobuf.Wire.Run
import Protobuf.Wire.Unknown
import Protobuf.Wire.Varint
import Protobuf.Wire.Writer
import Protobuf.Wire.Zigzag
