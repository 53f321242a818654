import FieldLang.Builtin.Apply
import FieldLang.Builtin.Arrays
import FieldLang.Builtin.Basic
import FieldLang.Builtin.Error
import FieldLang.Builtin.Numeric
import FieldLang.Builtin.Strings
import FieldLang.Computed.Basic
import FieldLang.Computed.Definition
import FieldLang.Elements
import FieldLang.Engine.Access
import FieldLang.Engine.Basic
import FieldLang.Engine.Error
import FieldLang.Engine.Eval
import FieldLang.Engine.Operate
import FieldLang.Engine.Options
import FieldLang.Engine.Traced
import FieldLang.Expr.Basic
import FieldLang.Expr.Operator
import FieldLang.Expr.Parser
import FieldLang.Expr.Printer
import FieldLang.Expr.Stored
import FieldLang.Json.Decode
import FieldLang.Json.Document
import FieldLang.Json.Library
import FieldLang.Json.Number
import FieldLang.Json.Reader
import FieldLang.Json.Writer
import FieldLang.Keyed
import FieldLang.Number.Basic
import FieldLang.Number.Numeral
import FieldLang.Number.Shortest
import FieldLang.Number.Text
import FieldLang.Pipeline.Basic
import FieldLang.Pipeline.Definition
import FieldLang.Pipeline.Error
import FieldLang.Pipeline.Parser
import FieldLang.Pipeline.Plan
import FieldLang.Pipeline.Printer
import FieldLang.Pipeline.Run
import FieldLang.Pipeline.Slice
import FieldLang.Position
import FieldLang.Proofs.Abbreviation
import FieldLang.Proofs.BuiltinLikeness
import FieldLang.Proofs.Cutting
import FieldLang.Proofs.Decimals
import FieldLang.Proofs.DefaultOrder
import FieldLang.Proofs.DefinitionForm
import FieldLang.Proofs.DefinitionSandbox
import FieldLang.Proofs.Depth
import FieldLang.Proofs.Elementwise
import FieldLang.Proofs.EqualValues
import FieldLang.Proofs.FlatMapping
import FieldLang.Proofs.Flattening
import FieldLang.Proofs.Following
import FieldLang.Proofs.Grammar
import FieldLang.Proofs.Height
import FieldLang.Proofs.IntegerTexts
import FieldLang.Proofs.JsonDecoders
import FieldLang.Proofs.JsonNumbers
import FieldLang.Proofs.JsonReading
import FieldLang.Proofs.JsonRoundTrip
import FieldLang.Proofs.JsonText
import FieldLang.Proofs.Layout
import FieldLang.Proofs.LeadingNumbers
import FieldLang.Proofs.Likeness
import FieldLang.Proofs.Lockstep
import FieldLang.Proofs.Nearest
import FieldLang.Proofs.NumberText
import FieldLang.Proofs.NumberValues
import FieldLang.Proofs.NumeralForms
import FieldLang.Proofs.Numerals
import FieldLang.Proofs.Overlay
import FieldLang.Proofs.PathAgreement
import FieldLang.Proofs.PipelineGrammar
import FieldLang.Proofs.PipelineLockstep
import FieldLang.Proofs.PipelineRoundTrip
import FieldLang.Proofs.Planning
import FieldLang.Proofs.Predicates
import FieldLang.Proofs.Reading
import FieldLang.Proofs.Registration
import FieldLang.Proofs.RoundTrip
import FieldLang.Proofs.Rounding
import FieldLang.Proofs.SameFunctions
import FieldLang.Proofs.Sandbox
import FieldLang.Proofs.Searching
import FieldLang.Proofs.SliceAgreement
import FieldLang.Proofs.Slicing
import FieldLang.Proofs.Sorting
import FieldLang.Proofs.Spelling
import FieldLang.Proofs.Storing
import FieldLang.Proofs.Substitution
import FieldLang.Proofs.TextNumbers
import FieldLang.Proofs.WrittenForm
import FieldLang.Text.Blank
import FieldLang.Text.Case
import FieldLang.Text.Digits
import FieldLang.Text.Letter
import FieldLang.Text.Printable
import FieldLang.Text.Quoted
import FieldLang.Text.Ranges
import FieldLang.Text.Search
import FieldLang.Token.Basic
import FieldLang.Token.Error
import FieldLang.Token.Lexer
import FieldLang.Value.Basic
import FieldLang.Value.Equality
import FieldLang.Value.Text
