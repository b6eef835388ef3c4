-- SUMMARY: Conversion of EPC tag data between its representations, driven by scheme definitions.
import EpcTag.Bits
import EpcTag.Builtin
import EpcTag.Builtin.Basic
import EpcTag.Builtin.Dod
import EpcTag.Builtin.Gid
import EpcTag.Builtin.Gs1
import EpcTag.CheckDigit
import EpcTag.CommandLine.Arguments
import EpcTag.CommandLine.Command
import EpcTag.CommandLine.Files
import EpcTag.CommandLine.Run
import EpcTag.Compaction
import EpcTag.CompanyPrefix
import EpcTag.CompanyPrefix.Definition
import EpcTag.Context
import EpcTag.Engine.Basic
import EpcTag.Engine.Gs1Keys
import EpcTag.Engine.PrefixFeed
import EpcTag.Error
import EpcTag.Event
import EpcTag.FieldCoding
import EpcTag.Grammar
import EpcTag.Logging.Basic
import EpcTag.Logging.Message
import EpcTag.Main
import EpcTag.NaturalOrder
import EpcTag.Number.Binary64
import EpcTag.Number.Numeral
import EpcTag.Ordering
import EpcTag.Padding
import EpcTag.Pattern.Basic
import EpcTag.Pattern.Parser
import EpcTag.PrefixTree
import EpcTag.Proofs.BareFields
import EpcTag.Proofs.BinaryOutput
import EpcTag.Proofs.BitPadding
import EpcTag.Proofs.BitStripping
import EpcTag.Proofs.BitsRewriting
import EpcTag.Proofs.Blanks
import EpcTag.Proofs.Building
import EpcTag.Proofs.BuiltinSchemes
import EpcTag.Proofs.CheckDigit
import EpcTag.Proofs.CheckDigitErrors
import EpcTag.Proofs.CleanRuns
import EpcTag.Proofs.CodeRoundTrip
import EpcTag.Proofs.Compaction
import EpcTag.Proofs.CompanyPrefix
import EpcTag.Proofs.Conversion
import EpcTag.Proofs.DefinitionErrors
import EpcTag.Proofs.DefinitionOrder
import EpcTag.Proofs.Dotted
import EpcTag.Proofs.ElementStrings
import EpcTag.Proofs.FieldBits
import EpcTag.Proofs.FieldCoding
import EpcTag.Proofs.FieldRoom
import EpcTag.Proofs.GivenFilter
import EpcTag.Proofs.GrammarText
import EpcTag.Proofs.Gs1Forms
import EpcTag.Proofs.Gs1Keys
import EpcTag.Proofs.GtinRoundTrip
import EpcTag.Proofs.HexConversion
import EpcTag.Proofs.Hexadecimal
import EpcTag.Proofs.IndexConversion
import EpcTag.Proofs.IndexedTags
import EpcTag.Proofs.KeyRoundTrip
import EpcTag.Proofs.KnownPrefixes
import EpcTag.Proofs.LibraryErrors
import EpcTag.Proofs.LinearScan
import EpcTag.Proofs.Logging
import EpcTag.Proofs.Matching
import EpcTag.Proofs.NaturalOrder
import EpcTag.Proofs.NumberBases
import EpcTag.Proofs.Numeral
import EpcTag.Proofs.OptionCoding
import EpcTag.Proofs.PackedConversion
import EpcTag.Proofs.PackedFields
import EpcTag.Proofs.PaddedFields
import EpcTag.Proofs.ParameterLists
import EpcTag.Proofs.Precedence
import EpcTag.Proofs.PrefixFeed
import EpcTag.Proofs.PrefixTree
import EpcTag.Proofs.Rendering
import EpcTag.Proofs.Resolution
import EpcTag.Proofs.RuleText
import EpcTag.Proofs.Rules
import EpcTag.Proofs.SafeRules
import EpcTag.Proofs.SafeRuns
import EpcTag.Proofs.SchemeDefects
import EpcTag.Proofs.SerialRoundTrip
import EpcTag.Proofs.SingleForms
import EpcTag.Proofs.SoundSchemes
import EpcTag.Proofs.SsccRoundTrip
import EpcTag.Proofs.StrictRuns
import EpcTag.Proofs.Substrings
import EpcTag.Proofs.TableErrors
import EpcTag.Proofs.TagConversion
import EpcTag.Proofs.TagFields
import EpcTag.Proofs.TagScheme
import EpcTag.Proofs.Template
import EpcTag.Proofs.Text
import EpcTag.Proofs.TextPadding
import EpcTag.Proofs.TextReading
import EpcTag.Proofs.UncheckedRuns
import EpcTag.Proofs.UriEscape
import EpcTag.Resolution
import EpcTag.Rule.Basic
import EpcTag.Rule.Evaluation
import EpcTag.Rule.Parser
import EpcTag.Scalar
import EpcTag.Scheme.Basic
import EpcTag.Scheme.Building
import EpcTag.Scheme.Definition
import EpcTag.Scheme.Document
import EpcTag.Scheme.LevelType
import EpcTag.Text.Basic
import EpcTag.Text.Blank
import EpcTag.Text.CodeRange
import EpcTag.Text.Digit
import EpcTag.Text.Lines
import EpcTag.Text.Printable
import EpcTag.Text.Quoted
import EpcTag.Text.UpperCase
import EpcTag.Text.Word
import EpcTag.Traced
import EpcTag.UriEscape
import EpcTag.Validation
import EpcTag.Xml.Declaration
import EpcTag.Xml.Document
import EpcTag.Xml.Element
import EpcTag.Xml.Encoding
import EpcTag.Xml.Markup
import EpcTag.Xml.Name
import EpcTag.Xml.NameChar
import EpcTag.Xml.NameSpace
import EpcTag.Xml.Node
import EpcTag.Xml.Reference
import EpcTag.Xml.Source
