import SourceDoc.Text.Letter
import SourceDoc.Text.Mark
import SourceDoc.Text.Digit
import SourceDoc.Text.Printable
import SourceDoc.Text.Casing
import SourceDoc.Text.Blank
import SourceDoc.Text.Lines
import SourceDoc.Text.Quoted
import SourceDoc.Text.Numeral
import SourceDoc.Text.PathName
import SourceDoc.Diagnosis
import SourceDoc.Escape.Decode
import SourceDoc.Escape.Offsets
import SourceDoc.Token.Lexer
import SourceDoc.Tree.Declaration
import SourceDoc.Grammar.Parser
import SourceDoc.Grammar.Annotations
import SourceDoc.Grammar.Statements
import SourceDoc.Grammar.Unit
import SourceDoc.Span.Initializers
import SourceDoc.Node.OfSource
import SourceDoc.Model.OfUnit
import SourceDoc.Report.Basic
import SourceDoc.Report.Schedule
import SourceDoc.Summary.Contexts
import SourceDoc.Files.Load
import SourceDoc.Files.Tree
import SourceDoc.Settings.Log
import SourceDoc.Service.Respond
import SourceDoc.Proofs.Escape.Regular
import SourceDoc.Proofs.Token.Lines
import SourceDoc.Proofs.Node.Ranges
import SourceDoc.Proofs.Node.Initializers
import SourceDoc.Proofs.Node.Decoded
import SourceDoc.Proofs.Node.Loading
import SourceDoc.Proofs.Report.Outcomes
import SourceDoc.Proofs.Report.Order
import SourceDoc.Proofs.Service.Batches
import SourceDoc.Proofs.Comment.Layout
import SourceDoc.Proofs.Text.CodePoints
import SourceDoc.Proofs.Token.Spelling
import SourceDoc.Proofs.Tree.TypeTexts
import SourceDoc.Proofs.Grammar.Parses
import SourceDoc.Proofs.Grammar.TypeParses
import SourceDoc.Proofs.Grammar.TypeRoundTrip
import SourceDoc.Proofs.Tree.HeadingTexts
import SourceDoc.Proofs.Grammar.HeadingParses
import SourceDoc.Proofs.Model.Signatures
import SourceDoc.Proofs.Node.Methods
import SourceDoc.Proofs.Comment.Conservation
import SourceDoc.Proofs.Report.Files
import SourceDoc.Proofs.Model.Invariants
import SourceDoc.Proofs.Node.AnnotationValues
import SourceDoc.Proofs.Comment.Delimiters
import SourceDoc.Proofs.Model.UnrelatedTags
import SourceDoc.Proofs.Model.Removals
import SourceDoc.Proofs.Model.SimpleNames
import SourceDoc.Proofs.Model.Dependence
import SourceDoc.Proofs.Summary.ClassList
import SourceDoc.Proofs.Report.PrimaryNames
import SourceDoc.Proofs.Settings.Variables
import SourceDoc.Proofs.Text.Integers
import SourceDoc.Proofs.Settings.Repetition
import SourceDoc.Proofs.Summary.Totals
import SourceDoc.Proofs.Span.Stacks
import SourceDoc.Proofs.Span.Groups
import SourceDoc.Proofs.Escape.Gaps
import SourceDoc.Proofs.Node.FieldValues
import SourceDoc.Proofs.Model.BracketPairs
