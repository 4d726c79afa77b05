import MarkupEdit.Edit.Apply
import MarkupEdit.Edit.AttributeEdit
import MarkupEdit.Edit.Config
import MarkupEdit.Edit.Element
import MarkupEdit.Edit.Engine
import MarkupEdit.Edit.LiteralSource
import MarkupEdit.Edit.Locator
import MarkupEdit.Edit.Outcome
import MarkupEdit.Edit.Request
import MarkupEdit.Edit.StructureEdit
import MarkupEdit.Edit.StyleEdit
import MarkupEdit.Edit.Target
import MarkupEdit.Edit.TextEdit
import MarkupEdit.Grammar.Automaton
import MarkupEdit.Grammar.Cut
import MarkupEdit.Grammar.Item
import MarkupEdit.Grammar.Lexical
import MarkupEdit.Grammar.Production
import MarkupEdit.Grammar.Reading
import MarkupEdit.Grammar.Recovery
import MarkupEdit.Grammar.Rule
import MarkupEdit.Grammar.Run
import MarkupEdit.Grammar.Scan
import MarkupEdit.Grammar.Script
import MarkupEdit.Grammar.Script.Declaration
import MarkupEdit.Grammar.Script.Function
import MarkupEdit.Grammar.Script.Literal
import MarkupEdit.Grammar.Script.Markup
import MarkupEdit.Grammar.Script.Member
import MarkupEdit.Grammar.Script.Operator
import MarkupEdit.Grammar.Script.Statement
import MarkupEdit.Grammar.Script.Type
import MarkupEdit.Grammar.Script.Value
import MarkupEdit.Grammar.Stack
import MarkupEdit.Grammar.Subtree
import MarkupEdit.Grammar.TerminalSet
import MarkupEdit.Number.Double
import MarkupEdit.Print.Pretty
import MarkupEdit.Print.Render
import MarkupEdit.Proofs.Tree.Frame
import MarkupEdit.Style.ClassList
import MarkupEdit.Style.Declaration
import MarkupEdit.Style.Group
import MarkupEdit.Style.Key
import MarkupEdit.Style.Length
import MarkupEdit.Style.Mapping
import MarkupEdit.Style.Scale
import MarkupEdit.Text.Ascii
import MarkupEdit.Text.Blank
import MarkupEdit.Text.Casing
import MarkupEdit.Text.Lines
import MarkupEdit.Text.Point
import MarkupEdit.Text.Property
import MarkupEdit.Text.Reference
import MarkupEdit.Text.Slice
import MarkupEdit.Text.TextMap
import MarkupEdit.Tree.Builder
import MarkupEdit.Tree.Cache
import MarkupEdit.Tree.Convert
import MarkupEdit.Tree.EditScript
import MarkupEdit.Tree.Error
import MarkupEdit.Tree.Flaw
import MarkupEdit.Tree.Kind
import MarkupEdit.Tree.Language
import MarkupEdit.Tree.Literal
import MarkupEdit.Tree.Node
import MarkupEdit.Tree.Outline
import MarkupEdit.Tree.Parse
import MarkupEdit.Tree.Path
import MarkupEdit.Tree.Snippet
import MarkupEdit.Tree.SourceTree
import MarkupEdit.Tree.Traversal
import MarkupEdit.Wire.ConfigText
import MarkupEdit.Wire.Contract
import MarkupEdit.Wire.Json
import MarkupEdit.Wire.Record
import MarkupEdit.Proofs.Tree.Sketch
import MarkupEdit.Proofs.Tree.Conversion
import MarkupEdit.Proofs.Tree.Substitution
import MarkupEdit.Proofs.Edit.Locality
import MarkupEdit.Edit.Session
import MarkupEdit.Proofs.Edit.Transparency
import MarkupEdit.Proofs.Style.Agreement
import MarkupEdit.Proofs.Style.Kind
import MarkupEdit.Proofs.Style.Numeral
import MarkupEdit.Proofs.Style.LengthReading
import MarkupEdit.Proofs.Style.Remerge
import MarkupEdit.Proofs.Style.Scales
import MarkupEdit.Proofs.Style.Stem
import MarkupEdit.Proofs.Style.Value
import MarkupEdit.Proofs.Edit.Listing
import MarkupEdit.Proofs.Text.Columns
import MarkupEdit.Proofs.Edit.Addressing
import MarkupEdit.Proofs.Edit.Identity
import MarkupEdit.Proofs.Edit.TagEdit
import MarkupEdit.Proofs.Edit.StyleTag
import MarkupEdit.Proofs.Edit.TextSurvival
import MarkupEdit.Proofs.Edit.LiteralEdit
import MarkupEdit.Proofs.Edit.Survival
import MarkupEdit.Proofs.Print.Ink
import MarkupEdit.Proofs.Print.Layout
import MarkupEdit.Proofs.Print.Lexemes
import MarkupEdit.Proofs.Print.Lines
import MarkupEdit.Proofs.Print.Parts
import MarkupEdit.Proofs.Print.Regular
import MarkupEdit.Proofs.Print.Code
import MarkupEdit.Proofs.Print.Comments
import MarkupEdit.Proofs.Edit.Batch
import MarkupEdit.Proofs.Wire.Records
import MarkupEdit.Proofs.Wire.RoundTrip
import MarkupEdit.Proofs.Text.Words
import MarkupEdit.Proofs.Text.References
import MarkupEdit.Proofs.Edit.TextLookup
import MarkupEdit.Proofs.Tree.Escapes
import MarkupEdit.Proofs.Tree.StringValue
import MarkupEdit.Proofs.Style.Spelling
import MarkupEdit.Proofs.Edit.Assignment
import MarkupEdit.Proofs.Edit.StyleEntries
import MarkupEdit.Proofs.Style.Bracketed
import MarkupEdit.Proofs.Edit.StyleEffect
import MarkupEdit.Proofs.Edit.AttributeReading
import MarkupEdit.Proofs.Edit.StyleReading
import MarkupEdit.Proofs.Edit.StyleFrame
import MarkupEdit.Proofs.Edit.TextReading
import MarkupEdit.Proofs.Style.Sorting
import MarkupEdit.Proofs.Edit.TextRepetition
import MarkupEdit.Proofs.Edit.Grammatical
import MarkupEdit.Proofs.Edit.Wrapping
import MarkupEdit.Proofs.Tree.VisibleText
import MarkupEdit.Proofs.Edit.Unwrapping
import MarkupEdit.Proofs.Style.Displacement
import MarkupEdit.Proofs.Style.Grouping
import MarkupEdit.Proofs.Style.Layers
import MarkupEdit.Proofs.Tree.ClosedLiteral
import MarkupEdit.Proofs.Edit.ClassRepetition
import MarkupEdit.Proofs.Text.LineOffsets
import MarkupEdit.Proofs.Edit.Positions
import MarkupEdit.Proofs.Text.Digits
import MarkupEdit.Proofs.Text.ReferenceGrammar
import MarkupEdit.Proofs.Text.Decoding
import MarkupEdit.Proofs.Edit.TextSimilarity
import MarkupEdit.Proofs.Tree.StringGrammar
import MarkupEdit.Proofs.Edit.LiteralSearch
import MarkupEdit.Proofs.Tree.Snippets
import MarkupEdit.Proofs.Edit.ChangeLog
import MarkupEdit.Proofs.Style.DeclarationTexts
import MarkupEdit.Proofs.Edit.StyleText
import MarkupEdit.Proofs.Tree.PathEdit
import MarkupEdit.Proofs.Tree.ShownWords
