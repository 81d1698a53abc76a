import CrossShade.Batch
import CrossShade.CommandLine
import CrossShade.Comment
import CrossShade.Conversion
import CrossShade.Enclosed
import CrossShade.Fault
import CrossShade.Host
import CrossShade.Journal
import CrossShade.Layout
import CrossShade.Listing
import CrossShade.Main
import CrossShade.Path
import CrossShade.Pattern
import CrossShade.Pattern.CharSet
import CrossShade.Pattern.Lexeme
import CrossShade.Pattern.Match
import CrossShade.Pattern.Regex
import CrossShade.Pattern.Weight
import CrossShade.Plan
import CrossShade.Program
import CrossShade.Program.Reader
import CrossShade.Proofs.Assignments
import CrossShade.Proofs.Balance
import CrossShade.Proofs.Blanks
import CrossShade.Proofs.BodyRules
import CrossShade.Proofs.Deliveries
import CrossShade.Proofs.Edits
import CrossShade.Proofs.EntryOrder
import CrossShade.Proofs.FileNames
import CrossShade.Proofs.FoldedRow
import CrossShade.Proofs.Folding
import CrossShade.Proofs.Grammar
import CrossShade.Proofs.Indentation
import CrossShade.Proofs.Independence
import CrossShade.Proofs.Lexemes
import CrossShade.Proofs.LineEnds
import CrossShade.Proofs.Matching
import CrossShade.Proofs.Memory
import CrossShade.Proofs.Names
import CrossShade.Proofs.Operands
import CrossShade.Proofs.Outputs
import CrossShade.Proofs.Parameters
import CrossShade.Proofs.PathParts
import CrossShade.Proofs.Places
import CrossShade.Proofs.PositionName
import CrossShade.Proofs.Products
import CrossShade.Proofs.Quotation
import CrossShade.Proofs.RemovedComments
import CrossShade.Proofs.Replacement
import CrossShade.Proofs.Reread
import CrossShade.Proofs.Residue
import CrossShade.Proofs.RuleFinders
import CrossShade.Proofs.RuleOrder
import CrossShade.Proofs.ScanRules
import CrossShade.Proofs.Seams
import CrossShade.Proofs.SpacingRuns
import CrossShade.Proofs.Statements
import CrossShade.Proofs.Stops
import CrossShade.Proofs.Succession
import CrossShade.Proofs.TokenReading
import CrossShade.Proofs.TokenRow
import CrossShade.Proofs.Translation
import CrossShade.Proofs.Unmarked
import CrossShade.Proofs.Ways
import CrossShade.Proofs.Written
import CrossShade.Rule
import CrossShade.Settings
import CrossShade.Source
import CrossShade.Stage
import CrossShade.Substitution
import CrossShade.Template
import CrossShade.Text
import CrossShade.Text.Case
import CrossShade.Text.Hidden
import CrossShade.Text.Letter
import CrossShade.Text.Mark
import CrossShade.Text.Number
import CrossShade.Text.Quoted
import CrossShade.Text.Ranges
import CrossShade.Text.Recent
import CrossShade.Text.Replace
import CrossShade.Text.Utf8
import CrossShade.Text.Word
import CrossShade.Token
import CrossShade.Volume
