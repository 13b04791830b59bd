import DisplayLogic.Host
import DisplayLogic.Main
import DisplayLogic.Number.Interchange
import DisplayLogic.Proofs.Grammar.Derivation
import DisplayLogic.Proofs.Grammar.Reading
import DisplayLogic.Proofs.Grammar.Language
import DisplayLogic.Proofs.Lexeme.Boundary
import DisplayLogic.Proofs.Number.Numeral
import DisplayLogic.Proofs.Token.Spelling
import DisplayLogic.Proofs.Token.Lexing
import DisplayLogic.Proofs.Compilation.Stages
import DisplayLogic.Proofs.Condition.Printing
import DisplayLogic.Proofs.Compilation.RoundTrip
import DisplayLogic.Proofs.Condition.Meaning
import DisplayLogic.Proofs.Host.Observation
import DisplayLogic.Proofs.Condition.Variables
import DisplayLogic.Proofs.Token.Identifiers
import DisplayLogic.Proofs.Compilation.Groups
import DisplayLogic.Proofs.Compilation.Batch
import DisplayLogic.Proofs.Lexeme.Extent
import DisplayLogic.Proofs.Lexeme.Behind
import DisplayLogic.Proofs.Token.Slices
import DisplayLogic.Proofs.Token.Joining
import DisplayLogic.Proofs.Compilation.Joining
import DisplayLogic.Proofs.Number.Rounding
import DisplayLogic.Proofs.Number.Decimal
import DisplayLogic.Proofs.Number.Text
import DisplayLogic.Proofs.Text.Quoted
import DisplayLogic.Proofs.Condition.Outline
import DisplayLogic.Proofs.Compilation.Outline
import DisplayLogic.Proofs.Condition.Dependence
import DisplayLogic.Proofs.Condition.Parts
import DisplayLogic.Proofs.Host.History
import DisplayLogic.Proofs.Registry.Document
import DisplayLogic.Proofs.Command.Agreement
import DisplayLogic.Proofs.Command.Keys
import DisplayLogic.Proofs.Grammar.Conservation
import DisplayLogic.Proofs.Grammar.Segments
import DisplayLogic.Proofs.Token.Balance
import DisplayLogic.Proofs.Compilation.Refusals
import DisplayLogic.Proofs.Name.Pattern
import DisplayLogic.Proofs.Registry.Resolution
import DisplayLogic.Proofs.Token.Shifting
import DisplayLogic.Proofs.Token.Separation
import DisplayLogic.Proofs.Token.Progress
import DisplayLogic.Proofs.Compilation.Height
import DisplayLogic.Proofs.Grammar.Parentheses
import DisplayLogic.Proofs.Registry.Registration
import DisplayLogic.Proofs.Condition.Selection
import DisplayLogic.Proofs.Condition.Comparison
import DisplayLogic.Proofs.Number.Whole
import DisplayLogic.Proofs.Compilation.Atoms
import DisplayLogic.Proofs.Compilation.NumberText
import DisplayLogic.Proofs.Compilation.Truth
import DisplayLogic.Proofs.Registry.Acceptance
import DisplayLogic.Proofs.Token.Questions
import DisplayLogic.Proofs.Text.Lines
import DisplayLogic.Proofs.Command.Lines
