import Rulebook.Journal.Observed
import Rulebook.Journal.Log
import Rulebook.Exchange.Values
import Rulebook.Store.Catalogue
import Rulebook.Store.Connection
import Rulebook.Store.Pool
import Rulebook.Http.Service
import Rulebook.Settings.Load
import Rulebook.Proofs.Grammar
import Rulebook.Proofs.Parser.Run
import Rulebook.Proofs.Parser.Denotation
import Rulebook.Proofs.Parser.Scanner
import Rulebook.Proofs.Parser.Printing
import Rulebook.Proofs.Parser.Draft
import Rulebook.Proofs.Parser.Vacancies
import Rulebook.Proofs.Combination
import Rulebook.Proofs.Http.Agreement
import Rulebook.Proofs.Combination.Meaning
import Rulebook.Proofs.Text.Decimal
import Rulebook.Proofs.Json.Strings
import Rulebook.Proofs.Json.Numbers
import Rulebook.Proofs.Json.Tokens
import Rulebook.Proofs.Json.Lexing
import Rulebook.Proofs.Json.Grammar
import Rulebook.Proofs.Json.Saying
import Rulebook.Proofs.Json.Reading
import Rulebook.Proofs.Json.Rearranged
import Rulebook.Proofs.Exchange.Transit
import Rulebook.Proofs.Http.Frame
import Rulebook.Proofs.Exchange.Contexts
import Rulebook.Proofs.Http.Paths
import Rulebook.Proofs.Http.Evaluation
import Rulebook.Proofs.Store.Chronicle
import Rulebook.Proofs.Store.Answers
import Rulebook.Proofs.Node
import Rulebook.Proofs.Evaluation.FirstFault
import Rulebook.Proofs.Combination.Groups
import Rulebook.Proofs.Http.Lengths
import Rulebook.Proofs.Evaluation.Attributes
import Rulebook.Proofs.Evaluation.Kinds
import Rulebook.Proofs.Evaluation.Record
import Rulebook.Proofs.Combination.Stops
import Rulebook.Proofs.Exchange.Shape
import Rulebook.Proofs.Json.Content
import Rulebook.Proofs.Evaluation.Null
import Rulebook.Proofs.Exchange.Detour
import Rulebook.Proofs.Http.Limits
import Rulebook.Proofs.Words.Segments
import Rulebook.Proofs.Words.Operands
import Rulebook.Proofs.Evaluation.Numerals
import Rulebook.Proofs.Http.Storage
import Rulebook.Proofs.Time.Calendar
import Rulebook.Proofs.Time.Reading
import Rulebook.Proofs.Exchange.Height
import Rulebook.Proofs.Store.Exchange
import Rulebook.Proofs.Settings.Paths
import Rulebook.Proofs.Settings.Layers
import Rulebook.Proofs.Settings.Sections
import Rulebook.Proofs.Settings.Load
import Rulebook.Proofs.Settings.Variables
import Rulebook.Proofs.Exchange.Decoding
