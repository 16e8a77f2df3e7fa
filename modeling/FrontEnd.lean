import FrontEnd.Main
import FrontEnd.Tree.Margin
import FrontEnd.Tree.Walk
import FrontEnd.Proofs.GoldenFiles
import FrontEnd.Proofs.Lexer.Blanking
import FrontEnd.Proofs.Lexer.Lines
import FrontEnd.Proofs.Lexer.Partition
import FrontEnd.Proofs.Lexer.Separated
import FrontEnd.Proofs.Logging
import FrontEnd.Proofs.Parser.Completion
import FrontEnd.Proofs.Parser.Concatenation
import FrontEnd.Proofs.Parser.Faithfulness
import FrontEnd.Proofs.Parser.Lookahead
import FrontEnd.Proofs.Parser.Mismatches
import FrontEnd.Proofs.Parser.Relabelling
import FrontEnd.Proofs.Parser.Settling
import FrontEnd.Proofs.Parser.Sites
import FrontEnd.Proofs.Parser.Totality
import FrontEnd.Proofs.Parser.Tracing
import FrontEnd.Proofs.Parser.WellFormed
import FrontEnd.Proofs.Parser.WrongTokens
import FrontEnd.Proofs.RoundTrip
import FrontEnd.Proofs.Tree.Distinct
import FrontEnd.Proofs.Lexer.LongestMatch
import FrontEnd.Proofs.Parser.Damage
import FrontEnd.Proofs.UnreadableFiles
import FrontEnd.Proofs.Parser.MissingTokens
import FrontEnd.Proofs.Parser.ParameterLists
import FrontEnd.Proofs.Lexer.Stepwise
import FrontEnd.Proofs.Parser.SharedLog
import FrontEnd.Proofs.Tree.PreOrder
import FrontEnd.Proofs.Tree.PrintedLines
import FrontEnd.Proofs.Tree.Visiting
import FrontEnd.Proofs.Coordinates
import FrontEnd.Proofs.ComparedLines
import FrontEnd.Proofs.ExactPatch
import FrontEnd.Proofs.VerbatimArguments
