import Thompson.Automaton.Digraph
import Thompson.Automaton.Document
import Thompson.Automaton.Run
import Thompson.Command.Program
import Thompson.Journal
import Thompson.Main
import Thompson.Ordered.Set
import Thompson.Pattern.Grammar
import Thompson.Pattern.Parse
import Thompson.Proofs.Pattern.Parsing
import Thompson.Proofs.Regex.Decoding
import Thompson.Proofs.Regex.Recognition
import Thompson.Regex.Automaton
import Thompson.Regex.Factors
import Thompson.Regex.Language
import Thompson.Regex.Outline
import Thompson.Regex.Spelling
import Thompson.Regex.Term
import Thompson.Proofs.Automaton.Trim
import Thompson.Proofs.Regex.Trim
import Thompson.Proofs.Automaton.Embedding
import Thompson.Proofs.Regex.Embedding
import Thompson.Pattern.Blame
import Thompson.Proofs.Pattern.Blame
import Thompson.Json.Grammar
import Thompson.Proofs.Json.Writing
import Thompson.Proofs.Json.Reading
import Thompson.Proofs.Automaton.Lossless
import Thompson.Proofs.Command.Report
import Thompson.Proofs.Regex.Captions
import Thompson.Proofs.Automaton.Count
import Thompson.Proofs.Regex.Size
import Thompson.Automaton.Workbench
import Thompson.Proofs.Automaton.Sound
import Thompson.Proofs.Regex.Spelling
import Thompson.Automaton.Drawing
import Thompson.Proofs.Automaton.Drawing
import Thompson.Proofs.Automaton.Legible
import Thompson.Proofs.Regex.Drawing
import Thompson.Proofs.Automaton.Language
import Thompson.Proofs.Automaton.Shape
import Thompson.Proofs.Regex.Shape
import Thompson.Proofs.Pattern.Violation
import Thompson.Proofs.Pattern.Reading
import Thompson.Proofs.Regex.Outline
import Thompson.Proofs.Automaton.Cycles
import Thompson.Proofs.Regex.Cycles
import Thompson.Automaton.Shift
import Thompson.Proofs.Automaton.Shift
import Thompson.Proofs.Journal
import Thompson.Proofs.Pattern.Extent
import Thompson.Proofs.Pattern.Failure
import Thompson.Proofs.Automaton.Overlay
import Thompson.Proofs.Automaton.Grouping
import Thompson.Text.Printable
import Thompson.Text.Quoted
import Thompson.Proofs.Automaton.Origin
import Thompson.Pattern.Descent
import Thompson.Proofs.Pattern.Descent
