import ScriptLang.Main
import ScriptLang.Session
import ScriptLang.Proofs.Grammar.Acceptance
import ScriptLang.Proofs.Token.Class
import ScriptLang.Proofs.Token.Wording
import ScriptLang.Proofs.Script.Piecewise
import ScriptLang.Proofs.Grammar.Numeral
import ScriptLang.Proofs.Program.Infix
import ScriptLang.Proofs.Grammar.Infix
import ScriptLang.Proofs.Grammar.Depth
import ScriptLang.Proofs.Script.RoundTrip
import ScriptLang.Proofs.Evaluation.Simulation
import ScriptLang.Proofs.Environment.Chains
import ScriptLang.Proofs.Evaluation.Existence
import ScriptLang.Proofs.Session.Reachable
import ScriptLang.Proofs.Evaluation.Noninterference
import ScriptLang.Proofs.Evaluation.Invariant
import ScriptLang.Proofs.Environment.Bindings
import ScriptLang.Proofs.Environment.Discarding
import ScriptLang.Proofs.Environment.Lookups
import ScriptLang.Proofs.Session.History
import ScriptLang.Proofs.Evaluation.Declarations
import ScriptLang.Proofs.Evaluation.Frame
import ScriptLang.Proofs.Token.Lexing
import ScriptLang.Proofs.Token.Placement
import ScriptLang.Proofs.Heap.Unfolding
import ScriptLang.Proofs.Evaluation.LastWrites
import ScriptLang.Proofs.Evaluation.AssignmentChain
import ScriptLang.Proofs.Grammar.Lookahead
import ScriptLang.Proofs.Grammar.Earliest
import ScriptLang.Proofs.Evaluation.Grounded
import ScriptLang.Proofs.Evaluation.Truncation
import ScriptLang.Proofs.Token.Layout
import ScriptLang.Proofs.Program.Shown
import ScriptLang.Proofs.Script.Rendering
import ScriptLang.Proofs.Environment.Split
import ScriptLang.Proofs.Session.Arising
import ScriptLang.Proofs.Evaluation.ChildRun
import ScriptLang.Proofs.Token.Front
import ScriptLang.Proofs.Token.Delivery
import ScriptLang.Proofs.Token.Lines
import ScriptLang.Proofs.Token.Scan
import ScriptLang.Proofs.Script.Cleaning
import ScriptLang.Proofs.Grammar.Placeless
import ScriptLang.Proofs.Script.Trimming
import ScriptLang.Proofs.Evaluation.Arithmetic
import ScriptLang.Proofs.Grammar.ErrorPath
import ScriptLang.Proofs.Grammar.EndOfInput
import ScriptLang.Proofs.Script.EndOfInput
import ScriptLang.Proofs.Evaluation.Comparison
import ScriptLang.Proofs.Evaluation.Repetition
import ScriptLang.Proofs.Program.Height
import ScriptLang.Proofs.Evaluation.Recursion
import ScriptLang.Proofs.Script.Height
import ScriptLang.Proofs.Script.Uninitialised
import ScriptLang.Proofs.Token.Cursor
import ScriptLang.Proofs.Script.Number
