import PrefixCalc.Batch
import PrefixCalc.Bindings
import PrefixCalc.CommandLine.Output
import PrefixCalc.CommandLine.Request
import PrefixCalc.Error
import PrefixCalc.Eval
import PrefixCalc.Evaluate
import PrefixCalc.Expr
import PrefixCalc.Main
import PrefixCalc.Numeral
import PrefixCalc.Operator
import PrefixCalc.Parse
import PrefixCalc.Proofs.Sketch.Peak
import PrefixCalc.Proofs.Sketch.Step
import PrefixCalc.Proofs.Text.Gap
import PrefixCalc.Proofs.Token.Reading
import PrefixCalc.Proofs.Token.Run
import PrefixCalc.Proofs.Token.Spelling
import PrefixCalc.Proofs.Token.Tally
import PrefixCalc.Sketch
import PrefixCalc.Sketch.Draft
import PrefixCalc.Sketch.ToExpr
import PrefixCalc.Text.Alphabetic
import PrefixCalc.Text.Blank
import PrefixCalc.Text.CharRange
import PrefixCalc.Text.Lines
import PrefixCalc.Token
import PrefixCalc.Token.Lexer
import PrefixCalc.Token.OperandCount
import PrefixCalc.Proofs.Evaluate.Limit
import PrefixCalc.Proofs.Sketch.Descent
import PrefixCalc.Proofs.Sketch.Order
import PrefixCalc.Proofs.CallTree.Basic
import PrefixCalc.Proofs.CallTree.Drawing
import PrefixCalc.Proofs.CallTree.Building
import PrefixCalc.Proofs.CallTree.Operands
import PrefixCalc.Proofs.Expr.Written
import PrefixCalc.Proofs.Expr.Reading
import PrefixCalc.Proofs.Sketch.Names
import PrefixCalc.Proofs.Evaluate.Rendering
import PrefixCalc.Proofs.Eval.Writes
import PrefixCalc.Proofs.Eval.Scope
import PrefixCalc.Proofs.Sketch.Depth
import PrefixCalc.Proofs.Evaluate.Failure
import PrefixCalc.Proofs.Text.Lines
import PrefixCalc.Proofs.Text.Encoding
import PrefixCalc.Proofs.Batch.Lines
import PrefixCalc.Proofs.CommandLine.Requests
import PrefixCalc.Proofs.CommandLine.Sources
import PrefixCalc.Proofs.Token.Segment
import PrefixCalc.Proofs.Sketch.Balance
import PrefixCalc.Proofs.Token.Rejection
import PrefixCalc.Proofs.CallTree.Meaning
import PrefixCalc.Proofs.Evaluate.Stray
import PrefixCalc.Proofs.Evaluate.Unclosed
import PrefixCalc.Proofs.Sketch.Forest
import PrefixCalc.Proofs.Sketch.Supply
import PrefixCalc.Proofs.Eval.Calls
import PrefixCalc.Proofs.Eval.Events
import PrefixCalc.Proofs.Eval.Unbound
import PrefixCalc.Proofs.Eval.Influence
import PrefixCalc.Proofs.Eval.Commute
import PrefixCalc.Proofs.Eval.Exact
import PrefixCalc.Proofs.Eval.Renaming
import PrefixCalc.Proofs.Sketch.Arena
import PrefixCalc.Proofs.Sketch.Sealing
