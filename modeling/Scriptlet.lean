import Scriptlet.Main
import Scriptlet.Proofs.Text.Splitting
import Scriptlet.Proofs.Tree.Erase
import Scriptlet.Proofs.Tree.ExpressionText
import Scriptlet.Proofs.Tree.ProgramText
import Scriptlet.Proofs.Tree.Readable
import Scriptlet.Proofs.Token.Diagnostics
import Scriptlet.Proofs.Token.Join
import Scriptlet.Proofs.Token.Locality
import Scriptlet.Proofs.Token.LongestMatch
import Scriptlet.Proofs.Token.Lossless
import Scriptlet.Proofs.Token.Places
import Scriptlet.Proofs.Token.Reading
import Scriptlet.Proofs.Token.Respaced
import Scriptlet.Proofs.Token.StringLiterals
import Scriptlet.Proofs.Parse.Boundary
import Scriptlet.Proofs.Parse.Composed
import Scriptlet.Proofs.Parse.Containment
import Scriptlet.Proofs.Parse.Course
import Scriptlet.Proofs.Parse.Erase
import Scriptlet.Proofs.Parse.ErrorOrder
import Scriptlet.Proofs.Parse.ExpressionComplete
import Scriptlet.Proofs.Parse.ExpressionSound
import Scriptlet.Proofs.Parse.Grammar
import Scriptlet.Proofs.Parse.Input
import Scriptlet.Proofs.Parse.Literals
import Scriptlet.Proofs.Parse.Names
import Scriptlet.Proofs.Parse.NearestElse
import Scriptlet.Proofs.Parse.Origin
import Scriptlet.Proofs.Parse.Parallel
import Scriptlet.Proofs.Parse.ProgramWriter
import Scriptlet.Proofs.Parse.Progress
import Scriptlet.Proofs.Parse.Recovery
import Scriptlet.Proofs.Parse.Sided
import Scriptlet.Proofs.Parse.Silent
import Scriptlet.Proofs.Parse.StatementComplete
import Scriptlet.Proofs.Parse.StatementProgress
import Scriptlet.Proofs.Parse.StatementSound
import Scriptlet.Proofs.Parse.Writer
import Scriptlet.Proofs.Eval.BindingLog
import Scriptlet.Proofs.Eval.Blame
import Scriptlet.Proofs.Eval.Confinement
import Scriptlet.Proofs.Eval.Division
import Scriptlet.Proofs.Eval.Effects
import Scriptlet.Proofs.Eval.Erase
import Scriptlet.Proofs.Eval.Exact
import Scriptlet.Proofs.Eval.Faults
import Scriptlet.Proofs.Eval.IntegerText
import Scriptlet.Proofs.Eval.Outcome
import Scriptlet.Proofs.Eval.Rename
import Scriptlet.Proofs.Eval.ScopeNames
import Scriptlet.Proofs.Eval.Slices
import Scriptlet.Proofs.Eval.StaticScope
import Scriptlet.Proofs.Eval.Targets
import Scriptlet.Proofs.Eval.Trace
import Scriptlet.Proofs.Eval.Transcript
import Scriptlet.Proofs.Eval.Words
import Scriptlet.Proofs.Session.Layout
import Scriptlet.Proofs.Session.Replay
import Scriptlet.Proofs.Report.Heading
import Scriptlet.Proofs.Report.LineStarts
import Scriptlet.Proofs.Report.Places
