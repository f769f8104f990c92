import LineCalc.Main
import LineCalc.Sampler
import LineCalc.Proofs.Expr.Descent
import LineCalc.Proofs.Line.Reading
import LineCalc.Proofs.Line.Writing
import LineCalc.Proofs.Line.RoundTrip
import LineCalc.Proofs.Table
import LineCalc.Proofs.Statement.Validity
import LineCalc.Proofs.Session.Visits
import LineCalc.Proofs.Session.Lines
import LineCalc.Proofs.Sampler.Draw
import LineCalc.Proofs.Sampler.Statement
import LineCalc.Proofs.Sampler.Program
import LineCalc.Proofs.Session.Outcome
import LineCalc.Proofs.Session.Contents
import LineCalc.Proofs.Line.Leniency
import LineCalc.Proofs.Snapshot.Exports
import LineCalc.Proofs.Session.Output
import LineCalc.Proofs.Session.Blanking
import LineCalc.Proofs.Statement.OnLine
import LineCalc.Proofs.Line.Renumbering
import LineCalc.Proofs.Session.Renumbering
import LineCalc.Proofs.Line.Division
import LineCalc.Proofs.Session.Listing
import LineCalc.Proofs.CommandLine.Status
import LineCalc.Proofs.Double.Saturate
import LineCalc.Proofs.Double.Value
import LineCalc.Proofs.Expr.Shown
import LineCalc.Proofs.Expr.Leaves
import LineCalc.Proofs.Line.Print
import LineCalc.Proofs.Expr.Signed
import LineCalc.Proofs.Line.Declared
import LineCalc.Proofs.Double.Nearest
import LineCalc.Proofs.Line.Variable
import LineCalc.Proofs.Double.Bits
import LineCalc.Proofs.Decimal.Shape
import LineCalc.Proofs.Snapshot.Doubles
import LineCalc.Proofs.Line.Written
import LineCalc.Proofs.Line.Grammar
import LineCalc.Proofs.Line.Integer
import LineCalc.Proofs.Token.Span
import LineCalc.Proofs.Expr.Viable
import LineCalc.Proofs.Text.Squeeze
import LineCalc.Proofs.Line.White
import LineCalc.Proofs.Line.Place
import LineCalc.Proofs.Statement.Independence
import LineCalc.Proofs.Settings.Layers
import LineCalc.Proofs.Snapshot.Views
import LineCalc.Proofs.Session.Prefix
import LineCalc.Proofs.Line.Kind
import LineCalc.Proofs.Line.Tree
import LineCalc.Proofs.Statement.Run
