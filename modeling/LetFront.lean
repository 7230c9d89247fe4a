import LetFront.Main
import LetFront.Program.Equality
import LetFront.Proofs.Program.Division
import LetFront.Proofs.Token.Layout
import LetFront.Proofs.Token.Tiling
import LetFront.Proofs.Program.Blame
import LetFront.Proofs.Text.Lines
import LetFront.Proofs.Report.SourceLine
import LetFront.Proofs.Program.Boundary
import LetFront.Proofs.Program.Order
import LetFront.Proofs.Token.Spacing
import LetFront.Proofs.Program.Reprint
import LetFront.Proofs.Program.Conservation
import LetFront.Proofs.Program.Simulation
import LetFront.Proofs.Session.Opening
import LetFront.Proofs.Report.Indifference
import LetFront.Proofs.Token.Driving
import LetFront.Proofs.Shell.Dispatch
import LetFront.Proofs.Shell.Independence
import LetFront.Proofs.Program.Unambiguous
import LetFront.Proofs.Program.Progress
import LetFront.Proofs.Program.Ending
import LetFront.Proofs.CommandLine.FileMode
import LetFront.Proofs.Session.Accounting
import LetFront.Proofs.Token.LineByLine
import LetFront.Proofs.Token.Continuation
import LetFront.Proofs.Program.LineEnds
import LetFront.Proofs.Report.Underline
import LetFront.Proofs.Token.Listing
import LetFront.Proofs.Program.Indenting
import LetFront.Proofs.Program.Showing
import LetFront.Proofs.Report.Routing
import LetFront.Proofs.Text.Filling
import LetFront.Report.Step
