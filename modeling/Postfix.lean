import Postfix.Value.Read
import Postfix.Failure.Report
import Postfix.Plan
import Postfix.Formula.Engine
import Postfix.CommandLine.Sample
import Postfix.Main
import Postfix.Proofs.Ideal
import Postfix.Proofs.SingleRoundTrip
import Postfix.Proofs.Tree.Evaluation
import Postfix.Proofs.Depth
import Postfix.Proofs.Rejection
import Postfix.Proofs.Ending
import Postfix.Proofs.References
import Postfix.Proofs.Composition
import Postfix.Proofs.Substitution
import Postfix.Proofs.Equality
import Postfix.Proofs.Simulation
import Postfix.Proofs.Closure
import Postfix.Proofs.WholeNumbers
import Postfix.Proofs.FixedPoint
import Postfix.Proofs.Formula.Recency
import Postfix.Proofs.Formula.Gaps
import Postfix.Proofs.Formula.Independence
import Postfix.Proofs.Division
import Postfix.Proofs.RoundAway
import Postfix.Proofs.Splitting
import Postfix.Proofs.Recognition
import Postfix.Proofs.Lookup
import Postfix.Proofs.Formula.Uniform
import Postfix.Proofs.Formula.Order
import Postfix.Proofs.Formula.Eviction
import Postfix.Proofs.Stack.Requests
