import Descent.Operand
import Descent.Report
import Descent.Regularizer
import Descent.LineSearch
import Descent.Curvature
import Descent.Sample.Terms
import Descent.Sample.Changes
import Descent.Objective.Mutation
import Descent.Objective.Hessian
import Descent.Objective.Range
import Descent.Objective.Stream
import Descent.Objective.Minimize
import Descent.Proofs.Registry.Reachable
import Descent.Proofs.Curvature.Conjugate
import Descent.Proofs.Curvature.Descending
import Descent.Proofs.Linear.Spectrum
import Descent.Proofs.Newton.Distances
import Descent.Proofs.Newton.Raised
import Descent.Proofs.Newton.Shifts
import Descent.Proofs.Intervals.Expressions
import Descent.Proofs.Intervals.Unbounded
import Descent.Proofs.Evaluation.Caches
import Descent.Proofs.Evaluation.Chunks
import Descent.Proofs.Evaluation.Configured
import Descent.Proofs.Evaluation.Faults
import Descent.Proofs.Evaluation.Hessians
import Descent.Proofs.Evaluation.Merging
import Descent.Proofs.Evaluation.Pattern
import Descent.Proofs.Evaluation.Ranges
import Descent.Proofs.Evaluation.Requests
import Descent.Proofs.Evaluation.Restriction
import Descent.Proofs.Evaluation.Sparsity
import Descent.Proofs.Evaluation.Transfer
import Descent.Proofs.Run.Accounts
import Descent.Proofs.Run.Certificates
import Descent.Proofs.Run.Containment
import Descent.Proofs.Run.Division
import Descent.Proofs.Run.FailedSearch
import Descent.Proofs.Run.History
import Descent.Proofs.Search.Ending
import Descent.Proofs.Search.FirstTrial
import Descent.Proofs.Stream.NormalForm
