import SpendPlanner.CommandLine.Answer
import SpendPlanner.Estimation.Completion
import SpendPlanner.Main
import SpendPlanner.Proofs.Selection.OrderIndependence
import SpendPlanner.Proofs.Selection.Receiving
import SpendPlanner.Proofs.Signing.ChosenInputs
import SpendPlanner.Proofs.WalletRun
import SpendPlanner.Signing.Fault
import SpendPlanner.Signing.Rehearsal
import SpendPlanner.Proofs.Selection.ClippedFees
import SpendPlanner.Proofs.Configuration
import SpendPlanner.Proofs.Account.History
import SpendPlanner.Proofs.FeeCache.History
import SpendPlanner.Proofs.Estimation.Delivery
import SpendPlanner.Proofs.CommandLine
import SpendPlanner.Proofs.Redaction.Runs
import SpendPlanner.Proofs.Selection.FewestInputs
import SpendPlanner.Proofs.Selection.Monotonicity
import SpendPlanner.Proofs.CallbackQueue.Settling
import SpendPlanner.Proofs.Selection.MergeBound
import SpendPlanner.Proofs.Signing.Balancing
import SpendPlanner.Proofs.Selection.GatherSteps
import SpendPlanner.Proofs.Selection.Hint
import SpendPlanner.Proofs.ExactArithmetic
