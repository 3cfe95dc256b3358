import Legitimacy.ExecutedComposition
import Legitimacy.Widening
import Legitimacy.CodexExec.FreshTurnAcceptance
import Legitimacy.Trajectory.AuthorityBinding
import Legitimacy.Ledger.Atomicity
import Legitimacy.Ledger.TamperEvidence
import Legitimacy.Extract.HandlerNames
import Legitimacy.Extract.DecisionLanes
import Legitimacy.Ledger.Migration
import Legitimacy.AuditAgreement
import Legitimacy.LinuxOutput.AllOrNothing
import Legitimacy.ProcessCapture.Ending
import Legitimacy.EdgeTransforms
import Legitimacy.ConstantOverlays
import Legitimacy.Trajectory.StreamScan
import Legitimacy.Trajectory.CompositionExactness
import Legitimacy.CodexExec.ReceiptBinding
import Legitimacy.CodexExec.NetworkLiterals
import Legitimacy.CodexExec.Base64url
import Legitimacy.DivisorUniformity
import Legitimacy.ShockEvenness
import Legitimacy.SingleRemovals
import Legitimacy.ProportionalControl
import Legitimacy.ParadoxSuite
import Legitimacy.CodexExec.BundleRoundTrip
import Legitimacy.CodexExec.LineageSidecar
import Legitimacy.Extract.Kernelization
import Legitimacy.ExactSpectral.GraphLaplacian
import Legitimacy.ExactSpectral.PartitionOptima
import Legitimacy.ExactSpectral.PositiveProcedure
import Legitimacy.RerouteEntries
import Legitimacy.PermissionLists
import Legitimacy.Extract.AstHash
import Legitimacy.Extract.SyntheticProbes
import Legitimacy.Calendar
