import Legitimacy.Node

namespace Legitimacy

def baselineClaim (metricFields : List String) : GovernanceClaim where
  claimantId := "baseline"
  strength := 1
  priorityClass := some "extracted"
  path := some "/workspace/safe.rs"
  action := some "safe_action"
  content := some "safe content"
  metrics := metricFields.foldl (fun metrics field => metrics.insert field 0) ∅

def decisionMetric : Decision → String
  | .permit => "permit_signal"
  | .deny => "deny_signal"
  | .escalate => "escalate_signal"

def applyDecisionMetrics (claim : GovernanceClaim) (decision : Decision) : GovernanceClaim :=
  { claim with metrics := claim.metrics.insert (decisionMetric decision) 1 }

def unescape : List Char → List Char
  | [] => []
  | ['\\'] => []
  | '\\' :: character :: rest => character :: unescape rest
  | character :: rest => character :: unescape rest

def sampleContent (regex : String) : String :=
  let value := String.ofList (unescape regex.toList)
  if isBlank value then "safe content" else value

def claimForGate (claimantId : String) (gate : Gate) (metricFields : List String) (index : Nat) : GovernanceClaim :=
  let claim := { baselineClaim metricFields with claimantId := claimantId, strength := 1 + index.toFloat * 0.05 }
  match gate with
  | .prefixMatch pattern decision => applyDecisionMetrics { claim with path := some (pattern ++ "/candidate") } decision
  | .exactMatch value decision => applyDecisionMetrics { claim with action := some value } decision
  | .contentMatch regex decision => applyDecisionMetrics { claim with content := some (sampleContent regex) } decision
  | .thresholdGate field min decision =>
    applyDecisionMetrics { claim with metrics := claim.metrics.insert field (if min ≤ 0 then 1 else min) } decision
  | .peerRelative field _ decision =>
    applyDecisionMetrics { claim with metrics := claim.metrics.insert field (10 + index.toFloat) } decision

def gateMetricField : Gate → Option String
  | .thresholdGate field _ _ => some field
  | .peerRelative field _ _ => some field
  | _ => none

def nodeGates : GovernanceNode → List Gate
  | .binary _ _ gates _ _ => gates
  | _ => []

def allMetricFieldsForNodes (graph : GovernanceGraph) (nodeIds : List NodeId) : List String :=
  let fields := (nodeIds.filterMap fun id => graph.nodes[id]?).flatMap fun node => (nodeGates node).filterMap gateMetricField
  (fields.foldl (fun fields field => fields.insert field) (∅ : BTreeSet String)).toList

def syntheticClaimsForNodes (graph : GovernanceGraph) (nodeIds : List NodeId) : List GovernanceClaim :=
  let nodeIds := sorted nodeIds
  let metricFields := allMetricFieldsForNodes graph nodeIds
  let probes := (nodeIds.filterMap fun id => graph.nodes[id]?).flatMap fun node =>
    (nodeGates node).zipIdx.map fun (gate, index) =>
      claimForGate ((nodeId node).asStr ++ "-gate-" ++ toString index) gate metricFields index
  (baselineClaim metricFields :: probes).insertionSort fun left right => (compare left.claimantId right.claimantId).isLE

def syntheticClaims (graph : GovernanceGraph) : List GovernanceClaim := syntheticClaimsForNodes graph graph.nodes.keys

end Legitimacy
