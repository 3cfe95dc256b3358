import Legitimacy.Codec
import Legitimacy.Transitions

namespace Legitimacy

open Serde

namespace StateJson

open Codec Fields Variants

def strings : Codec (Option String) := option string fun _ => Json.noConfusion

def metrics : Codec (BTreeMap String Float) := map Key.string real

def evidence : Codec (BTreeMap String String) := map Key.string string

section

def parseNodeId (text : String) : Option NodeId := (NodeId.new text).toOption

theorem parseNodeId_asStr (node : NodeId) : parseNodeId node.asStr = some node := by
  have new : NodeId.new node.asStr = .ok node := dif_neg (by simp [node.nonBlank])
  rw [parseNodeId, new]
  rfl

def nodeKey : Key NodeId := ⟨NodeId.asStr, parseNodeId, parseNodeId_asStr⟩

def nodeId : Codec NodeId := through string NodeId.asStr parseNodeId parseNodeId_asStr

def decisionName : Decision → String
  | .permit => "Permit"
  | .deny => "Deny"
  | .escalate => "Escalate"

def decision : Codec Decision := words [.permit, .deny, .escalate] decisionName fun value => by cases value <;> rfl

def gateLogicName : GateLogic → String
  | .allMustPass => "AllMustPass"
  | .anyMustPass => "AnyMustPass"
  | .firstMatch => "FirstMatch"

def gateLogic : Codec GateLogic :=
  words [.allMustPass, .anyMustPass, .firstMatch] gateLogicName fun value => by cases value <;> rfl

def gateView : Gate → (String × Decision × Unit) ⊕ (String × Decision × Unit) ⊕ (String × Decision × Unit) ⊕
    (String × Float × Decision × Unit) ⊕ (String × Float × Decision × Unit)
  | .prefixMatch pattern decision => .inl (pattern, decision, ())
  | .exactMatch value decision => .inr (.inl (value, decision, ()))
  | .contentMatch regex decision => .inr (.inr (.inl (regex, decision, ())))
  | .thresholdGate field min decision => .inr (.inr (.inr (.inl (field, min, decision, ()))))
  | .peerRelative field percentile decision => .inr (.inr (.inr (.inr (field, percentile, decision, ()))))

def gate : Codec Gate :=
  enum ((struct "PrefixMatch" (required "pattern" string (required "decision" decision nil))).or
    ((struct "ExactMatch" (required "value" string (required "decision" decision nil))).or
    ((struct "ContentMatch" (required "regex" string (required "decision" decision nil))).or
    ((struct "ThresholdGate" (required "field" string (required "min" real (required "decision" decision nil)))).or
    (struct "PeerRelative" (required "field" string (required "percentile" real (required "decision" decision nil))))))))
    gateView
    (fun
      | .inl (pattern, decision, _) => .prefixMatch pattern decision
      | .inr (.inl (value, decision, _)) => .exactMatch value decision
      | .inr (.inr (.inl (regex, decision, _))) => .contentMatch regex decision
      | .inr (.inr (.inr (.inl (field, min, decision, _)))) => .thresholdGate field min decision
      | .inr (.inr (.inr (.inr (field, percentile, decision, _)))) => .peerRelative field percentile decision)
    fun value => by cases value <;> rfl

def ruleKind : Codec DeclarativeRuleKind :=
  enum ((unit "Proportional").or (payload "Custom" string))
    (fun | .proportional => .inl () | .custom name => .inr name) (fun | .inl _ => .proportional | .inr name => .custom name)
    fun value => by cases value <;> rfl

def node : Codec GovernanceNode :=
  enum ((struct "Binary" (required "id" nodeId (required "name" string (required "gates" (vec gate)
      (required "default" decision (required "combination" gateLogic nil)))))).or
    ((struct "Proportional" (required "id" nodeId (required "name" string (required "rule" ruleKind
      (required "priority_classes" (vec string) nil))))).or
    (struct "Threshold" (required "id" nodeId (required "name" string (required "threshold" real (required "field" string nil)))))))
    (fun
      | .binary id name gates default combination => .inl (id, name, gates, default, combination, ())
      | .proportional id name rule priorityClasses => .inr (.inl (id, name, rule, priorityClasses, ()))
      | .threshold id name threshold field => .inr (.inr (id, name, threshold, field, ())))
    (fun
      | .inl (id, name, gates, default, combination, _) => .binary id name gates default combination
      | .inr (.inl (id, name, rule, priorityClasses, _)) => .proportional id name rule priorityClasses
      | .inr (.inr (id, name, threshold, field, _)) => .threshold id name threshold field)
    fun value => by cases value <;> rfl

def transform : Codec EdgeTransform :=
  enum ((unit "PassThrough").or (struct "ClaimModification" (required "delta" real nil)))
    (fun | .passThrough => .inl () | .claimModification delta => .inr (delta, ()))
    (fun | .inl _ => .passThrough | .inr (delta, _) => .claimModification delta) fun value => by cases value <;> rfl

def edge : Codec GovernanceEdge :=
  record (required "from" nodeId (required "to" nodeId (required "transform" transform nil)))
    (fun value => (value.fromNode, value.toNode, value.transform, ())) (fun (fromNode, toNode, transform, _) => ⟨fromNode, toNode, transform⟩)
    fun _ => rfl

def graph : Codec GovernanceGraph :=
  record (required "nodes" (map nodeKey node) (required "edges" (vec edge) nil))
    (fun value => (value.nodes, value.edges, ())) (fun (nodes, edges, _) => ⟨nodes, edges⟩) fun _ => rfl

def defaultGovernanceStrength : Float := 1

def governanceClaim : Codec GovernanceClaim :=
  record (required "claimant_id" string (defaulted "strength" real defaultGovernanceStrength
      (defaulted "priority_class" strings none (defaulted "path" strings none (defaulted "action" strings none
      (defaulted "content" strings none (defaulted "metrics" metrics ∅ nil)))))))
    (fun value => (value.claimantId, value.strength, value.priorityClass, value.path, value.action, value.content, value.metrics, ()))
    (fun (claimantId, strength, priorityClass, path, action, content, metrics, _) =>
      ⟨claimantId, strength, priorityClass, path, action, content, metrics⟩)
    fun _ => rfl

end

section

def positiveStrength : Codec PositiveStrength :=
  through real PositiveStrength.value (fun value => (PositiveStrength.new value).toOption) fun strength => by
    rw [PositiveStrength.new, dif_pos ⟨strength.finite, strength.positive⟩]
    rfl

def estateTotal : Codec EstateTotal :=
  through real EstateTotal.value (fun value => (EstateTotal.new value).toOption) fun total => by
    rw [EstateTotal.new, dif_pos ⟨total.finite, total.positive⟩]
    rfl

def estate : Codec Estate :=
  record (required "total" estateTotal (required "unit" string nil)) (fun value => (value.total, value.unit, ()))
    (fun (total, unit, _) => ⟨total, unit⟩) fun _ => rfl

def claim : Codec Claim :=
  record (required "claimant_id" string (required "strength" positiveStrength (defaulted "metrics" metrics ∅ nil)))
    (fun value => (value.claimantId, value.strength, value.metrics, ()))
    (fun (claimantId, strength, metrics, _) => ⟨claimantId, strength, metrics⟩) fun _ => rfl

def validAllocation : Codec ValidAllocation := through metrics ValidAllocation.allocation (fun shares => some ⟨shares⟩) fun _ => rfl

def counterexample : Codec Counterexample :=
  record (required "description" string (required "original_claims" (vec claim) (required "original_estate" estate
      (required "original_allocation" validAllocation (required "perturbed_claims" (vec claim) (required "perturbed_estate" estate
      (required "perturbed_allocation" validAllocation (required "violation" string nil))))))))
    (fun value => (value.description, value.originalClaims, value.originalEstate, value.originalAllocation, value.perturbedClaims,
      value.perturbedEstate, value.perturbedAllocation, value.violation, ()))
    (fun (description, originalClaims, originalEstate, originalAllocation, perturbedClaims, perturbedEstate, perturbedAllocation,
        violation, _) =>
      ⟨description, originalClaims, originalEstate, originalAllocation, perturbedClaims, perturbedEstate, perturbedAllocation, violation⟩)
    fun _ => rfl

def verdict : Codec Verdict :=
  enum ((struct "Admissible" (required "axiom" string (required "perturbations_tested" natural nil))).or
    (struct "Rejected" (required "axiom" string (required "counterexample" counterexample nil))))
    (fun
      | .admissible axiomName perturbationsTested => .inl (axiomName, perturbationsTested, ())
      | .rejected axiomName counterexample => .inr (axiomName, counterexample, ()))
    (fun
      | .inl (axiomName, perturbationsTested, _) => .admissible axiomName perturbationsTested
      | .inr (axiomName, counterexample, _) => .rejected axiomName counterexample)
    fun value => by cases value <;> rfl

def strategyproofness : Codec StrategyproofnessVerdict :=
  enum ((unit "Strategyproof").or (struct "Manipulable" (required "claimant" string (required "true_strength" real
      (required "reported" real (required "true_alloc" real (required "manipulated_alloc" real nil)))))))
    (fun
      | .strategyproof => .inl ()
      | .manipulable claimant trueStrength reported trueAlloc manipulatedAlloc =>
        .inr (claimant, trueStrength, reported, trueAlloc, manipulatedAlloc, ()))
    (fun
      | .inl _ => .strategyproof
      | .inr (claimant, trueStrength, reported, trueAlloc, manipulatedAlloc, _) =>
        .manipulable claimant trueStrength reported trueAlloc manipulatedAlloc)
    fun value => by cases value <;> rfl

end

section

def property : Codec GovernanceProperty :=
  words Protocol.defaultMonitoredProperties GovernanceProperty.asStr fun value => by cases value <;> rfl

def monitoringSpec : Codec MonitoringSpec :=
  record (required "metric" string (required "threshold" real (required "frequency_seconds" natural (required "alert_channel" string nil))))
    (fun value => (value.metric, value.threshold, value.frequencySeconds, value.alertChannel, ()))
    (fun (metric, threshold, frequencySeconds, alertChannel, _) => ⟨metric, threshold, frequencySeconds, alertChannel⟩) fun _ => rfl

def factorExposure : Codec GovernanceFactorExposure :=
  record (required "consistency" real (required "solidarity" real (required "monotonicity" real (required "strategyproofness" real
      (required "nonvacuity" real nil)))))
    (fun value => (value.consistency, value.solidarity, value.monotonicity, value.strategyproofness, value.nonvacuity, ()))
    (fun (consistency, solidarity, monotonicity, strategyproofness, nonvacuity, _) =>
      ⟨consistency, solidarity, monotonicity, strategyproofness, nonvacuity⟩)
    fun _ => rfl

def sacrifice : Codec Protocol.SacrificeDeclaration :=
  record (required "property" property (required "justification" string (defaulted "monitoring_specs" (vec monitoringSpec) [] nil)))
    (fun value => (value.property, value.justification, value.monitoringSpecs, ()))
    (fun (property, justification, monitoringSpecs, _) => ⟨property, justification, monitoringSpecs⟩) fun _ => rfl

def sacrificeCertificate : Codec Protocol.SacrificeCertificate :=
  record (required "property" property (required "impact_bound" real (required "source_axiom" string (required "witness" string
      (required "monitoring_specs" (vec monitoringSpec) nil)))))
    (fun value => (value.property, value.impactBound, value.sourceAxiom, value.witness, value.monitoringSpecs, ()))
    (fun (property, impactBound, sourceAxiom, witness, monitoringSpecs, _) => ⟨property, impactBound, sourceAxiom, witness, monitoringSpecs⟩)
    fun _ => rfl

def compiledGraph : Codec Protocol.CompiledGraph :=
  record (required "name" string (required "version" string (required "graph" graph (required "axiom_verdicts" (vec verdict)
      (required "strategyproofness" strategyproofness (required "compiled_rule_hash" string (required "compiled_at" string nil)))))))
    (fun value => (value.name, value.version, value.graph, value.axiomVerdicts, value.strategyproofness, value.compiledRuleHash,
      value.compiledAt, ()))
    (fun (name, version, graph, axiomVerdicts, strategyproofness, compiledRuleHash, compiledAt, _) =>
      ⟨name, version, graph, axiomVerdicts, strategyproofness, compiledRuleHash, compiledAt⟩)
    fun _ => rfl

def monitorConfig : Codec Protocol.MonitorConfig :=
  record (required "min_interval_seconds" natural (required "max_interval_seconds" natural (defaulted "seed" natural 0 nil)))
    (fun value => (value.minIntervalSeconds, value.maxIntervalSeconds, value.seed, ()))
    (fun (minIntervalSeconds, maxIntervalSeconds, seed, _) => ⟨minIntervalSeconds, maxIntervalSeconds, seed⟩) fun _ => rfl

def monitorSession : Codec Protocol.MonitorSession :=
  record (required "compiled_graph" compiledGraph (required "sacrifice_certs" (vec sacrificeCertificate)
      (defaulted "monitored_properties" (vec property) Protocol.defaultMonitoredProperties
      (required "representative_claims" (vec governanceClaim) (required "interval_seconds" natural
      (required "monitor_config" monitorConfig nil))))))
    (fun value => (value.compiledGraph, value.sacrificeCerts, value.monitoredProperties, value.representativeClaims,
      value.intervalSeconds, value.monitorConfig, ()))
    (fun (compiledGraph, sacrificeCerts, monitoredProperties, representativeClaims, intervalSeconds, monitorConfig, _) =>
      ⟨compiledGraph, sacrificeCerts, monitoredProperties, representativeClaims, intervalSeconds, monitorConfig⟩)
    fun _ => rfl

def declaration : Codec Protocol.GovernanceDeclaration :=
  record (required "protocol_version" string (required "timestamp" string (defaulted "graph_name" string "spectral-governance"
      (defaulted "graph_version" string Protocol.packageVersion (required "graph" graph (required "sacrifices" (vec sacrifice)
      (required "spectral_gap" real (required "cv_bound" real nil))))))))
    (fun value => (value.protocolVersion, value.timestamp, value.graphName, value.graphVersion, value.graph, value.sacrifices,
      value.spectralGap, value.cvBound, ()))
    (fun (protocolVersion, timestamp, graphName, graphVersion, graph, sacrifices, spectralGap, cvBound, _) =>
      ⟨protocolVersion, timestamp, graphName, graphVersion, graph, sacrifices, spectralGap, cvBound⟩)
    fun _ => rfl

def promotionCertificate : Codec Protocol.PromotionCertificate :=
  record (required "rule_name" string (required "claimant_id" string (required "decision" decision (required "outcome_verified" bool
      (defaulted "evidence" evidence ∅ (required "compiled_rule_hash" string (optional "prev_cert_hash" strings
      (required "timestamp" string nil))))))))
    (fun value => (value.ruleName, value.claimantId, value.decision, value.outcomeVerified, value.evidence, value.compiledRuleHash,
      value.prevCertHash, value.timestamp, ()))
    (fun (ruleName, claimantId, decision, outcomeVerified, evidence, compiledRuleHash, prevCertHash, timestamp, _) =>
      ⟨ruleName, claimantId, decision, outcomeVerified, evidence, compiledRuleHash, prevCertHash, timestamp⟩)
    fun _ => rfl

def driftAlert : Codec Protocol.GovernanceDriftAlert :=
  record (required "alert_type" string (required "property" property (required "declared_bound" real (required "actual_magnitude" real
      (defaulted "evidence" evidence ∅ (required "recommended_action" string nil))))))
    (fun value => (value.alertType, value.property, value.declaredBound, value.actualMagnitude, value.evidence, value.recommendedAction, ()))
    (fun (alertType, property, declaredBound, actualMagnitude, evidence, recommendedAction, _) =>
      ⟨alertType, property, declaredBound, actualMagnitude, evidence, recommendedAction⟩)
    fun _ => rfl

def riskReport : Codec Protocol.GovernanceRiskReport :=
  record (required "factor_exposure" factorExposure (required "spectral_gap" real (required "cv_bound" real
      (required "localizability_bound" real nil))))
    (fun value => (value.factorExposure, value.spectralGap, value.cvBound, value.localizabilityBound, ()))
    (fun (factorExposure, spectralGap, cvBound, localizabilityBound, _) => ⟨factorExposure, spectralGap, cvBound, localizabilityBound⟩)
    fun _ => rfl

def ledger : Codec Protocol.ProtocolLedger :=
  record (defaulted "certificates" (vec promotionCertificate) [] (defaulted "drift_alerts" (vec driftAlert) []
      (optional "head_hash" strings nil)))
    (fun value => (value.certificates, value.driftAlerts, value.headHash, ()))
    (fun (certificates, driftAlerts, headHash, _) => ⟨certificates, driftAlerts, headHash⟩) fun _ => rfl

end

section

def actionName : Protocol.SupervisoryAction → String
  | .pause => "pause"
  | .deny => "deny"
  | .sandbox => "sandbox"
  | .degrade => "degrade"
  | .rollback => "rollback"
  | .reroute => "reroute"
  | .stop => "stop"

def action : Codec Protocol.SupervisoryAction :=
  words [.pause, .deny, .sandbox, .degrade, .rollback, .reroute, .stop] actionName fun value => by cases value <;> rfl

def postconditionName : Protocol.SupervisoryPostcondition → String
  | .claimEvaluationPaused => "claim_evaluation_paused"
  | .universalDeny => "universal_deny"
  | .governanceGraphSandboxed => "governance_graph_sandboxed"
  | .governanceDegraded => "governance_degraded"
  | .priorGovernanceStateRestored => "prior_governance_state_restored"
  | .claimsRerouted => "claims_rerouted"
  | .permanentlyShutdown => "permanently_shutdown"

def postcondition : Codec Protocol.SupervisoryPostcondition :=
  words [.claimEvaluationPaused, .universalDeny, .governanceGraphSandboxed, .governanceDegraded, .priorGovernanceStateRestored,
    .claimsRerouted, .permanentlyShutdown] postconditionName fun value => by cases value <;> rfl

def intervention : Codec Protocol.SupervisoryIntervention :=
  record (required "action" action (required "postcondition" postcondition (required "issued_at" string
      (required "overlay_graph" graph (required "overlay_graph_hash" string (skipped "reason" strings nil))))))
    (fun value => (value.action, value.postcondition, value.issuedAt, value.overlayGraph, value.overlayGraphHash, value.reason, ()))
    (fun (action, postcondition, issuedAt, overlayGraph, overlayGraphHash, reason, _) =>
      ⟨action, postcondition, issuedAt, overlayGraph, overlayGraphHash, reason⟩)
    fun _ => rfl

def stateVariants :=
  (struct "undeclared" nil).or
    ((struct "declared" (required "graph" graph (required "sacrifices" (vec sacrifice) (required "declaration" declaration nil)))).or
    ((struct "compiled" (required "compiled_graph" compiledGraph (required "sacrifice_certs" (vec sacrificeCertificate)
      (required "declaration" declaration nil)))).or
    ((struct "measured" (required "risk_report" riskReport (required "factor_exposure" factorExposure
      (required "compiled_graph" compiledGraph (required "sacrifice_certs" (vec sacrificeCertificate)
      (required "declaration" declaration (required "representative_claims" (vec governanceClaim) nil))))))).or
    ((struct "live" (required "monitor_session" monitorSession (required "ledger" ledger (required "declaration" declaration nil)))).or
    ((struct "supervised" (required "intervention" intervention (required "monitor_session" monitorSession (required "ledger" ledger
      (required "declaration" declaration nil))))).or
    ((struct "drifted" (required "drift_report" driftAlert (required "monitor_session" monitorSession (required "ledger" ledger
      (required "declaration" declaration nil))))).or
    (struct "recompiling" (required "proposed_graph" graph (required "sacrifices" (vec sacrifice)
      (required "declaration" declaration nil))))))))))

theorem stateVariants_without : stateVariants.Without "state" := by
  refine Without.or without_struct ?_
  repeat refine Without.or without_struct ?_
  exact without_struct

/-- The name of a state stands among its fields, under the key `state`. -/
def protocolState : Codec Protocol.ProtocolState :=
  Codec.tagged "state" stateVariants stateVariants_without
    (fun
      | .undeclared => .inl ()
      | .declared graph sacrifices declaration => .inr (.inl (graph, sacrifices, declaration, ()))
      | .compiled compiledGraph sacrificeCerts declaration => .inr (.inr (.inl (compiledGraph, sacrificeCerts, declaration, ())))
      | .measured riskReport factorExposure compiledGraph sacrificeCerts declaration claims =>
        .inr (.inr (.inr (.inl (riskReport, factorExposure, compiledGraph, sacrificeCerts, declaration, claims, ()))))
      | .live monitorSession ledger declaration => .inr (.inr (.inr (.inr (.inl (monitorSession, ledger, declaration, ())))))
      | .supervised intervention monitorSession ledger declaration =>
        .inr (.inr (.inr (.inr (.inr (.inl (intervention, monitorSession, ledger, declaration, ()))))))
      | .drifted driftReport monitorSession ledger declaration =>
        .inr (.inr (.inr (.inr (.inr (.inr (.inl (driftReport, monitorSession, ledger, declaration, ())))))))
      | .recompiling proposedGraph sacrifices declaration =>
        .inr (.inr (.inr (.inr (.inr (.inr (.inr (proposedGraph, sacrifices, declaration, ()))))))))
    (fun
      | .inl _ => .undeclared
      | .inr (.inl (graph, sacrifices, declaration, _)) => .declared graph sacrifices declaration
      | .inr (.inr (.inl (compiledGraph, sacrificeCerts, declaration, _))) => .compiled compiledGraph sacrificeCerts declaration
      | .inr (.inr (.inr (.inl (riskReport, factorExposure, compiledGraph, sacrificeCerts, declaration, claims, _)))) =>
        .measured riskReport factorExposure compiledGraph sacrificeCerts declaration claims
      | .inr (.inr (.inr (.inr (.inl (monitorSession, ledger, declaration, _))))) => .live monitorSession ledger declaration
      | .inr (.inr (.inr (.inr (.inr (.inl (intervention, monitorSession, ledger, declaration, _)))))) =>
        .supervised intervention monitorSession ledger declaration
      | .inr (.inr (.inr (.inr (.inr (.inr (.inl (driftReport, monitorSession, ledger, declaration, _))))))) =>
        .drifted driftReport monitorSession ledger declaration
      | .inr (.inr (.inr (.inr (.inr (.inr (.inr (proposedGraph, sacrifices, declaration, _))))))) =>
        .recompiling proposedGraph sacrifices declaration)
    fun value => by cases value <;> rfl

theorem protocolState_depth : protocolState.depth ≤ 127 := by decide

end

end StateJson

/-- The text layer of the JSON crate. -/
structure JsonText where
  write : Json → String
  read : String → Option Json

/-- What a text can hold is read back, as long as at most 127 arrays and objects lie in one another. -/
def JsonText.Keeps (text : JsonText) (tree : Json) : Prop := tree.Writable → tree.nesting ≤ 127 → text.read (text.write tree) = some tree

namespace Protocol

variable (host : ProtocolHost) (text : JsonText) (describe : ProtocolError → String) (path : String)

def writeProtocolState (state : ProtocolState) : String := text.write (StateJson.protocolState.encode state)

/-- Reads the state from the content of a file, which is absent when the file cannot be read. -/
def readProtocolState (allowTamperedLedger : Bool) (input : Option String) : Except LegitimacyError ProtocolState :=
  match input with
  | none => .error (.io ("reading protocol state '" ++ path ++ "'"))
  | some input =>
    match (text.read input).bind StateJson.protocolState.decode with
    | none => .error (.json ("protocol state '" ++ path ++ "'"))
    | some state =>
      match state.validateWithOptions host allowTamperedLedger with
      | .error failure => .error (.invalidInput ("protocol state '" ++ path ++ "': " ++ describe failure))
      | .ok () => .ok state

variable {host text describe path}

open ExceptRun

theorem validateLedger_tampered {ledger : ProtocolLedger} (valid : validateLedger host ledger false = .ok ()) :
    validateLedger host ledger true = .ok () := by
  unfold validateLedger at valid ⊢
  split at valid
  · cases valid
  · split at valid
    · cases valid
    · rename_i whole
      rw [if_neg whole]
      exact valid

theorem validate_tampered {state : ProtocolState} (valid : state.validate host = .ok ()) (allowTamperedLedger : Bool) :
    state.validateWithOptions host allowTamperedLedger = .ok () := by
  cases allowTamperedLedger with
  | false => exact valid
  | true =>
    cases state with
    | live monitorSession ledger declaration =>
      obtain ⟨⟨⟩, basics, rest⟩ := bind_eq_ok.1 valid
      obtain ⟨⟨⟩, session, entries⟩ := bind_eq_ok.1 rest
      exact bind_eq_ok.2 ⟨(), basics, bind_eq_ok.2 ⟨(), session, validateLedger_tampered entries⟩⟩
    | supervised intervention monitorSession ledger declaration =>
      obtain ⟨⟨⟩, basics, rest⟩ := bind_eq_ok.1 valid
      obtain ⟨⟨⟩, session, rest⟩ := bind_eq_ok.1 rest
      obtain ⟨⟨⟩, entries, rest⟩ := bind_eq_ok.1 rest
      exact bind_eq_ok.2 ⟨(), basics, bind_eq_ok.2 ⟨(), session, bind_eq_ok.2 ⟨(), validateLedger_tampered entries, rest⟩⟩⟩
    | drifted driftReport monitorSession ledger declaration =>
      obtain ⟨⟨⟩, basics, rest⟩ := bind_eq_ok.1 valid
      obtain ⟨⟨⟩, session, rest⟩ := bind_eq_ok.1 rest
      obtain ⟨⟨⟩, entries, rest⟩ := bind_eq_ok.1 rest
      exact bind_eq_ok.2 ⟨(), basics, bind_eq_ok.2 ⟨(), session, bind_eq_ok.2 ⟨(), validateLedger_tampered entries, rest⟩⟩⟩
    | _ => exact valid

theorem readProtocolState_written {state : ProtocolState} (valid : state.validate host = .ok ()) (fits : StateJson.protocolState.Fits state)
    (keeps : text.Keeps (StateJson.protocolState.encode state)) (allowTamperedLedger : Bool) :
    readProtocolState host text describe path allowTamperedLedger (some (writeProtocolState text state)) = .ok state := by
  have writable := StateJson.protocolState.writable state fits
  have shallow := (StateJson.protocolState.shallow state).trans StateJson.protocolState_depth
  have read := keeps writable shallow
  unfold readProtocolState writeProtocolState
  simp only [read, Option.bind_some, StateJson.protocolState.decode_encode state fits, validate_tampered valid]

end Protocol

end Legitimacy
