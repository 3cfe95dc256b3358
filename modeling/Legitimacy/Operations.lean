import Legitimacy.Violations

namespace Legitimacy.Protocol

open ExceptRun

section

variable {host : ProtocolHost} {state next : ProtocolState}

variable {now : Except LegitimacyError String}

theorem declareWithMetadata_eq_ok {graph : GovernanceGraph} {sacrifices : List DeclaredSacrifice} {graphName graphVersion : String}
    (declared : declareWithMetadata host graph sacrifices graphName graphVersion now = .ok next) :
    ∃ evaluation declaration, evaluateGraph host.regexes graph (syntheticClaims graph) = .ok evaluation ∧
      (∀ sacrifice ∈ sacrifices, ∃ violation, evaluation.violations[sacrifice.property.asStr]? = some violation) ∧
      declaration.graph = graph ∧ declaration.sacrifices = sacrifices ∧ next = .declared graph sacrifices declaration := by
  obtain ⟨evaluation, evaluated, declared⟩ := bind_eq_ok.1 declared
  obtain ⟨⟨⟩, phantoms, declared⟩ := bind_eq_ok.1 declared
  obtain ⟨timestamp, -, made⟩ := bind_eq_ok.1 declared
  obtain rfl := Except.ok.inj made
  refine ⟨evaluation, _, evaluated, fun sacrifice member => ?_, rfl, rfl, rfl⟩
  have violated := forM_eq_ok.1 phantoms sacrifice member
  split at violated
  · exact mem_iff_lookup.1 (Std.ExtTreeMap.mem_iff_contains.2 ‹_›)
  · cases violated

theorem compile_eq_ok (compiled : compile host state now = .ok next) :
    ∃ graph sacrifices declaration evaluation compiledGraph, state = .declared graph sacrifices declaration ∧
      evaluateGraph host.regexes graph (syntheticClaims graph) = .ok evaluation ∧
      (evaluation.violations.keys.filter fun property =>
        !(propertyNames (sacrifices.map (·.property))).contains property).filterMap propertyFromStr = [] ∧
      compiledGraph.graph = graph ∧ compiledGraph.axiomVerdicts = evaluation.axiomVerdicts ∧
      compiledGraph.strategyproofness = evaluation.strategyproofness ∧
      compiledGraph.compiledRuleHash = canonicalCompiledRuleHash host graph evaluation.axiomVerdicts evaluation.strategyproofness ∧
      next = .compiled compiledGraph (sacrifices.map (sacrificeCertificate evaluation.violations)) declaration := by
  obtain ⟨⟨⟩, -, compiled⟩ := bind_eq_ok.1 compiled
  cases state with
  | declared graph sacrifices declaration =>
    obtain ⟨evaluation, evaluated, compiled⟩ := bind_eq_ok.1 compiled
    dsimp only at compiled
    split at compiled
    · cases compiled
    · rename_i sacrificed
      obtain ⟨compiledAt, -, compiled⟩ := bind_eq_ok.1 compiled
      obtain ⟨⟨⟩, -, made⟩ := bind_eq_ok.1 compiled
      obtain rfl := Except.ok.inj made
      exact ⟨graph, sacrifices, declaration, evaluation, _, rfl, evaluated, not_not.1 sacrificed, rfl, rfl, rfl, rfl, rfl⟩
  | _ => cases compiled

theorem measure_eq_ok {representativeClaims : List GovernanceClaim} (measured : measure host state representativeClaims = .ok next) :
    ∃ riskReport factorExposure compiledGraph sacrificeCerts declaration, state = .compiled compiledGraph sacrificeCerts declaration ∧
      next = .measured riskReport factorExposure compiledGraph sacrificeCerts declaration representativeClaims := by
  obtain ⟨⟨⟩, -, measured⟩ := bind_eq_ok.1 measured
  cases state with
  | compiled compiledGraph sacrificeCerts declaration =>
    obtain ⟨evaluation, -, measured⟩ := bind_eq_ok.1 measured
    obtain ⟨⟨⟩, -, made⟩ := bind_eq_ok.1 measured
    obtain rfl := Except.ok.inj made
    exact ⟨_, _, compiledGraph, sacrificeCerts, declaration, rfl, rfl⟩
  | _ => cases measured

theorem activate_eq_ok {monitorConfig : MonitorConfig} (activated : activate host state monitorConfig = .ok next) :
    ∃ riskReport factorExposure compiledGraph sacrificeCerts declaration representativeClaims intervalSeconds,
      state = .measured riskReport factorExposure compiledGraph sacrificeCerts declaration representativeClaims ∧
      next = .live ⟨compiledGraph, sacrificeCerts, nonSacrificedMonitoringProperties sacrificeCerts, representativeClaims,
        intervalSeconds, monitorConfig⟩ emptyLedger declaration := by
  obtain ⟨⟨⟩, -, activated⟩ := bind_eq_ok.1 activated
  cases state with
  | measured riskReport factorExposure compiledGraph sacrificeCerts declaration representativeClaims =>
    obtain ⟨⟨⟩, -, made⟩ := bind_eq_ok.1 activated
    obtain rfl := Except.ok.inj made
    exact ⟨riskReport, factorExposure, compiledGraph, sacrificeCerts, declaration, representativeClaims, _, rfl, rfl⟩
  | _ => cases activated

theorem checkDecision_eq_ok {claim : GovernanceClaim} {order : HashOrder}
    {issued : PromotionCertificate} (checked : checkDecision host state claim order now = .ok (next, issued)) :
    ∃ monitorSession ledger declaration representativeClaims alerts, state = .live monitorSession ledger declaration ∧
      issued.prevCertHash = ledger.headHash ∧
      next = .live { monitorSession with representativeClaims := representativeClaims }
        ⟨ledger.certificates ++ [issued], ledger.driftAlerts ++ alerts, some (certificateHash host issued)⟩ declaration := by
  obtain ⟨⟨⟩, -, checked⟩ := bind_eq_ok.1 checked
  cases state with
  | live monitorSession ledger declaration =>
    obtain ⟨traversal, -, checked⟩ := bind_eq_ok.1 checked
    dsimp only at checked
    split at checked
    · cases checked
    · obtain ⟨timestamp, -, checked⟩ := bind_eq_ok.1 checked
      obtain ⟨alerts, -, checked⟩ := bind_eq_ok.1 checked
      obtain ⟨⟨⟩, -, made⟩ := bind_eq_ok.1 checked
      obtain ⟨rfl, rfl⟩ := Prod.mk.inj (Except.ok.inj made)
      exact ⟨monitorSession, ledger, declaration, _, alerts, rfl, rfl, rfl⟩
  | _ => cases checked

theorem reportDrift_eq_ok {violation : GovernanceDriftAlert} (reported : reportDrift host state violation = .ok next) :
    ∃ monitorSession ledger declaration, state = .live monitorSession ledger declaration ∧
      next = .drifted violation monitorSession { ledger with driftAlerts := ledger.driftAlerts ++ [violation] } declaration := by
  obtain ⟨⟨⟩, -, reported⟩ := bind_eq_ok.1 reported
  cases state with
  | live monitorSession ledger declaration =>
    obtain ⟨⟨⟩, -, made⟩ := bind_eq_ok.1 reported
    obtain rfl := Except.ok.inj made
    exact ⟨monitorSession, ledger, declaration, rfl, rfl⟩
  | _ => cases reported

theorem supervise_eq_ok {action : SupervisoryAction} {reason : Option String}
    (supervised : supervise host state action reason now = .ok next) :
    ∃ graph monitorSession ledger declaration directive intervention,
      activeOverlay state = .ok (graph, monitorSession, ledger, declaration) ∧ parseDirective host reason = .ok directive ∧
      applySupervisoryAction graph declaration action directive = .ok intervention.overlayGraph ∧
      intervention.overlayGraphHash = canonicalGraphHash host intervention.overlayGraph ∧
      intervention.action = action ∧ intervention.postcondition = action.postcondition ∧
      next = .supervised intervention monitorSession ledger declaration := by
  obtain ⟨⟨⟩, -, supervised⟩ := bind_eq_ok.1 supervised
  obtain ⟨⟨graph, monitorSession, ledger, declaration⟩, active, supervised⟩ := bind_eq_ok.1 supervised
  obtain ⟨directive, parsed, supervised⟩ := bind_eq_ok.1 supervised
  obtain ⟨overlayGraph, applied, supervised⟩ := bind_eq_ok.1 supervised
  obtain ⟨issuedAt, -, supervised⟩ := bind_eq_ok.1 supervised
  obtain ⟨⟨⟩, -, made⟩ := bind_eq_ok.1 supervised
  obtain rfl := Except.ok.inj made
  exact ⟨graph, monitorSession, ledger, declaration, directive, _, active, parsed, applied, rfl, rfl, rfl, rfl⟩

theorem proposeRevision_eq_ok {newGraph : GovernanceGraph} {revisedSacrifices : List DeclaredSacrifice}
    (proposed : proposeRevision host state newGraph revisedSacrifices = .ok next) :
    ∃ driftReport monitorSession ledger declaration, state = .drifted driftReport monitorSession ledger declaration ∧
      next = .recompiling newGraph revisedSacrifices declaration := by
  obtain ⟨⟨⟩, -, proposed⟩ := bind_eq_ok.1 proposed
  cases state with
  | drifted driftReport monitorSession ledger declaration =>
    obtain ⟨⟨⟩, -, made⟩ := bind_eq_ok.1 proposed
    obtain rfl := Except.ok.inj made
    exact ⟨driftReport, monitorSession, ledger, declaration, rfl, rfl⟩
  | _ => cases proposed

theorem recompile_eq_ok {declaredAt compiledAt : Except LegitimacyError String}
    (recompiled : recompile host state declaredAt compiledAt = .ok next) :
    ∃ proposedGraph sacrifices declaration declared, state = .recompiling proposedGraph sacrifices declaration ∧
      declareWithMetadata host proposedGraph sacrifices declaration.graphName declaration.graphVersion declaredAt = .ok declared ∧
      compile host declared compiledAt = .ok next := by
  obtain ⟨⟨⟩, -, recompiled⟩ := bind_eq_ok.1 recompiled
  cases state with
  | recompiling proposedGraph sacrifices declaration =>
    obtain ⟨declared, made, compiled⟩ := bind_eq_ok.1 recompiled
    exact ⟨proposedGraph, sacrifices, declaration, declared, rfl, made, compiled⟩
  | _ => cases recompiled

end

end Legitimacy.Protocol
