import Legitimacy.SpectralGap
import Legitimacy.Overlays

namespace Legitimacy.Protocol

def packageVersion : String := "1.1.1"

structure GraphViolation where
  sourceAxiom : String
  actualMagnitude : Float
  witness : String

structure GraphEvaluation where
  axiomVerdicts : List Verdict
  strategyproofness : StrategyproofnessVerdict
  /-- Keyed by the name of the violated property. -/
  violations : BTreeMap String GraphViolation

def graphFields (claims : List GovernanceClaim) : List String :=
  let fields : BTreeSet String := claims.foldl (fun fields claim =>
    claim.metrics.keys.foldl (fun fields field => fields.insert field) fields) (Std.ExtTreeSet.ofList ["strength"] compare)
  fields.toList

def fieldDelta (field : String) : Float := if field = "strength" then 0.1 else 1

def graphShocks (claims : List GovernanceClaim) : List BinaryShock := (graphFields claims).map fun field => ⟨field, fieldDelta field⟩

def graphDeltas (claims : List GovernanceClaim) : List BinaryDelta := (graphFields claims).map fun field => ⟨field, fieldDelta field⟩

def requireProtocolKernelVerdict : AxiomVerdict → Except ProtocolError Verdict
  | .skipped kernelAxiom reason => .error (.skippedKernelCheck kernelAxiom.graphAxiomName reason)
  | .pass kernelAxiom perturbationsTested => .ok (.admissible kernelAxiom.graphAxiomName perturbationsTested)
  | .fail kernelAxiom _ witness => .ok (.rejected kernelAxiom.graphAxiomName witness)

def propertyForAxiom (axiomName : String) : Option GovernanceProperty :=
  if axiomName = "graph consistency" then some .consistency
  else if axiomName = "graph solidarity" then some .solidarity
  else if axiomName = "graph monotonicity" then some .monotonicity
  else if axiomName = "graph strategyproofness" then some .strategyproofness
  else if axiomName = "graph certifiability" then some .certifiability
  else if axiomName = "graph observable determinacy" then some .observableDeterminacy
  else if axiomName = "graph corrigibility" then some .corrigibility
  else if axiomName = "graph compositional safety" then some .compositionalSafety
  else if axiomName = "graph nonvacuity" then some .nonVacuous
  else none

def propertyFromStr (value : String) : Option GovernanceProperty :=
  if value = "consistency" then some .consistency
  else if value = "solidarity" then some .solidarity
  else if value = "monotonicity" then some .monotonicity
  else if value = "strategyproofness" then some .strategyproofness
  else if value = "certifiability" then some .certifiability
  else if value = "observable_determinacy" then some .observableDeterminacy
  else if value = "corrigibility" then some .corrigibility
  else if value = "compositional_safety" then some .compositionalSafety
  else if value = "non_vacuous" ∨ value = "nonvacuous" then some .nonVacuous
  else none

/-- The largest change of a share between the two allocations of a counterexample. -/
def counterexampleMagnitude (counterexample : Counterexample) : Float :=
  counterexample.originalAllocation.allocation.toList.foldl (fun magnitude (claimantId, before) =>
    match counterexample.perturbedAllocation.allocation[claimantId]? with
    | some after => Spectral.maxFloat magnitude (before - after).abs
    | none => magnitude) 0

def recordViolation (violations : BTreeMap String GraphViolation) : Verdict → BTreeMap String GraphViolation
  | .admissible .. => violations
  | .rejected axiomName counterexample =>
    match propertyForAxiom axiomName with
    | some property =>
      violations.insert property.asStr ⟨axiomName, counterexampleMagnitude counterexample, counterexample.description⟩
    | none => violations

def recordManipulation (violations : BTreeMap String GraphViolation) : Option StrategyproofnessWitness → BTreeMap String GraphViolation
  | none => violations
  | some witness =>
    violations.insert GovernanceProperty.strategyproofness.asStr ⟨"graph strategyproofness",
      (witness.manipulatedAlloc - witness.trueAlloc).abs,
      "claimant '" ++ witness.claimant ++ "' can improve from " ++ FloatText.display witness.trueAlloc ++ " to " ++
        FloatText.display witness.manipulatedAlloc⟩

def evaluateGraph (regexes : RegexEngine) (graph : GovernanceGraph) (claims : List GovernanceClaim) :
    Except ProtocolError GraphEvaluation := do
  let consistency ← lift (Diagnostics.checkGraphConsistency regexes graph claims)
  let solidarity ← lift (Diagnostics.checkGraphSolidarity regexes graph claims (graphShocks claims))
  let monotonicity ← lift (Diagnostics.monotonicityCheckViaPolaritySchema regexes graph claims (graphDeltas claims)
    Diagnostics.auditMetricPolaritySchema)
  let certifiability ← lift (checkGraphCertifiability regexes graph claims)
  let certifiability ← requireProtocolKernelVerdict certifiability
  let observable ← lift (Observable.checkGraphObservableDeterminacy regexes graph claims)
  let observable ← requireProtocolKernelVerdict observable
  let corrigibility ← lift (checkGraphCorrigibility regexes graph claims)
  let corrigibility ← requireProtocolKernelVerdict corrigibility
  let compositionalSafety ← lift (checkGraphCompositionalSafety regexes graph claims)
  let compositionalSafety ← requireProtocolKernelVerdict compositionalSafety
  let nonvacuity ← lift (checkGraphNonvacuity regexes graph claims)
  let nonvacuity ← requireProtocolKernelVerdict nonvacuity
  let strategyproofness ← lift (checkGraphStrategyproofnessVerdict regexes graph claims)
  let axiomVerdicts := [consistency, solidarity, monotonicity, certifiability, observable, corrigibility, compositionalSafety, nonvacuity]
  .ok {
    axiomVerdicts := axiomVerdicts
    strategyproofness := strategyproofness
    violations := recordManipulation (axiomVerdicts.foldl recordViolation ∅) strategyproofness.witness }

def declareWithMetadata (host : ProtocolHost) (graph : GovernanceGraph) (sacrifices : List DeclaredSacrifice)
    (graphName graphVersion : String) (now : Except LegitimacyError String) : Except ProtocolError ProtocolState := do
  let claims := syntheticClaims graph
  let evaluation ← evaluateGraph host.regexes graph claims
  sacrifices.forM fun sacrifice =>
    if evaluation.violations.contains sacrifice.property.asStr then .ok () else .error (.phantomSacrifice sacrifice.property.asStr)
  let timestamp ← lift now
  .ok (.declared graph sacrifices {
    protocolVersion := packageVersion
    timestamp := timestamp
    graphName := graphName
    graphVersion := graphVersion
    graph := graph
    sacrifices := sacrifices
    spectralGap := Spectral.spectralGap graph
    cvBound := Spectral.consistencyVulnerabilityBound graph claims })

def declare (host : ProtocolHost) (graph : GovernanceGraph) (sacrifices : List DeclaredSacrifice) (now : Except LegitimacyError String) :
    Except ProtocolError ProtocolState :=
  declareWithMetadata host graph sacrifices "spectral-governance" packageVersion now

def sacrificeCertificate (violations : BTreeMap String GraphViolation) (sacrifice : DeclaredSacrifice) : SacrificeCertificate :=
  match violations[sacrifice.property.asStr]? with
  | some violation => {
      property := sacrifice.property
      impactBound := violation.actualMagnitude
      sourceAxiom := violation.sourceAxiom
      witness := violation.witness
      monitoringSpecs := sacrifice.monitoringSpecs.map fun spec => { spec with threshold := violation.actualMagnitude } }
  | none => {
      property := sacrifice.property
      impactBound := 0
      sourceAxiom := sacrifice.property.asStr
      witness := sacrifice.justification
      monitoringSpecs := sacrifice.monitoringSpecs }

def compile (host : ProtocolHost) (declared : ProtocolState) (now : Except LegitimacyError String) :
    Except ProtocolError ProtocolState := do
  declared.validate host
  match declared with
  | .declared graph sacrifices declaration => do
    let evaluation ← evaluateGraph host.regexes graph (syntheticClaims graph)
    let declaredProperties := propertyNames (sacrifices.map (·.property))
    let unsacrificed := (evaluation.violations.keys.filter fun property => !declaredProperties.contains property).filterMap propertyFromStr
    if unsacrificed ≠ [] then .error (.unsacrificedViolations unsacrificed)
    else do
      let compiledAt ← lift now
      let state : ProtocolState := .compiled {
        name := declaration.graphName
        version := declaration.graphVersion
        graph := graph
        axiomVerdicts := evaluation.axiomVerdicts
        strategyproofness := evaluation.strategyproofness
        compiledRuleHash := canonicalCompiledRuleHash host graph evaluation.axiomVerdicts evaluation.strategyproofness
        compiledAt := compiledAt } (sacrifices.map (sacrificeCertificate evaluation.violations)) declaration
      state.validate host
      .ok state
  | other => .error (.invalidStateTransition "declared" other.name)

def rejectedExposure (verdicts : List Verdict) (axiomName : String) : Float :=
  if verdicts.any fun verdict => match verdict with
    | .rejected found _ => found == axiomName
    | .admissible .. => false
  then 1 else 0

def measure (host : ProtocolHost) (compiled : ProtocolState) (representativeClaims : List GovernanceClaim) :
    Except ProtocolError ProtocolState := do
  compiled.validate host
  match compiled with
  | .compiled compiledGraph sacrificeCerts declaration => do
    let evaluation ← evaluateGraph host.regexes compiledGraph.graph representativeClaims
    let factorExposure : GovernanceFactorExposure := {
      consistency := rejectedExposure evaluation.axiomVerdicts "graph consistency"
      solidarity := rejectedExposure evaluation.axiomVerdicts "graph solidarity"
      monotonicity := rejectedExposure evaluation.axiomVerdicts "graph monotonicity"
      strategyproofness := evaluation.strategyproofness.exposure
      nonvacuity := rejectedExposure evaluation.axiomVerdicts "graph nonvacuity" }
    let riskReport : GovernanceRiskReport := {
      factorExposure := factorExposure
      spectralGap := Spectral.spectralGap compiledGraph.graph
      cvBound := Spectral.consistencyVulnerabilityBound compiledGraph.graph representativeClaims
      localizabilityBound := Spectral.localizabilityBound compiledGraph.graph representativeClaims }
    let state : ProtocolState := .measured riskReport factorExposure compiledGraph sacrificeCerts declaration representativeClaims
    state.validate host
    .ok state
  | other => .error (.invalidStateTransition "compiled" other.name)

def randomizedInterval (config : MonitorConfig) (spectralGap exposure : Float) : Nat :=
  if minInterval config = maxInterval config then minInterval config
  else
    let normalized := (spectralGap + exposure + config.seed.toFloat).toBits.toNat
    minInterval config + normalized % (maxInterval config - minInterval config + 1)

def emptyLedger : ProtocolLedger := ⟨[], [], none⟩

def activate (host : ProtocolHost) (measured : ProtocolState) (monitorConfig : MonitorConfig) : Except ProtocolError ProtocolState := do
  measured.validate host
  match measured with
  | .measured riskReport factorExposure compiledGraph sacrificeCerts declaration representativeClaims => do
    let state : ProtocolState := .live {
      compiledGraph := compiledGraph
      sacrificeCerts := sacrificeCerts
      monitoredProperties := nonSacrificedMonitoringProperties sacrificeCerts
      representativeClaims := representativeClaims
      intervalSeconds := randomizedInterval monitorConfig riskReport.spectralGap factorExposure.consistency
      monitorConfig := monitorConfig } emptyLedger declaration
    state.validate host
    .ok state
  | other => .error (.invalidStateTransition "measured" other.name)

def mergeRepresentativeClaims (representativeClaims : List GovernanceClaim) (claim : GovernanceClaim) : List GovernanceClaim :=
  (representativeClaims.filter fun existing => existing.claimantId ≠ claim.claimantId) ++ [claim]

/-- The order in which a `HashMap` of violations is walked. -/
structure HashOrder where
  walk : List (String × GraphViolation) → List (String × GraphViolation)
  walk_perm : ∀ entries, (walk entries).Perm entries

def driftAlert (sacrificeCerts : List SacrificeCertificate) (property : String) (violation : GraphViolation) :
    Except ProtocolError (Option GovernanceDriftAlert) :=
  -- collecting into the map by property keeps the last certificate of a property
  let cert := sacrificeCerts.reverse.find? fun cert => cert.property.asStr = property
  let declaredBound := (cert.map (·.impactBound)).getD 0
  if declaredBound + epsilon < violation.actualMagnitude then
    match propertyFromStr property with
    | none => .error (.verdict (.invalidInput ("detect_drift_alerts: unknown governance property '" ++ property ++ "'")))
    | some known => .ok (some {
        alertType := if cert.isSome then "bound_breach" else "undeclared_violation"
        property := known
        declaredBound := declaredBound
        actualMagnitude := violation.actualMagnitude
        evidence := Std.ExtTreeMap.ofList [("witness", violation.witness)] compare
        recommendedAction := "propose revision and recompile" })
  else .ok none

def detectDriftAlerts (regexes : RegexEngine) (monitorSession : MonitorSession) (claims : List GovernanceClaim) (order : HashOrder) :
    Except ProtocolError (List GovernanceDriftAlert) := do
  let evaluation ← evaluateGraph regexes monitorSession.compiledGraph.graph claims
  let alerts ← (order.walk evaluation.violations.toList).mapM fun (property, violation) =>
    driftAlert monitorSession.sacrificeCerts property violation
  .ok (alerts.filterMap id)

def checkDecision (host : ProtocolHost) (live : ProtocolState) (claim : GovernanceClaim) (order : HashOrder)
    (now : Except LegitimacyError String) : Except ProtocolError (ProtocolState × PromotionCertificate) := do
  live.validate host
  match live with
  | .live monitorSession ledger declaration => do
    let claims := mergeRepresentativeClaims monitorSession.representativeClaims claim
    let traversal ← lift (traverse host.regexes monitorSession.compiledGraph.graph claims)
    match traversal.finalDecisions[claim.claimantId]? with
    | none => .error (.missingDecision claim.claimantId)
    | some decision => do
      let timestamp ← lift now
      let certificate : PromotionCertificate := {
        ruleName := monitorSession.compiledGraph.name
        claimantId := claim.claimantId
        decision := decision
        outcomeVerified := true
        evidence := Std.ExtTreeMap.ofList [
          ("graph_nodes", toString monitorSession.compiledGraph.graph.nodes.size),
          ("graph_edges", toString monitorSession.compiledGraph.graph.edges.length),
          ("interval_seconds", toString monitorSession.intervalSeconds)] compare
        compiledRuleHash := monitorSession.compiledGraph.compiledRuleHash
        prevCertHash := ledger.headHash
        timestamp := timestamp }
      let alerts ← detectDriftAlerts host.regexes monitorSession claims order
      let state : ProtocolState := .live { monitorSession with representativeClaims := claims } {
        certificates := ledger.certificates ++ [certificate]
        driftAlerts := ledger.driftAlerts ++ alerts
        headHash := some (certificateHash host certificate) } declaration
      state.validate host
      .ok (state, certificate)
  | other => .error (.invalidStateTransition "live" other.name)

def reportDrift (host : ProtocolHost) (live : ProtocolState) (violation : GovernanceDriftAlert) : Except ProtocolError ProtocolState := do
  live.validate host
  match live with
  | .live monitorSession ledger declaration => do
    let state : ProtocolState :=
      .drifted violation monitorSession { ledger with driftAlerts := ledger.driftAlerts ++ [violation] } declaration
    state.validate host
    .ok state
  | other => .error (.invalidStateTransition "live" other.name)

def proposeRevision (host : ProtocolHost) (drifted : ProtocolState) (newGraph : GovernanceGraph)
    (revisedSacrifices : List DeclaredSacrifice) : Except ProtocolError ProtocolState := do
  drifted.validate host
  match drifted with
  | .drifted _ _ _ declaration => do
    let state : ProtocolState := .recompiling newGraph revisedSacrifices declaration
    state.validate host
    .ok state
  | other => .error (.invalidStateTransition "drifted" other.name)

def recompile (host : ProtocolHost) (recompiling : ProtocolState) (declaredAt compiledAt : Except LegitimacyError String) :
    Except ProtocolError ProtocolState := do
  recompiling.validate host
  match recompiling with
  | .recompiling proposedGraph sacrifices declaration => do
    let declared ← declareWithMetadata host proposedGraph sacrifices declaration.graphName declaration.graphVersion declaredAt
    compile host declared compiledAt
  | other => .error (.invalidStateTransition "recompiling" other.name)

/-- The nine operations with their arguments, the clock's answers and the hash order included. -/
inductive Operation where
  | declare (graph : GovernanceGraph) (sacrifices : List DeclaredSacrifice) (now : Except LegitimacyError String)
  | compile (now : Except LegitimacyError String)
  | measure (representativeClaims : List GovernanceClaim)
  | activate (monitorConfig : MonitorConfig)
  | checkDecision (claim : GovernanceClaim) (order : HashOrder) (now : Except LegitimacyError String)
  | reportDrift (violation : GovernanceDriftAlert)
  | supervise (action : SupervisoryAction) (reason : Option String) (now : Except LegitimacyError String)
  | proposeRevision (newGraph : GovernanceGraph) (revisedSacrifices : List DeclaredSacrifice)
  | recompile (declaredAt compiledAt : Except LegitimacyError String)

def step (host : ProtocolHost) (state : ProtocolState) : Operation → Except ProtocolError ProtocolState
  | .declare graph sacrifices now => Protocol.declare host graph sacrifices now
  | .compile now => Protocol.compile host state now
  | .measure representativeClaims => Protocol.measure host state representativeClaims
  | .activate monitorConfig => Protocol.activate host state monitorConfig
  | .checkDecision claim order now => do
    let (next, _) ← Protocol.checkDecision host state claim order now
    .ok next
  | .reportDrift violation => Protocol.reportDrift host state violation
  | .supervise action reason now => Protocol.supervise host state action reason now
  | .proposeRevision newGraph revisedSacrifices => Protocol.proposeRevision host state newGraph revisedSacrifices
  | .recompile declaredAt compiledAt => Protocol.recompile host state declaredAt compiledAt

def run (host : ProtocolHost) (operations : List Operation) : Except ProtocolError ProtocolState :=
  operations.foldlM (step host) .undeclared

end Legitimacy.Protocol
