import Legitimacy.GraphChecks
import Legitimacy.SyntheticClaims

namespace Legitimacy

inductive GovernanceProperty where
  | consistency
  | solidarity
  | monotonicity
  | strategyproofness
  | certifiability
  | observableDeterminacy
  | corrigibility
  | compositionalSafety
  | nonVacuous
deriving DecidableEq

def GovernanceProperty.asStr : GovernanceProperty → String
  | .consistency => "consistency"
  | .solidarity => "solidarity"
  | .monotonicity => "monotonicity"
  | .strategyproofness => "strategyproofness"
  | .certifiability => "certifiability"
  | .observableDeterminacy => "observable_determinacy"
  | .corrigibility => "corrigibility"
  | .compositionalSafety => "compositional_safety"
  | .nonVacuous => "non_vacuous"

theorem GovernanceProperty.asStr_injective {left right : GovernanceProperty} (same : left.asStr = right.asStr) : left = right := by
  cases left <;> cases right <;> first | rfl | exact absurd same (by decide)

structure MonitoringSpec where
  metric : String
  threshold : Float
  frequencySeconds : Nat
  alertChannel : String
deriving BEq

structure GovernanceFactorExposure where
  consistency : Float
  solidarity : Float
  monotonicity : Float
  strategyproofness : Float
  nonvacuity : Float
deriving BEq

namespace Protocol

structure SacrificeDeclaration where
  property : GovernanceProperty
  justification : String
  monitoringSpecs : List MonitoringSpec
deriving BEq

abbrev DeclaredSacrifice : Type := SacrificeDeclaration

structure SacrificeCertificate where
  property : GovernanceProperty
  impactBound : Float
  sourceAxiom : String
  witness : String
  monitoringSpecs : List MonitoringSpec

structure CompiledGraph where
  name : String
  version : String
  graph : GovernanceGraph
  axiomVerdicts : List Verdict
  strategyproofness : StrategyproofnessVerdict
  compiledRuleHash : String
  compiledAt : String

structure MonitorConfig where
  minIntervalSeconds : Nat
  maxIntervalSeconds : Nat
  seed : Nat

structure MonitorSession where
  compiledGraph : CompiledGraph
  sacrificeCerts : List SacrificeCertificate
  monitoredProperties : List GovernanceProperty
  representativeClaims : List GovernanceClaim
  intervalSeconds : Nat
  monitorConfig : MonitorConfig

structure GovernanceDeclaration where
  protocolVersion : String
  timestamp : String
  graphName : String
  graphVersion : String
  graph : GovernanceGraph
  sacrifices : List DeclaredSacrifice
  spectralGap : Float
  cvBound : Float

structure PromotionCertificate where
  ruleName : String
  claimantId : String
  decision : Decision
  outcomeVerified : Bool
  evidence : BTreeMap String String
  compiledRuleHash : String
  prevCertHash : Option String
  timestamp : String

structure GovernanceDriftAlert where
  alertType : String
  property : GovernanceProperty
  declaredBound : Float
  actualMagnitude : Float
  evidence : BTreeMap String String
  recommendedAction : String
deriving BEq

structure GovernanceRiskReport where
  factorExposure : GovernanceFactorExposure
  spectralGap : Float
  cvBound : Float
  localizabilityBound : Float

structure ProtocolLedger where
  certificates : List PromotionCertificate
  driftAlerts : List GovernanceDriftAlert
  headHash : Option String

inductive SupervisoryAction where
  | pause
  | deny
  | sandbox
  | degrade
  | rollback
  | reroute
  | stop
deriving DecidableEq

inductive SupervisoryPostcondition where
  | claimEvaluationPaused
  | universalDeny
  | governanceGraphSandboxed
  | governanceDegraded
  | priorGovernanceStateRestored
  | claimsRerouted
  | permanentlyShutdown
deriving DecidableEq

def SupervisoryAction.postcondition : SupervisoryAction → SupervisoryPostcondition
  | .pause => .claimEvaluationPaused
  | .deny => .universalDeny
  | .sandbox => .governanceGraphSandboxed
  | .degrade => .governanceDegraded
  | .rollback => .priorGovernanceStateRestored
  | .reroute => .claimsRerouted
  | .stop => .permanentlyShutdown

structure SupervisoryIntervention where
  action : SupervisoryAction
  postcondition : SupervisoryPostcondition
  issuedAt : String
  overlayGraph : GovernanceGraph
  overlayGraphHash : String
  reason : Option String

inductive ProtocolState where
  | undeclared
  | declared (graph : GovernanceGraph) (sacrifices : List DeclaredSacrifice) (declaration : GovernanceDeclaration)
  | compiled (compiledGraph : CompiledGraph) (sacrificeCerts : List SacrificeCertificate) (declaration : GovernanceDeclaration)
  | measured (riskReport : GovernanceRiskReport) (factorExposure : GovernanceFactorExposure) (compiledGraph : CompiledGraph)
      (sacrificeCerts : List SacrificeCertificate) (declaration : GovernanceDeclaration) (representativeClaims : List GovernanceClaim)
  | live (monitorSession : MonitorSession) (ledger : ProtocolLedger) (declaration : GovernanceDeclaration)
  | supervised (intervention : SupervisoryIntervention) (monitorSession : MonitorSession) (ledger : ProtocolLedger)
      (declaration : GovernanceDeclaration)
  | drifted (driftReport : GovernanceDriftAlert) (monitorSession : MonitorSession) (ledger : ProtocolLedger)
      (declaration : GovernanceDeclaration)
  | recompiling (proposedGraph : GovernanceGraph) (sacrifices : List DeclaredSacrifice) (declaration : GovernanceDeclaration)

def ProtocolState.name : ProtocolState → String
  | .undeclared => "undeclared"
  | .declared .. => "declared"
  | .compiled .. => "compiled"
  | .measured .. => "measured"
  | .live .. => "live"
  | .supervised .. => "supervised"
  | .drifted .. => "drifted"
  | .recompiling .. => "recompiling"

inductive ProtocolError where
  | verdict (source : LegitimacyError)
  | malformedSupervisoryDirectiveJson (reason : String)
  | malformedSupervisoryDirectiveNodeId (field nodeId : String) (reason : LegitimacyError)
  | unknownSupervisoryDirectiveNodeId (field nodeId : String)
  | invalidStateTransition (expected actual : String)
  | unsacrificedViolations (properties : List GovernanceProperty)
  | phantomSacrifice (property : String)
  | missingDecision (claimantId : String)
  | skippedKernelCheck (axiomName reason : String)
  | malformedState (reason : String)

def lift {α : Type} (run : Except LegitimacyError α) : Except ProtocolError α := run.mapError .verdict

theorem lift_eq_ok {α : Type} {run : Except LegitimacyError α} {value : α} : lift run = .ok value ↔ run = .ok value := by
  cases run <;> simp [lift, Except.mapError]

structure SupervisoryDirective where
  sandboxNodes : List String
  degradationFactor : Option Float
  rerouteTo : List String

/-- What the protocol hashes; none of these payloads can fail to serialize. -/
inductive HashPayload where
  | rule (graph : GovernanceGraph) (claims : List GovernanceClaim) (axiomVerdicts : List Verdict)
      (strategyproofness : StrategyproofnessVerdict)
  | graph (graph : GovernanceGraph) (claims : List GovernanceClaim)
  | certificate (certificate : PromotionCertificate)

/-- The foreign parts: the regex crate, SHA-256 over the JSON of a payload, and the JSON reader of a directive. -/
structure ProtocolHost where
  regexes : RegexEngine
  stableHash : HashPayload → String
  parseJson : String → Except String SupervisoryDirective

section

variable (host : ProtocolHost)

def canonicalCompiledRuleHash (graph : GovernanceGraph) (axiomVerdicts : List Verdict) (strategyproofness : StrategyproofnessVerdict) :
    String :=
  host.stableHash (.rule graph (syntheticClaims graph) axiomVerdicts strategyproofness)

def canonicalGraphHash (graph : GovernanceGraph) : String := host.stableHash (.graph graph (syntheticClaims graph))

def defaultMonitoredProperties : List GovernanceProperty :=
  [.consistency, .solidarity, .monotonicity, .strategyproofness, .certifiability, .observableDeterminacy, .corrigibility,
    .compositionalSafety, .nonVacuous]

def propertyNames (properties : List GovernanceProperty) : BTreeSet String :=
  properties.foldl (fun names property => names.insert property.asStr) ∅

def nonSacrificedMonitoringProperties (sacrificeCerts : List SacrificeCertificate) : List GovernanceProperty :=
  let sacrificed := propertyNames (sacrificeCerts.map (·.property))
  defaultMonitoredProperties.filter fun property => !sacrificed.contains property.asStr

def malformedState {α : Type} (reason : String) : Except ProtocolError α := .error (.malformedState reason)

def require (condition : Bool) (reason : String) : Except ProtocolError Unit := if condition then .ok () else malformedState reason

def isBound (value : Float) : Bool := value.isFinite && !decide (value < 0)

def validateDeclarationBasics (declaration : GovernanceDeclaration) : Except ProtocolError Unit := do
  require (!isBlank declaration.graphName) "declaration graph_name must be non-empty"
  require (!isBlank declaration.graphVersion) "declaration graph_version must be non-empty"
  require (isBound declaration.spectralGap) "declaration spectral_gap must be finite and non-negative"
  require (isBound declaration.cvBound) "declaration cv_bound must be finite and non-negative"

def verdictAxiom : Verdict → String
  | .admissible axiomName _ => axiomName
  | .rejected axiomName _ => axiomName

def requiredAxioms : List String :=
  ["graph consistency", "graph solidarity", "graph monotonicity", "graph certifiability", "graph observable determinacy",
    "graph corrigibility", "graph compositional safety", "graph nonvacuity"]

def validateCompiledGraph (compiledGraph : CompiledGraph) (declaration : GovernanceDeclaration) (requireDeclaredGraphMatch : Bool) :
    Except ProtocolError Unit := do
  require (compiledGraph.name == declaration.graphName)
    ("compiled graph name '" ++ compiledGraph.name ++ "' does not match declaration '" ++ declaration.graphName ++ "'")
  require (compiledGraph.version == declaration.graphVersion)
    ("compiled graph version '" ++ compiledGraph.version ++ "' does not match declaration '" ++ declaration.graphVersion ++ "'")
  require (!requireDeclaredGraphMatch || compiledGraph.graph == declaration.graph)
    "compiled graph payload does not match declaration graph"
  require (compiledGraph.compiledRuleHash ==
      canonicalCompiledRuleHash host compiledGraph.graph compiledGraph.axiomVerdicts compiledGraph.strategyproofness)
    "compiled_rule_hash does not match the canonical compiled graph hash"
  let seen := compiledGraph.axiomVerdicts.map verdictAxiom
  require (seen.length == requiredAxioms.length)
    "compiled graph must carry exactly eight non-strategyproof graph axiom verdicts"
  requiredAxioms.forM fun axiomName =>
    require (seen.count axiomName == 1) ("compiled graph verdict set must contain exactly one '" ++ axiomName ++ "' verdict")

def validateSacrificeAlignment (sacrificeCerts : List SacrificeCertificate) (declaredSacrifices : List DeclaredSacrifice) :
    Except ProtocolError Unit := do
  let declared := propertyNames (declaredSacrifices.map (·.property))
  let certified := propertyNames (sacrificeCerts.map (·.property))
  require (declared.toList == certified.toList) "sacrifice certificates do not match declared sacrifice properties"
  require (sacrificeCerts.length == certified.size) "sacrifice certificates must not contain duplicate properties"
  sacrificeCerts.forM fun cert =>
    require (isBound cert.impactBound) ("sacrifice certificate for '" ++ cert.property.asStr ++ "' has invalid impact bound")

def validateMonitoringCoverage (monitoredProperties : List GovernanceProperty) (sacrificeCerts : List SacrificeCertificate) :
    Except ProtocolError Unit := do
  let monitored := propertyNames monitoredProperties
  require (monitored.size == monitoredProperties.length) "monitoring coverage must not contain duplicate properties"
  let missing := (nonSacrificedMonitoringProperties sacrificeCerts).filter fun property => !monitored.contains property.asStr
  require missing.isEmpty ("monitoring coverage missing non-sacrificed properties " ++ debugList (missing.map (·.asStr)))

def minInterval (config : MonitorConfig) : Nat := max config.minIntervalSeconds 1

def maxInterval (config : MonitorConfig) : Nat := max config.maxIntervalSeconds (minInterval config)

def validateMonitorSession (monitorSession : MonitorSession) (declaration : GovernanceDeclaration) (requireDeclaredGraphMatch : Bool) :
    Except ProtocolError Unit := do
  validateCompiledGraph host monitorSession.compiledGraph declaration requireDeclaredGraphMatch
  validateSacrificeAlignment monitorSession.sacrificeCerts declaration.sacrifices
  validateMonitoringCoverage monitorSession.monitoredProperties monitorSession.sacrificeCerts
  let config := monitorSession.monitorConfig
  require (minInterval config ≤ monitorSession.intervalSeconds && monitorSession.intervalSeconds ≤ maxInterval config)
    ("monitor interval " ++ toString monitorSession.intervalSeconds ++ " is outside configured bounds [" ++
      toString (minInterval config) ++ ", " ++ toString (maxInterval config) ++ "]")

def validateSupervisoryIntervention (intervention : SupervisoryIntervention) : Except ProtocolError Unit :=
  require (intervention.overlayGraphHash == canonicalGraphHash host intervention.overlayGraph)
    "supervisory overlay graph hash does not match the canonical graph hash"

def validateDriftAlert (alert : GovernanceDriftAlert) : Except ProtocolError Unit := do
  require (isBound alert.declaredBound) "drift alert declared_bound must be finite and non-negative"
  require (isBound alert.actualMagnitude) "drift alert actual_magnitude must be finite and non-negative"

def certificateHash (certificate : PromotionCertificate) : String := host.stableHash (.certificate certificate)

/-- The hash of the last certificate, or where the chain is broken. -/
def chainTail : Option String → List PromotionCertificate → Except ProtocolError (Option String)
  | prevHash, [] => .ok prevHash
  | prevHash, certificate :: rest =>
    if certificate.prevCertHash ≠ prevHash then malformedState "protocol ledger certificate chain is inconsistent"
    else chainTail (some (certificateHash host certificate)) rest

def validateLedger (ledger : ProtocolLedger) (allowTamperedLedger : Bool) : Except ProtocolError Unit :=
  match chainTail host none ledger.certificates with
  | .error failure => if allowTamperedLedger then .ok () else .error failure
  | .ok prevHash =>
    if ledger.headHash ≠ prevHash then
      if allowTamperedLedger then .ok () else malformedState "protocol ledger head_hash does not match the certificate chain tail"
    else ledger.driftAlerts.forM validateDriftAlert

def validateRiskReport (report : GovernanceRiskReport) : Except ProtocolError Unit := do
  require (isBound report.spectralGap) "risk report spectral_gap must be finite and non-negative"
  require (isBound report.cvBound) "risk report cv_bound must be finite and non-negative"
  require (isBound report.localizabilityBound) "risk report localizability_bound must be finite and non-negative"

def supervisoryActionName : SupervisoryAction → String
  | .pause => "Pause"
  | .deny => "Deny"
  | .sandbox => "Sandbox"
  | .degrade => "Degrade"
  | .rollback => "Rollback"
  | .reroute => "Reroute"
  | .stop => "Stop"

def supervisoryPostconditionName : SupervisoryPostcondition → String
  | .claimEvaluationPaused => "ClaimEvaluationPaused"
  | .universalDeny => "UniversalDeny"
  | .governanceGraphSandboxed => "GovernanceGraphSandboxed"
  | .governanceDegraded => "GovernanceDegraded"
  | .priorGovernanceStateRestored => "PriorGovernanceStateRestored"
  | .claimsRerouted => "ClaimsRerouted"
  | .permanentlyShutdown => "PermanentlyShutdown"

def ProtocolState.validateWithOptions (allowTamperedLedger : Bool) : ProtocolState → Except ProtocolError Unit
  | .undeclared => .ok ()
  | .declared graph sacrifices declaration => do
    validateDeclarationBasics declaration
    require (declaration.graph == graph) "declared state graph does not match declaration graph"
    require (declaration.sacrifices == sacrifices) "declared sacrifices do not match declaration payload"
  | .compiled compiledGraph sacrificeCerts declaration => do
    validateDeclarationBasics declaration
    validateCompiledGraph host compiledGraph declaration true
    validateSacrificeAlignment sacrificeCerts declaration.sacrifices
  | .measured riskReport factorExposure compiledGraph sacrificeCerts declaration _ => do
    validateDeclarationBasics declaration
    validateCompiledGraph host compiledGraph declaration true
    validateSacrificeAlignment sacrificeCerts declaration.sacrifices
    require (factorExposure == riskReport.factorExposure) "measured state factor exposure does not match risk report"
    validateRiskReport riskReport
  | .live monitorSession ledger declaration => do
    validateDeclarationBasics declaration
    validateMonitorSession host monitorSession declaration true
    validateLedger host ledger allowTamperedLedger
  | .supervised intervention monitorSession ledger declaration => do
    validateDeclarationBasics declaration
    validateMonitorSession host monitorSession declaration true
    validateLedger host ledger allowTamperedLedger
    require (intervention.postcondition == intervention.action.postcondition)
      ("supervisory postcondition " ++ supervisoryPostconditionName intervention.postcondition ++ " does not match action " ++
        supervisoryActionName intervention.action)
    validateSupervisoryIntervention host intervention
  | .drifted driftReport monitorSession ledger declaration => do
    validateDeclarationBasics declaration
    validateMonitorSession host monitorSession declaration true
    validateLedger host ledger allowTamperedLedger
    validateDriftAlert driftReport
    require (ledger.driftAlerts.contains driftReport) "drifted state report is not present in the ledger drift history"
  | .recompiling _ sacrifices declaration => do
    validateDeclarationBasics declaration
    require (sacrifices.length == (propertyNames (sacrifices.map (·.property))).size)
      "recompiling sacrifices must not contain duplicate properties"

def ProtocolState.validate (state : ProtocolState) : Except ProtocolError Unit := state.validateWithOptions host false

end

end Protocol

end Legitimacy
