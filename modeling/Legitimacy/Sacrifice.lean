import Legitimacy.Ledger.Record
import Legitimacy.Violations

namespace Legitimacy.Sacrifice

open Ledger

def defaultAlertChannel : String := "governance-risk"

def graphName : String := "governance-graph"

def graphVersion : String := "derived"

structure CompiledGraph where
  name : String
  version : String
  axiomVerdicts : List Verdict
  strategyproofness : StrategyproofnessVerdict
  familyDescription : String
  compiledAt : String

structure GraphCertificate where
  compiled : CompiledGraph
  sacrifices : List Ledger.DeclaredSacrifice

def requireGraphKernelVerdict (verdict : AxiomVerdict) : Except LegitimacyError Verdict :=
  match verdict with
  | .skipped kernelAxiom reason =>
    .error (.invalidInput ("skipped " ++ kernelAxiom.graphAxiomName ++ " during graph sacrifice compilation: " ++ reason))
  | .pass kernelAxiom perturbationsTested => .ok (.admissible kernelAxiom.graphAxiomName perturbationsTested)
  | .fail kernelAxiom _ witness => .ok (.rejected kernelAxiom.graphAxiomName witness)

def debugSteps (steps : List (String × Float)) : String :=
  debugList (steps.map fun (field, delta) => field ++ ":" ++ FloatText.fixed 2 delta)

def familyDescription (claims : List GovernanceClaim) : String :=
  "derived_fields=\x7b" ++ ", ".intercalate ((Protocol.graphFields claims).map debugText) ++ "\x7d, shocks=" ++
    debugSteps ((Protocol.graphShocks claims).map fun shock => (shock.field, shock.delta)) ++ ", deltas=" ++
    debugSteps ((Protocol.graphDeltas claims).map fun delta => (delta.field, delta.delta))

def compileGraphPayload (regexes : RegexEngine) (graph : GovernanceGraph) (claims : List GovernanceClaim)
    (unixTimestamp : Except LegitimacyError String) : Except LegitimacyError CompiledGraph := do
  let consistency ← Diagnostics.checkGraphConsistency regexes graph claims
  let solidarity ← Diagnostics.checkGraphSolidarity regexes graph claims (Protocol.graphShocks claims)
  let monotonicity ← Diagnostics.monotonicityCheckViaPolaritySchema regexes graph claims (Protocol.graphDeltas claims)
    Diagnostics.auditMetricPolaritySchema
  let certifiability ← checkGraphCertifiability regexes graph claims
  let certifiability ← requireGraphKernelVerdict certifiability
  let observable ← Observable.checkGraphObservableDeterminacy regexes graph claims
  let observable ← requireGraphKernelVerdict observable
  let corrigibility ← checkGraphCorrigibility regexes graph claims
  let corrigibility ← requireGraphKernelVerdict corrigibility
  let compositionalSafety ← checkGraphCompositionalSafety regexes graph claims
  let compositionalSafety ← requireGraphKernelVerdict compositionalSafety
  let nonvacuity ← checkGraphNonvacuity regexes graph claims
  let nonvacuity ← requireGraphKernelVerdict nonvacuity
  let strategyproofness ← checkGraphStrategyproofnessVerdict regexes graph claims
  let compiledAt ← unixTimestamp
  .ok {
    name := graphName
    version := graphVersion
    axiomVerdicts := [consistency, solidarity, monotonicity, certifiability, observable, corrigibility, compositionalSafety, nonvacuity]
    strategyproofness := strategyproofness
    familyDescription := familyDescription claims
    compiledAt := compiledAt }

def containsText (value part : String) : Bool := (List.range (value.length + 1)).any fun start => part.toList.isPrefixOf (value.toList.drop start)

def toAsciiLowercase (value : String) : String :=
  String.ofList (value.toList.map fun character =>
    if 'A' ≤ character ∧ character ≤ 'Z' then Char.ofNat (character.toNat + 32) else character)

def propertyForAxiom (axiomName : String) : Option GovernanceProperty :=
  let lower := toAsciiLowercase axiomName
  if containsText lower "compositional safety" then some .compositionalSafety
  else if containsText lower "certifiability" || containsText lower "certifiable" then some .certifiability
  else if containsText lower "corrigibility" || containsText lower "corrigible" then some .corrigibility
  else if containsText lower "observable determinacy" || containsText lower "observable_determinacy" then some .observableDeterminacy
  else if containsText lower "nonvacu" || containsText lower "non-vacu" || containsText lower "non_vacu" then some .nonVacuous
  else if containsText lower "consistency" then some .consistency
  else if containsText lower "solidarity" then some .solidarity
  else if containsText lower "monotonicity" then some .monotonicity
  else none

def estateRelativeChange (counterexample : Counterexample) : Float :=
  let original := counterexample.originalEstate.total.value
  let perturbed := counterexample.perturbedEstate.total.value
  if original ≤ epsilon then 0 else (perturbed / original - 1).abs

def claimIds (counterexample : Counterexample) : List String :=
  let ids : BTreeSet String := (counterexample.originalClaims ++ counterexample.perturbedClaims).foldl
    (fun ids claim => ids.insert claim.claimantId) ∅
  ids.toList

def findClaim (claims : List Claim) (claimantId : String) : Option Claim := claims.find? fun claim => claim.claimantId = claimantId

def maxStrengthDelta (counterexample : Counterexample) : Float :=
  let strengthOf (claims : List Claim) (claimantId : String) : Float :=
    ((findClaim claims claimantId).map fun claim => claim.strength.value).getD 0
  (claimIds counterexample).foldl (fun greatest claimantId =>
    Spectral.maxFloat greatest
      (strengthOf counterexample.perturbedClaims claimantId - strengthOf counterexample.originalClaims claimantId).abs) 0

def metricNames (original perturbed : Option Claim) : List String :=
  let names : BTreeSet String := (original.toList ++ perturbed.toList).foldl
    (fun names claim => claim.metrics.keys.foldl (fun names name => names.insert name) names) ∅
  names.toList

def maxClaimMetricDeltas (counterexample : Counterexample) : BTreeMap String Float :=
  (claimIds counterexample).foldl (fun deltas claimantId =>
    let original := findClaim counterexample.originalClaims claimantId
    let perturbed := findClaim counterexample.perturbedClaims claimantId
    let valueOf (claim : Option Claim) (name : String) : Float := (claim.bind fun claim => claim.metrics[name]?).getD 0
    (metricNames original perturbed).foldl (fun deltas name =>
      let delta := (valueOf perturbed name - valueOf original name).abs
      deltas.insert name (match deltas[name]? with
        | some current => Spectral.maxFloat current delta
        | none => delta)) deltas) ∅

def monitoringFrequencySeconds : GovernanceProperty → Nat
  | .consistency => 900
  | .solidarity | .monotonicity => 300
  | _ => 60

def monitoringAlertChannel (property : GovernanceProperty) : String := defaultAlertChannel ++ "." ++ property.asStr

def monitoringPlanFromCounterexample (property : GovernanceProperty) (counterexample : Counterexample) : List MonitoringSpec :=
  let estateDelta := estateRelativeChange counterexample
  let strengthDelta := maxStrengthDelta counterexample
  let metrics : BTreeMap String Float := if epsilon < estateDelta then Std.ExtTreeMap.ofList [("estate_relative_change", estateDelta)] compare else ∅
  let metrics := if epsilon < strengthDelta then metrics.insert "claim_strength_delta" strengthDelta else metrics
  let metrics := (maxClaimMetricDeltas counterexample).toList.foldl (fun metrics (name, threshold) =>
    if epsilon < threshold then metrics.insert ("claim_metric_delta." ++ name) threshold else metrics) metrics
  metrics.toList.map fun (name, threshold) =>
    ⟨property.asStr ++ "." ++ name, threshold, monitoringFrequencySeconds property, monitoringAlertChannel property⟩

def provenanceOf (compiled : CompiledGraph) (sourceAxiom witness : String) : SacrificeProvenance where
  compiledKind := .graph
  compiledName := compiled.name
  compiledVersion := compiled.version
  compiledAt := compiled.compiledAt
  familyDescription := compiled.familyDescription
  sourceAxiom := sourceAxiom
  witness := witness

def counterexampleSacrifice (compiled : CompiledGraph) (sacrificedProperty : GovernanceProperty) (axiomName : String)
    (counterexample : Counterexample) : Ledger.DeclaredSacrifice :=
  let monitoringPlan := monitoringPlanFromCounterexample sacrificedProperty counterexample
  { sacrificedProperty := sacrificedProperty
    justification := counterexample.violation ++ " Witness: " ++ counterexample.description
    impactBound := monitoringPlan.foldl (fun greatest spec => Spectral.maxFloat greatest spec.threshold) 0
    monitoringPlan := monitoringPlan
    provenance := provenanceOf compiled axiomName counterexample.description }

def manipulationSacrifice (compiled : CompiledGraph) (witness : StrategyproofnessWitness) : Ledger.DeclaredSacrifice :=
  let threshold := (witness.reported - witness.trueStrength).abs
  { sacrificedProperty := .strategyproofness
    justification := "Claimant '" ++ witness.claimant ++ "' can improve its outcome by misreporting strength from " ++
      FloatText.display witness.trueStrength ++ " to " ++ FloatText.display witness.reported ++ ", moving from " ++
      FloatText.display witness.trueAlloc ++ " to " ++ FloatText.display witness.manipulatedAlloc ++ "."
    impactBound := threshold
    monitoringPlan := [⟨GovernanceProperty.strategyproofness.asStr ++ ".claim_strength_delta", threshold,
      monitoringFrequencySeconds .strategyproofness, monitoringAlertChannel .strategyproofness⟩]
    provenance := provenanceOf compiled "strategyproofness" ("manipulable claimant=" ++ witness.claimant ++ ", true_strength=" ++
      FloatText.display witness.trueStrength ++ ", reported=" ++ FloatText.display witness.reported) }

def verdictSacrifice (compiled : CompiledGraph) : Verdict → Option Ledger.DeclaredSacrifice
  | .rejected axiomName counterexample =>
    (propertyForAxiom axiomName).map fun property => counterexampleSacrifice compiled property axiomName counterexample
  | .admissible .. => none

def sacrificesFromGraph (compiled : CompiledGraph) : List Ledger.DeclaredSacrifice :=
  compiled.axiomVerdicts.filterMap (verdictSacrifice compiled) ++
    (compiled.strategyproofness.witness.map (manipulationSacrifice compiled)).toList

/-- Only a certificate with sacrifices is recorded. -/
def issueCertificate (recordDeclaredSacrifices : GraphCertificate → Except LegitimacyError Unit) (compiled : CompiledGraph)
    (sacrifices : List Ledger.DeclaredSacrifice) : Except LegitimacyError GraphCertificate := do
  let certificate : GraphCertificate := ⟨compiled, sacrifices⟩
  if sacrifices.isEmpty then .ok certificate
  else do
    recordDeclaredSacrifices certificate
    .ok certificate

def compileGraphWithSacrifices (regexes : RegexEngine) (recordDeclaredSacrifices : GraphCertificate → Except LegitimacyError Unit)
    (graph : GovernanceGraph) (claims : List GovernanceClaim) (unixTimestamp : Except LegitimacyError String) :
    Except LegitimacyError GraphCertificate := do
  let compiled ← compileGraphPayload regexes graph claims unixTimestamp
  issueCertificate recordDeclaredSacrifices compiled (sacrificesFromGraph compiled)

/-- The certificate gives a property up. -/
def Sacrifices (certificate : GraphCertificate) (property : GovernanceProperty) : Prop :=
  ∃ sacrifice ∈ certificate.sacrifices, sacrifice.sacrificedProperty = property

end Legitimacy.Sacrifice
