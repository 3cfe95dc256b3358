import Legitimacy.Violations

namespace Legitimacy

open ExceptRun

namespace Diagnostics

def misreportDeltas : List Float := [-0.3, -0.1, 0.1, 0.3, 0.5]

def misreport (claims : List GovernanceClaim) (index : Nat) (reported : Float) : List GovernanceClaim :=
  claims.zipIdx.map fun (claim, claimIndex) => if claimIndex = index then { claim with strength := reported } else claim

def misreportRejection (original : Baseline) (misreporter : GovernanceClaim) (trueDecision misreportedDecision : Decision) (reported : Float)
    (misreportedClaims : List GovernanceClaim) (misreportedAllocation : ValidAllocation) : Except LegitimacyError Counterexample :=
  rejection original
    ("Claimant '" ++ misreporter.claimantId ++ "' improved from " ++ trueDecision.debug ++ " to " ++ misreportedDecision.debug ++
      " by misreporting strength " ++ FloatText.fixed 2 misreporter.strength ++ " -> " ++ FloatText.fixed 2 reported)
    misreportedClaims misreportedAllocation
    ("Claimant '" ++ misreporter.claimantId ++ "' can strategically misreport claim strength to achieve a better governance outcome. " ++
      "The composed graph is manipulable.")

/-- The misreports of one claimant, up to the first that pays, and how many batches were evaluated until then. -/
def deltaLoop (regexes : RegexEngine) (graph : GovernanceGraph) (claims : List GovernanceClaim) (original : Baseline)
    (misreporter : GovernanceClaim) (index : Nat) (trueDecision : Decision) :
    List Float → Nat → Except LegitimacyError (Option Counterexample × Nat)
  | [], perturbationsTested => .ok (none, perturbationsTested)
  | delta :: rest, perturbationsTested =>
    let reported := misreporter.strength + delta
    if ¬reported.isFinite ∨ reported ≤ 0 then
      deltaLoop regexes graph claims original misreporter index trueDecision rest perturbationsTested
    else do
      let misreportedClaims := misreport claims index reported
      let misreportedDecisions ← traverseFinalDecisions regexes graph misreportedClaims
      let misreportedAllocation ← decisionAllocation misreportedClaims misreportedDecisions
      let misreportedDecision ← decisionOf misreportedDecisions misreporter.claimantId "graph strategyproofness misreported lookup"
      if decisionRank trueDecision < decisionRank misreportedDecision then do
        let counterexample ← misreportRejection original misreporter trueDecision misreportedDecision reported misreportedClaims
          misreportedAllocation
        .ok (some counterexample, perturbationsTested + 1)
      else deltaLoop regexes graph claims original misreporter index trueDecision rest (perturbationsTested + 1)

def misreporterLoop (regexes : RegexEngine) (graph : GovernanceGraph) (claims : List GovernanceClaim) (original : Baseline) :
    List (GovernanceClaim × Nat) → Nat → Except LegitimacyError Verdict
  | [], perturbationsTested => .ok (.admissible "graph strategyproofness" perturbationsTested)
  | (misreporter, index) :: rest, perturbationsTested => do
    let trueDecision ← decisionOf original.decisions misreporter.claimantId "graph strategyproofness original lookup"
    match ← deltaLoop regexes graph claims original misreporter index trueDecision misreportDeltas perturbationsTested with
    | (some counterexample, _) => .ok (.rejected "graph strategyproofness" counterexample)
    | (none, perturbationsTested) => misreporterLoop regexes graph claims original rest perturbationsTested

def checkGraphStrategyproofness (regexes : RegexEngine) (graph : GovernanceGraph) (claims : List GovernanceClaim) :
    Except LegitimacyError Verdict := do
  let original ← baseline regexes graph claims
  misreporterLoop regexes graph claims original claims.zipIdx 0

end Diagnostics

namespace Extract

structure ExtractionAxiomResult where
  axiomName : String
  verdict : Option Verdict
  skippedReason : Option String

def kernelAxiomResult : AxiomVerdict → ExtractionAxiomResult
  | .pass kernelAxiom perturbationsTested =>
    ⟨kernelAxiom.graphAxiomName, some (.admissible kernelAxiom.graphAxiomName perturbationsTested), none⟩
  | .fail kernelAxiom _ witness => ⟨kernelAxiom.graphAxiomName, some (.rejected kernelAxiom.graphAxiomName witness), none⟩
  | .skipped kernelAxiom reason => ⟨kernelAxiom.graphAxiomName, none, some reason⟩

def skippedAxiom (axiomName reason : String) : ExtractionAxiomResult := ⟨axiomName, none, some reason⟩

def cyclicReason : String := "skipped because the extracted graph contains cycles; see cycle findings"

/-- All axioms on a graph without cycles. On one with cycles only nonvacuity is checked, through `probeCycles`. -/
def runGraphAxiomChecks (regexes : RegexEngine) (probeCycles : List (List NodeId) → Except LegitimacyError AxiomVerdict)
    (graph : GovernanceGraph) (claims : List GovernanceClaim) (hasCycles : Bool) :
    Except LegitimacyError (List ExtractionAxiomResult) := do
  if hasCycles then do
    let cycles ← detectCycles graph
    let nonvacuity ← probeCycles cycles
    .ok [skippedAxiom "graph consistency" cyclicReason, skippedAxiom "graph solidarity" cyclicReason,
      skippedAxiom "graph monotonicity" cyclicReason, skippedAxiom "graph strategyproofness" cyclicReason,
      skippedAxiom "graph certifiability" cyclicReason, skippedAxiom "graph observable determinacy" cyclicReason,
      skippedAxiom "graph corrigibility" cyclicReason, skippedAxiom "graph compositional safety" cyclicReason,
      { kernelAxiomResult nonvacuity with axiomName := "graph nonvacuity" }]
  else do
    let certifiability ← checkGraphCertifiability regexes graph claims
    let observable ← Observable.checkGraphObservableDeterminacy regexes graph claims
    let corrigibility ← checkGraphCorrigibility regexes graph claims
    let compositionalSafety ← checkGraphCompositionalSafety regexes graph claims
    let nonvacuity ← checkGraphNonvacuity regexes graph claims
    let consistency ← Diagnostics.checkGraphConsistency regexes graph claims
    let solidarity ← Diagnostics.checkGraphSolidarity regexes graph claims (Protocol.graphShocks claims)
    let monotonicity ← Diagnostics.monotonicityCheckViaPolaritySchema regexes graph claims (Protocol.graphDeltas claims)
      Diagnostics.auditMetricPolaritySchema
    let strategyproofness ← Diagnostics.checkGraphStrategyproofness regexes graph claims
    .ok [⟨"graph consistency", some consistency, none⟩, ⟨"graph solidarity", some solidarity, none⟩,
      ⟨"graph monotonicity", some monotonicity, none⟩, ⟨"graph strategyproofness", some strategyproofness, none⟩,
      kernelAxiomResult certifiability, kernelAxiomResult observable, kernelAxiomResult corrigibility,
      kernelAxiomResult compositionalSafety, kernelAxiomResult nonvacuity]

def isRejection : Option Verdict → Bool
  | some (.rejected ..) => true
  | _ => false

def isAdmission : Option Verdict → Bool
  | some (.admissible ..) => true
  | _ => false

def protocolCanExtractCompile (axiomResults : List ExtractionAxiomResult) (hasCycles : Bool) : Bool :=
  let anyPass := axiomResults.any fun result => isAdmission result.verdict
  let anyReject := axiomResults.any fun result => isRejection result.verdict
  !hasCycles && anyPass && !anyReject

def AuditRejects (results : List ExtractionAxiomResult) (property : GovernanceProperty) : Prop :=
  ∃ result ∈ results, result.axiomName = Protocol.axiomOfProperty property ∧
    ∃ axiomName counterexample, result.verdict = some (.rejected axiomName counterexample)

end Extract

end Legitimacy
