import Legitimacy.AppendedReview
import Legitimacy.CycleIteration
import Legitimacy.DecisionAvailability
import Legitimacy.Extract.AxiomAudit

namespace Legitimacy

open ExceptRun

namespace Paradox

def defaultStrengthDeltas : List Float := [0.05, 0.10, 0.20, 0.40]

def strengthenClaim (claim : GovernanceClaim) (delta : Float) : Except LegitimacyError GovernanceClaim :=
  let strengthened := { claim with strength := claim.strength + delta }
  if ¬strengthened.strength.isFinite ∨ strengthened.strength ≤ 0 then
    .error (.invalidGovernanceStrength strengthened.claimantId strengthened.strength)
  else .ok strengthened

def claimsMatch (epsilon : Float) (left right : List GovernanceClaim) : Bool :=
  if left.length ≠ right.length then false
  else if (claimsById left).keys ≠ (claimsById right).keys then false
  else (claimsById left).toList.all fun (claimantId, before) =>
    (claimsById right)[claimantId]?.any fun after => claimsWithinEpsilon epsilon before after

def stateMatches (epsilon : Float) (left right : BTreeMap NodeId (List GovernanceClaim)) : Bool :=
  if left.size ≠ right.size then false
  else left.toList.all fun (node, claims) => right[node]?.any fun others => claimsMatch epsilon claims others

structure StabilizedCycle where
  converged : Bool
  fixedPointDecisions : BTreeMap ClaimantId Decision

def stabilizeRounds (regexes : RegexEngine) (graph : GovernanceGraph) (cycle : List NodeId) (epsilon : Float) :
    Nat → BTreeMap NodeId (List GovernanceClaim) → BTreeMap ClaimantId Decision → Except LegitimacyError StabilizedCycle
  | 0, _, lastDecisions => .ok ⟨false, lastDecisions⟩
  | remaining + 1, queuedClaims, lastDecisions => do
    let round ← cycle.zipIdx.foldlM (visitCycleNode regexes graph cycle) ⟨⟨queuedClaims, ∅⟩, lastDecisions⟩
    if stateMatches epsilon queuedClaims round.queues.next then .ok ⟨true, round.decisions⟩
    else stabilizeRounds regexes graph cycle epsilon remaining round.queues.next round.decisions

def stabilizeCycle (regexes : RegexEngine) (graph : GovernanceGraph) (cycle : List NodeId) (claims : List GovernanceClaim)
    (maxIterations : Nat) (epsilon : Float) : Except LegitimacyError StabilizedCycle :=
  match cycle with
  | [] => .error (.invalidInput "feedback monotonicity requires at least one node in the cycle")
  | entry :: _ => stabilizeRounds regexes graph cycle epsilon maxIterations
      ((∅ : BTreeMap NodeId (List GovernanceClaim)).insert entry claims) ∅

def probeStrengthening (regexes : RegexEngine) (graph : GovernanceGraph) (claims : List GovernanceClaim) (cycle : List NodeId)
    (baseline : StabilizedCycle) (probe : (GovernanceClaim × Nat) × Float) : Except LegitimacyError (Option GraphParadoxViolation) := do
  let ((claim, index), delta) := probe
  let strengthened ← claims.zipIdx.mapM fun (current, claimIndex) =>
    if claimIndex = index then strengthenClaim current delta else .ok current
  let candidate ← stabilizeCycle regexes graph cycle strengthened 32 epsilon
  if !candidate.converged then .ok none
  else match firstWorsening baseline.fixedPointDecisions candidate.fixedPointDecisions claims with
    | some (claimantId, before, after) =>
      .ok (some {
        paradoxType := .feedbackMonotonicity
        description := "Strengthening '" ++ claim.claimantId ++ "' by " ++ FloatText.fixed 2 delta ++ " made cycle " ++ debugNodes cycle ++
          " settle to a worse outcome for '" ++ claimantId ++ "' from " ++ before.debug ++ " to " ++ after.debug
        originalDecisions := baseline.fixedPointDecisions
        perturbedDecisions := candidate.fixedPointDecisions })
    | none => .ok none

def probeFeedback (regexes : RegexEngine) (graph : GovernanceGraph) (claims : List GovernanceClaim) (cycle : List NodeId) :
    Except LegitimacyError (Option GraphParadoxViolation) := do
  let baseline ← stabilizeCycle regexes graph cycle claims 32 epsilon
  if !baseline.converged then .ok none
  else
    let probes := claims.zipIdx.flatMap fun entry => defaultStrengthDeltas.map fun delta => (entry, delta)
    probes.findSomeM? (probeStrengthening regexes graph claims cycle baseline)

def feedbackMonotonicity (regexes : RegexEngine) (graph : GovernanceGraph) (claims : List GovernanceClaim) :
    Except LegitimacyError (Option GraphParadoxViolation) := do
  let cycles ← detectCycles graph
  cycles.findSomeM? (probeFeedback regexes graph claims)

end Paradox

namespace Extract

inductive ClaimCorpusProvenance where
  | syntheticStructuralProbe
  | userSupplied
  | fixture
  | observedRuntime
  | reviewedReconstruction
deriving DecidableEq

/-- The fields that the nodes read, apart from the strength. -/
def graphNumericFields (graph : GovernanceGraph) : BTreeSet String :=
  graph.nodes.toList.foldl (fun fields (_, node) =>
    match node with
    | .binary _ _ gates _ _ =>
      (gates.filterMap gateMetricField).foldl (fun fields field => if field ≠ "strength" then fields.insert field else fields) fields
    | .threshold _ _ _ field => if field ≠ "strength" then fields.insert field else fields
    | .proportional .. => fields) ∅

def normalizeClaimsForGraph (graph : GovernanceGraph) (claims : List GovernanceClaim) (corpusProvenance : ClaimCorpusProvenance) :
    List GovernanceClaim :=
  if corpusProvenance ≠ .observedRuntime then claims
  else claims.map fun claim =>
    { claim with metrics := (graphNumericFields graph).toList.foldl (fun metrics field =>
        if metrics.contains field then metrics else metrics.insert field 0) claim.metrics }

structure ExtractionCycleFinding where
  nodes : List String
  verdict : Verdict

structure ExtractionParadoxResult where
  paradox : String
  violation : Option GraphParadoxViolation
  skippedReason : Option String

def claimsForCycle (graph : GovernanceGraph) (claims : List GovernanceClaim) (cycle : List NodeId) : List GovernanceClaim :=
  if claims.isEmpty then syntheticClaimsForCycle graph cycle else claims

def claimsForCycles (graph : GovernanceGraph) (claims : List GovernanceClaim) (cycles : List (List NodeId)) : List GovernanceClaim :=
  if claims.isEmpty then syntheticClaimsForCycles graph cycles else claims

def runGraphParadoxSuite (regexes : RegexEngine) (graph : GovernanceGraph) (claims : List GovernanceClaim) (hasCycles : Bool) :
    Except LegitimacyError (List ExtractionParadoxResult) := do
  let alabama ← if hasCycles then
      .ok ⟨"compositional Alabama", none, some ("skipped because compositional Alabama requires an acyclic baseline traversal; " ++
        "cycles are reported separately")⟩
    else do
      let violation ← Paradox.compositionalAlabama regexes graph claims
      .ok ⟨"compositional Alabama", violation, none⟩
  let feedback ← Paradox.feedbackMonotonicity regexes graph claims
  let path ← if hasCycles then
      .ok ⟨"path dependence", none, some ("skipped because path dependence is defined over alternate DAG evaluation orders; " ++
        "cycles are reported separately")⟩
    else do
      let violation ← Paradox.pathDependence regexes graph claims
      .ok ⟨"path dependence", violation, none⟩
  .ok [alabama, ⟨"feedback monotonicity", feedback, none⟩, path]

/-- What the checks of an audit find; the summaries made of it cannot fail. -/
structure GovernanceAuditReport where
  corpusProvenance : ClaimCorpusProvenance
  claims : List GovernanceClaim
  cycles : List ExtractionCycleFinding
  axiomResults : List ExtractionAxiomResult
  paradoxResults : List ExtractionParadoxResult

def auditGovernanceGraph (regexes : RegexEngine) (graph : GovernanceGraph) (claims : List GovernanceClaim)
    (corpusProvenance : ClaimCorpusProvenance) : Except LegitimacyError GovernanceAuditReport := do
  let claims := normalizeClaimsForGraph graph claims corpusProvenance
  let cycles ← detectCycles graph
  let cycleFindings ← cycles.mapM fun cycle => do
    let verdict ← checkCycleAdmissibility regexes graph cycle (claimsForCycle graph claims cycle)
    .ok (ExtractionCycleFinding.mk (cycle.map NodeId.asStr) verdict)
  let axiomResults ← runGraphAxiomChecks regexes (checkNonvacuityOfCycles regexes graph claims) graph claims !cycles.isEmpty
  let paradoxClaims := if cycles.isEmpty then claims else claimsForCycles graph claims cycles
  let paradoxResults ← runGraphParadoxSuite regexes graph paradoxClaims !cycles.isEmpty
  .ok ⟨corpusProvenance, claims, cycleFindings, axiomResults, paradoxResults⟩

section

variable {regexes : RegexEngine} {graph : GovernanceGraph} {claims : List GovernanceClaim}

section

variable (runnable : graph.Runnable regexes) (admits : graph.Admits claims)

include runnable admits

theorem deltaLoop_ok (original : Diagnostics.Baseline)
    {misreporter : GovernanceClaim} (listed : misreporter ∈ claims) (index : Nat) (trueDecision : Decision) (deltas : List Float)
    (tested : Nat) :
    ∃ outcome, Diagnostics.deltaLoop regexes graph claims original misreporter index trueDecision deltas tested = .ok outcome := by
  induction deltas generalizing tested with
  | nil => exact ⟨_, rfl⟩
  | cons delta rest ih =>
    unfold Diagnostics.deltaLoop
    by_cases outside : ¬(misreporter.strength + delta).isFinite ∨ misreporter.strength + delta ≤ 0
    · rw [if_pos outside]
      exact ih tested
    rw [if_neg outside]
    rw [not_or, not_not] at outside
    have stand := @misreported_stands claims admits.batch index _ outside
    have misreported := admits.replaced stand
    obtain ⟨decisions, run, all⟩ := runnable.decides misreported
    obtain ⟨allocation, allocated⟩ := Diagnostics.decisionAllocation_of_valid misreported.batch decisions
    obtain ⟨other, inOthers, stands⟩ := exists_partner stand listed
    obtain ⟨decision, known⟩ := all other inOthers
    rw [stands.claimant] at known
    have looked := Diagnostics.decisionOf_ok known "graph strategyproofness misreported lookup"
    unfold Diagnostics.misreport
    simp only [run, allocated, looked, bind, Except.bind]
    split
    · obtain ⟨counterexample, rejected⟩ := Diagnostics.rejection_ok original misreported.batch allocation _ _
      unfold Diagnostics.misreportRejection
      rw [rejected]
      exact ⟨_, rfl⟩
    · exact ih (tested + 1)

theorem misreporterLoop_ok {original : Diagnostics.Baseline}
    (decided : DecidesAll original.decisions claims) {indexed : List (GovernanceClaim × Nat)} (within : ∀ entry ∈ indexed, entry.1 ∈ claims)
    (tested : Nat) : ∃ verdict, Diagnostics.misreporterLoop regexes graph claims original indexed tested = .ok verdict := by
  induction indexed generalizing tested with
  | nil => exact ⟨_, rfl⟩
  | cons entry rest ih =>
    obtain ⟨misreporter, index⟩ := entry
    have listed := within (misreporter, index) List.mem_cons_self
    obtain ⟨decision, known⟩ := decided misreporter listed
    have looked := Diagnostics.decisionOf_ok known "graph strategyproofness original lookup"
    obtain ⟨⟨found, total⟩, searched⟩ := deltaLoop_ok runnable admits original listed index decision Diagnostics.misreportDeltas tested
    unfold Diagnostics.misreporterLoop
    simp only [looked, searched, bind, Except.bind]
    cases found with
    | none => exact ih (fun other member => within other (List.mem_cons_of_mem _ member)) total
    | some counterexample => exact ⟨_, rfl⟩

theorem checkGraphStrategyproofness_ok :
    ∃ verdict, Diagnostics.checkGraphStrategyproofness regexes graph claims = .ok verdict := by
  obtain ⟨original, based, decided⟩ := Diagnostics.baseline_ok runnable admits
  obtain ⟨verdict, checked⟩ := @misreporterLoop_ok regexes graph claims runnable admits original decided claims.zipIdx
    (fun entry member => List.fst_mem_of_mem_zipIdx member) 0
  exact ⟨verdict, bind_eq_ok.2 ⟨original, based, checked⟩⟩

theorem runGraphAxiomChecks_ends (perturbable : ∀ claim ∈ claims, Protocol.Perturbable claim) (small : claims.length < 2 ^ 64)
    (probeCycles : List (List NodeId) → Except LegitimacyError AxiomVerdict) :
    Diagnostics.EndsAtSchema Diagnostics.auditMetricPolaritySchema (Protocol.graphDeltas claims)
      (runGraphAxiomChecks regexes probeCycles graph claims false) := by
  obtain ⟨decisions, run, -⟩ := runnable.decides admits
  obtain ⟨replayed, certifiable⟩ := checkGraphCertifiability_pass runnable admits
  obtain ⟨observable, determinate⟩ : ∃ outcome, Observable.checkGraphObservableDeterminacy regexes graph claims = .ok outcome := by
    rcases checkGraphObservableDeterminacy_ends runnable admits with ⟨tested, passed⟩ | ⟨-, reason, skipped⟩
    · exact ⟨_, passed⟩
    · exact ⟨_, skipped⟩
  have corrigible := checkGraphCorrigibility_pass runnable.toSound admits.validated
  have safe := checkGraphCompositionalSafety_pass runnable.closed runnable.acyclic run
  obtain ⟨-, nonvacuity, live, -⟩ := checkGraphNonvacuity_ok runnable admits small
  obtain ⟨consistency, consistent⟩ := Diagnostics.checkGraphConsistency_ok runnable admits
  obtain ⟨solidarity, solid⟩ := @Diagnostics.checkGraphSolidarity_ok regexes graph claims runnable admits (Protocol.graphShocks claims)
    (fun shock listed claim inClaims => by
      obtain ⟨field, -, rfl⟩ := List.mem_map.1 listed
      exact (perturbable claim inClaims).tolerates field)
  obtain ⟨strategyproofness, truthful⟩ := checkGraphStrategyproofness_ok runnable admits
  unfold runGraphAxiomChecks
  simp only [Bool.false_eq_true, if_false, certifiable, determinate, corrigible, safe, live, consistent, solid, truthful, bind, Except.bind]
  rcases Diagnostics.monotonicityCheck_ends runnable admits fun delta listed => Protocol.improves_of_perturbable perturbable listed with
    ⟨monotonicity, monotone⟩ | ⟨delta, listed, unknown, refused⟩
  · rw [monotone]
    exact .inl ⟨_, rfl⟩
  · rw [refused]
    exact .inr ⟨delta, listed, unknown, rfl⟩

theorem pathDependence_ok :
    ∃ outcome, Paradox.pathDependence regexes graph claims = .ok outcome := by
  have closed := runnable.closed
  obtain ⟨decisions, run, -⟩ := runnable.decides admits
  have same := fun order (legal : graph.LegalOrder order) =>
    paradox_evaluateWithOrder_eq closed runnable.acyclic runnable.plain run legal
  obtain ⟨ascending, first, firstLegal⟩ := Paradox.topologicalOrder_legal closed runnable.acyclic .ascending
  obtain ⟨descending, last, lastLegal⟩ := Paradox.topologicalOrder_legal closed runnable.acyclic .descending
  unfold Paradox.pathDependence
  simp only [runnable.noCycles, first, last, same ascending firstLegal, same descending lastLegal, firstDifference_self, bind, Except.bind,
    ne_eq, not_true_eq_false, if_false]
  split <;> exact ⟨none, rfl⟩

theorem runGraphParadoxSuite_ok :
    ∃ results, runGraphParadoxSuite regexes graph claims false = .ok results := by
  obtain ⟨decisions, run, -⟩ := runnable.decides admits
  obtain ⟨alabama, searched, -⟩ := Paradox.compositionalAlabama_ok runnable.closed runnable.acyclic run
  have feedback : Paradox.feedbackMonotonicity regexes graph claims = .ok none := bind_eq_ok.2 ⟨[], runnable.noCycles, rfl⟩
  obtain ⟨path, probed⟩ := pathDependence_ok runnable admits
  unfold runGraphParadoxSuite
  simp only [Bool.false_eq_true, if_false, searched, feedback, probed, bind, Except.bind]
  exact ⟨_, rfl⟩

theorem auditGovernanceGraph_ends
    (perturbable : ∀ claim ∈ claims, Protocol.Perturbable claim) (small : claims.length < 2 ^ 64) {corpusProvenance : ClaimCorpusProvenance}
    (unobserved : corpusProvenance ≠ .observedRuntime) :
    Diagnostics.EndsAtSchema Diagnostics.auditMetricPolaritySchema (Protocol.graphDeltas claims)
      (auditGovernanceGraph regexes graph claims corpusProvenance) := by
  have normal : normalizeClaimsForGraph graph claims corpusProvenance = claims := if_pos unobserved
  obtain ⟨results, searched⟩ := runGraphParadoxSuite_ok runnable admits
  unfold auditGovernanceGraph
  simp only [normal, runnable.noCycles, List.mapM_nil, List.isEmpty_nil, Bool.not_true, if_true, bind, Except.bind, pure, Except.pure]
  rcases runGraphAxiomChecks_ends runnable admits perturbable small (checkNonvacuityOfCycles regexes graph claims) with
    ⟨axioms, checked⟩ | ⟨delta, listed, unknown, refused⟩
  · rw [checked, searched]
    exact .inl ⟨_, rfl⟩
  · rw [refused]
    exact .inr ⟨delta, listed, unknown, rfl⟩

end

end

end Extract

end Legitimacy
