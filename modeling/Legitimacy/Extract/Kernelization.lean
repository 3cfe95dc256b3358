import Legitimacy.Routes
import Legitimacy.Sacrifice

namespace Legitimacy.Kernelization

open Sacrifice

structure ExtractorInput where
  sourceId : String
  byteSize : UInt64
  sizeBound : UInt64
  coverageComplete : Bool
  parserErrors : UInt64
deriving DecidableEq

def ExtractorInput.wellFormed (input : ExtractorInput) : Bool :=
  input.byteSize ≤ input.sizeBound && input.coverageComplete && input.parserErrors == 0

structure RuleLayerKernelArtifactParts where
  extract : String
  src : ExtractorInput
  reachedData : String
  trajectory : String
  compiled : String
  report : String
  monitoring : String
deriving DecidableEq

structure RuleLayerKernelArtifactClaims where
  runtimeKernel : Bool
  semanticBridge : Bool
  semanticKernel : Bool
  reachableStateSafe : Bool
  forcedSacrificesDeclared : Bool
deriving DecidableEq

/-- The parts with the claims that a validator has confirmed of them. -/
structure RuleLayerKernelArtifact extends RuleLayerKernelArtifactParts, RuleLayerKernelArtifactClaims
deriving DecidableEq

structure RuleLayerKernelArtifactValidator where
  runtimeKernel : RuleLayerKernelArtifactParts → Bool
  semanticBridge : RuleLayerKernelArtifactParts → Bool
  semanticKernel : RuleLayerKernelArtifactParts → Bool
  reachableStateSafe : RuleLayerKernelArtifactParts → Bool
  forcedSacrificesDeclared : RuleLayerKernelArtifactParts → Bool

namespace StructuralKernelArtifactValidator

def runtimeKernel (parts : RuleLayerKernelArtifactParts) : Bool :=
  !parts.extract.isEmpty && !parts.reachedData.isEmpty && !parts.trajectory.isEmpty && !parts.compiled.isEmpty

def semanticBridge (parts : RuleLayerKernelArtifactParts) : Bool :=
  runtimeKernel parts && !containsText parts.extract "semanticFailureExtractor" && !parts.report.isEmpty && !parts.monitoring.isEmpty

end StructuralKernelArtifactValidator

open StructuralKernelArtifactValidator in
def structuralKernelArtifactValidator : RuleLayerKernelArtifactValidator where
  runtimeKernel := runtimeKernel
  semanticBridge := semanticBridge
  semanticKernel parts := runtimeKernel parts && semanticBridge parts
  reachableStateSafe parts := runtimeKernel parts && containsText parts.trajectory parts.reachedData
  forcedSacrificesDeclared parts := !parts.compiled.isEmpty && !parts.report.isEmpty && !parts.monitoring.isEmpty

inductive RuleLayerKernelArtifactVerificationError where
  | runtimeKernel
  | semanticBridge
  | semanticKernel
  | reachableStateSafe
  | forcedSacrificesDeclared
deriving DecidableEq

def verifyClaim (verdict claimed : Bool) (error : RuleLayerKernelArtifactVerificationError) :
    Except RuleLayerKernelArtifactVerificationError Bool :=
  if verdict = claimed then .ok claimed else .error error

def RuleLayerKernelArtifact.verify (parts : RuleLayerKernelArtifactParts) (claims : RuleLayerKernelArtifactClaims)
    (validator : RuleLayerKernelArtifactValidator) : Except RuleLayerKernelArtifactVerificationError RuleLayerKernelArtifact := do
  let runtimeKernel ← verifyClaim (validator.runtimeKernel parts) claims.runtimeKernel .runtimeKernel
  let semanticBridge ← verifyClaim (validator.semanticBridge parts) claims.semanticBridge .semanticBridge
  let semanticKernel ← verifyClaim (validator.semanticKernel parts) claims.semanticKernel .semanticKernel
  let reachableStateSafe ← verifyClaim (validator.reachableStateSafe parts) claims.reachableStateSafe .reachableStateSafe
  let forcedSacrificesDeclared ←
    verifyClaim (validator.forcedSacrificesDeclared parts) claims.forcedSacrificesDeclared .forcedSacrificesDeclared
  .ok { parts with runtimeKernel, semanticBridge, semanticKernel, reachableStateSafe, forcedSacrificesDeclared }

structure AuthorityEdge where
  fromNode : String
  toNode : String
deriving DecidableEq

structure AuthorityGraph where
  nodes : List String
  edges : List AuthorityEdge
  overrides : List AuthorityEdge
deriving DecidableEq

namespace AuthorityGraph

def hasEdge (graph : AuthorityGraph) (edge : AuthorityEdge) : Bool := graph.edges.contains edge

def hasOverride (graph : AuthorityGraph) (edge : AuthorityEdge) : Bool := graph.overrides.contains edge

end AuthorityGraph

structure GovernanceKernelizationObservation where
  artifact : RuleLayerKernelArtifact
  reported : AuthorityGraph
  effective : AuthorityGraph
  sourceEdges : List AuthorityEdge
  reportedSemanticBridgeClean : Bool

structure UnmodeledEdgeWitness where
  edge : AuthorityEdge

structure BypassPathWitness where
  source : String
  middle : List String
  target : String

def BypassPathWitness.route (witness : BypassPathWitness) : List String := witness.source :: (witness.middle ++ [witness.target])

structure HiddenOverrideWitness where
  overrideEdge : AuthorityEdge
  dominatedPair : AuthorityEdge

structure SourceEvidenceGapWitness where
  edge : AuthorityEdge

inductive SemanticFailureLocus where
  | runtimeKernel
  | semanticBridge

structure SemanticBridgeFailureWitness where
  failureLocus : SemanticFailureLocus

inductive HiddenAuthorityCertificate where
  | unmodeledEdge (witness : UnmodeledEdgeWitness)
  | bypassPath (witness : BypassPathWitness)
  | hiddenOverride (witness : HiddenOverrideWitness)
  | sourceEvidenceGap (witness : SourceEvidenceGapWitness)
  | semanticBridgeFailure (witness : SemanticBridgeFailureWitness)

def authorityEdgeDifference (effective reported : AuthorityGraph) : List AuthorityEdge :=
  effective.edges.filter fun edge => !reported.hasEdge edge

def authorityOverrideDifference (effective reported : AuthorityGraph) : List AuthorityEdge :=
  effective.overrides.filter fun edge => !reported.hasOverride edge

def pathAuthorityEdges (path : List String) : List AuthorityEdge := path.zipWith AuthorityEdge.mk path.tail

def authorityPathPermitted (graph : AuthorityGraph) (path : List String) : Bool := (pathAuthorityEdges path).all graph.hasEdge

def routeDirectEdge : List String → Option AuthorityEdge
  | first :: second :: rest => some ⟨first, (second :: rest).getLast (List.cons_ne_nil _ _)⟩
  | _ => none

def isEdgePermittedRoute (graph : AuthorityGraph) (route : List String) : Bool :=
  2 ≤ route.length && authorityPathPermitted graph route

def isEdgePermittedBypass (graph : AuthorityGraph) (route : List String) : Bool :=
  isEdgePermittedRoute graph route && ((routeDirectEdge route).map fun edge => !graph.hasEdge edge).getD false

def routeSublists (route : List String) : List (List String) :=
  route.foldl (fun sublists node => sublists ++ sublists.map (· ++ [node])) [[]]

def authorityExtensionallyEquivalent (reported effective : AuthorityGraph) : Bool :=
  (authorityEdgeDifference effective reported).isEmpty && (authorityEdgeDifference reported effective).isEmpty &&
    (authorityOverrideDifference effective reported).isEmpty && (authorityOverrideDifference reported effective).isEmpty

def sourceDerivesEdge (sourceEdges : List AuthorityEdge) (edge : AuthorityEdge) : Bool := sourceEdges.contains edge

def sourceEvidenceDerivable (sourceEdges : List AuthorityEdge) (edge : AuthorityEdge) : Bool := sourceDerivesEdge sourceEdges edge

def sourceEvidenceComplete (observation : GovernanceKernelizationObservation) : Bool :=
  (observation.effective.edges ++ observation.effective.overrides).all (sourceDerivesEdge observation.sourceEdges)

def kernelizationClean (observation : GovernanceKernelizationObservation) : Bool :=
  authorityExtensionallyEquivalent observation.reported observation.effective && sourceEvidenceComplete observation &&
    observation.artifact.semanticKernel

def bypassPathMinimal (graph : AuthorityGraph) (witness : BypassPathWitness) : Bool :=
  let route := witness.route
  isEdgePermittedRoute graph route && isEdgePermittedBypass graph route &&
    (routeSublists route).all fun shorter => shorter == route || !isEdgePermittedBypass graph shorter

def routeNodup (route : List String) : Bool :=
  (route.foldl (fun unique node => unique.insert node) (∅ : BTreeSet String)).size == route.length

def hiddenOverrideDominatesPair (observation : GovernanceKernelizationObservation) (witness : HiddenOverrideWitness) : Bool :=
  witness.overrideEdge.fromNode == witness.dominatedPair.fromNode && witness.overrideEdge.toNode == witness.dominatedPair.toNode &&
    observation.reported.hasEdge witness.dominatedPair

def semanticFailureLocusFails (artifact : RuleLayerKernelArtifact) : SemanticFailureLocus → Bool
  | .runtimeKernel => !artifact.runtimeKernel
  | .semanticBridge => !artifact.semanticBridge

def semanticFailureLocusMinimal (artifact : RuleLayerKernelArtifact) (locus : SemanticFailureLocus) : Bool :=
  let noEarlierFailure := match locus with
    | .runtimeKernel => true
    | .semanticBridge => !semanticFailureLocusFails artifact .runtimeKernel
  semanticFailureLocusFails artifact locus && noEarlierFailure

def minimalHiddenAuthority (observation : GovernanceKernelizationObservation) : HiddenAuthorityCertificate → Bool
  | .unmodeledEdge witness => (authorityEdgeDifference observation.effective observation.reported).contains witness.edge
  | .bypassPath witness =>
    !witness.middle.isEmpty && routeNodup witness.route && isEdgePermittedRoute observation.effective witness.route &&
      bypassPathMinimal observation.reported witness
  | .hiddenOverride witness =>
    (authorityOverrideDifference observation.effective observation.reported).contains witness.overrideEdge &&
      hiddenOverrideDominatesPair observation witness
  | .sourceEvidenceGap witness =>
    (observation.effective.hasEdge witness.edge || observation.effective.hasOverride witness.edge) &&
      !sourceEvidenceDerivable observation.sourceEdges witness.edge
  | .semanticBridgeFailure witness =>
    observation.reportedSemanticBridgeClean && observation.artifact.src.wellFormed &&
      semanticFailureLocusMinimal observation.artifact witness.failureLocus

structure KernelizationCleanWitness where
  input : ExtractorInput
  reportedEquiv : Bool
  sourceComplete : Bool
  semanticKernel : Bool

def KernelizationCleanWitness.holdsFor (witness : KernelizationCleanWitness) (observation : GovernanceKernelizationObservation) : Bool :=
  witness.input == observation.artifact.src &&
    witness.reportedEquiv == authorityExtensionallyEquivalent observation.reported observation.effective &&
    witness.sourceComplete == sourceEvidenceComplete observation &&
    witness.semanticKernel == observation.artifact.semanticKernel &&
    witness.reportedEquiv && witness.sourceComplete && witness.semanticKernel

inductive KernelizationExtractorResult where
  | clean (witness : KernelizationCleanWitness)
  | hiddenAuthority (certificate : HiddenAuthorityCertificate)

structure KernelizationExtractorContract where
  extract : ExtractorInput → KernelizationExtractorResult

inductive KernelizationHonestyError where
  | unsoundCleanWitness
  | nonminimalCertificate
deriving DecidableEq

def kernelizationHonesty (observation : GovernanceKernelizationObservation) (contract : KernelizationExtractorContract) :
    Except KernelizationHonestyError KernelizationExtractorResult :=
  match contract.extract observation.artifact.src with
  | .clean witness => if witness.holdsFor observation then .ok (.clean witness) else .error .unsoundCleanWitness
  | .hiddenAuthority certificate =>
    if minimalHiddenAuthority observation certificate then .ok (.hiddenAuthority certificate) else .error .nonminimalCertificate

section

variable {graph : AuthorityGraph} {route : List String}

def Step (graph : AuthorityGraph) (a b : String) : Prop := graph.hasEdge ⟨a, b⟩ = true

theorem authorityPathPermitted_iff : authorityPathPermitted graph route = true ↔ route.IsChain (Step graph) := by
  induction route with
  | nil => simp [authorityPathPermitted, pathAuthorityEdges]
  | cons first rest ih =>
    cases rest with
    | nil => simp [authorityPathPermitted, pathAuthorityEdges]
    | cons second rest =>
      rw [List.isChain_cons_cons, ← ih]
      simp only [authorityPathPermitted, pathAuthorityEdges, List.tail_cons, List.zipWith_cons_cons, List.all_cons, Bool.and_eq_true, Step]

theorem isEdgePermittedRoute_iff : isEdgePermittedRoute graph route = true ↔ Routes.Permitted (Step graph) route := by
  rw [isEdgePermittedRoute, Bool.and_eq_true, decide_eq_true_iff, authorityPathPermitted_iff, Routes.Permitted]

theorem isEdgePermittedBypass_iff : isEdgePermittedBypass graph route = true ↔ Routes.Bypass (Step graph) route := by
  rw [isEdgePermittedBypass, Bool.and_eq_true, isEdgePermittedRoute_iff, Routes.Bypass]
  refine and_congr_right fun permitted => ?_
  obtain _ | ⟨first, _ | ⟨second, rest⟩⟩ := route
  · exact absurd permitted.1 (by simp)
  · exact absurd permitted.1 (by simp)
  · simp [routeDirectEdge, Step, List.getLast?_eq_some_getLast]

theorem bypassPathMinimal_iff {witness : BypassPathWitness} :
    bypassPathMinimal graph witness = true ↔ Routes.MinimalBypass (Step graph) witness.route := by
  have candidates : routeSublists witness.route = witness.route.sublists := Routes.foldl_extend_eq_sublists _
  simp only [bypassPathMinimal, candidates, Bool.and_eq_true, List.all_eq_true, List.mem_sublists, Bool.or_eq_true, beq_iff_eq,
    Bool.not_eq_true', ← Bool.not_eq_true, isEdgePermittedBypass_iff, isEdgePermittedRoute_iff, Routes.MinimalBypass]
  constructor
  · rintro ⟨⟨-, bypass⟩, minimal⟩
    exact ⟨bypass, fun shorter inside other => (minimal shorter inside).resolve_left other⟩
  · rintro ⟨bypass, minimal⟩
    exact ⟨⟨bypass.1, bypass⟩, fun shorter inside => or_iff_not_imp_left.2 (minimal shorter inside)⟩

/-- A minimal bypass has three nodes, whatever else the graph has; and every bypass has a minimal one among its subsequences. -/
theorem minimal_bypass_routes (graph : AuthorityGraph) :
    (∀ witness : BypassPathWitness, bypassPathMinimal graph witness = true ↔
      ∃ a b c, witness.route = [a, b, c] ∧ graph.hasEdge ⟨a, b⟩ = true ∧ graph.hasEdge ⟨b, c⟩ = true ∧ graph.hasEdge ⟨a, c⟩ = false) ∧
    ∀ route, isEdgePermittedBypass graph route = true →
      ∃ witness : BypassPathWitness, witness.route.Sublist route ∧ bypassPathMinimal graph witness = true := by
  have threeNodes : ∀ witness : BypassPathWitness, bypassPathMinimal graph witness = true ↔
      ∃ a b c, witness.route = [a, b, c] ∧ graph.hasEdge ⟨a, b⟩ = true ∧ graph.hasEdge ⟨b, c⟩ = true ∧ graph.hasEdge ⟨a, c⟩ = false := by
    intro witness
    simp only [bypassPathMinimal_iff, Routes.minimalBypass_iff, Step, Bool.not_eq_true]
  refine ⟨threeNodes, ?_⟩
  intro route bypass
  obtain ⟨a, b, c, inside, first, second, noStep⟩ := (isEdgePermittedBypass_iff.1 bypass).exists_triple
  refine ⟨⟨a, [b], c⟩, inside, (threeNodes _).2 ⟨a, b, c, rfl, first, second, ?_⟩⟩
  exact Bool.not_eq_true _ ▸ noStep

end

section

variable {observation : GovernanceKernelizationObservation}

theorem authorityEdgeDifference_isEmpty_iff {left right : AuthorityGraph} :
    (authorityEdgeDifference left right).isEmpty = true ↔ ∀ edge, left.hasEdge edge = true → right.hasEdge edge = true := by
  simp [authorityEdgeDifference, AuthorityGraph.hasEdge, List.filter_eq_nil_iff]

theorem authorityOverrideDifference_isEmpty_iff {left right : AuthorityGraph} :
    (authorityOverrideDifference left right).isEmpty = true ↔ ∀ edge, left.hasOverride edge = true → right.hasOverride edge = true := by
  simp [authorityOverrideDifference, AuthorityGraph.hasOverride, List.filter_eq_nil_iff]

/-- What a clean observation is: both graphs have the same edges and overrides, each with source evidence, and the kernel is semantic. -/
structure Clean (observation : GovernanceKernelizationObservation) : Prop where
  edges : ∀ edge, observation.effective.hasEdge edge = observation.reported.hasEdge edge
  overrides : ∀ edge, observation.effective.hasOverride edge = observation.reported.hasOverride edge
  evidence : ∀ edge, observation.effective.hasEdge edge = true ∨ observation.effective.hasOverride edge = true →
    sourceDerivesEdge observation.sourceEdges edge = true
  semantic : observation.artifact.semanticKernel = true

theorem kernelizationClean_iff : kernelizationClean observation = true ↔ Clean observation := by
  have evidence : sourceEvidenceComplete observation = true ↔ ∀ edge,
      observation.effective.hasEdge edge = true ∨ observation.effective.hasOverride edge = true →
        sourceDerivesEdge observation.sourceEdges edge = true := by
    simp [sourceEvidenceComplete, AuthorityGraph.hasEdge, AuthorityGraph.hasOverride, or_imp, forall_and]
  simp only [kernelizationClean, authorityExtensionallyEquivalent, Bool.and_eq_true, authorityEdgeDifference_isEmpty_iff,
    authorityOverrideDifference_isEmpty_iff, evidence]
  constructor
  · rintro ⟨⟨⟨⟨⟨unmodeled, missing⟩, hidden⟩, absent⟩, complete⟩, semantic⟩
    exact ⟨fun edge => Bool.eq_iff_iff.2 ⟨unmodeled edge, missing edge⟩, fun edge => Bool.eq_iff_iff.2 ⟨hidden edge, absent edge⟩,
      complete, semantic⟩
  · rintro ⟨edges, overrides, complete, semantic⟩
    refine ⟨⟨⟨⟨⟨?_, ?_⟩, ?_⟩, ?_⟩, complete⟩, semantic⟩
    · exact fun edge => (edges edge).symm ▸ id
    · exact fun edge => edges edge ▸ id
    · exact fun edge => (overrides edge).symm ▸ id
    · exact fun edge => overrides edge ▸ id

theorem routeNodup_iff {route : List String} : routeNodup route = true ↔ route.Nodup := by
  have unique := size_foldl_insert_eq_iff route (∅ : BTreeSet String)
  rw [Std.ExtTreeSet.size_empty, Nat.zero_add] at unique
  rw [routeNodup, beq_iff_eq, unique]
  simp

/-- A validator for which no kernel is semantic without the runtime kernel and the semantic bridge. -/
def Entailing (validator : RuleLayerKernelArtifactValidator) : Prop :=
  ∀ parts, validator.semanticKernel parts = true → validator.runtimeKernel parts = true ∧ validator.semanticBridge parts = true

theorem structural_entailing : Entailing structuralKernelArtifactValidator := by
  intro parts semantic
  exact Bool.and_eq_true_iff.1 semantic

theorem verifyClaim_eq_ok {verdict claimed confirmed : Bool} {error : RuleLayerKernelArtifactVerificationError} :
    verifyClaim verdict claimed error = .ok confirmed ↔ confirmed = verdict ∧ claimed = verdict := by
  unfold verifyClaim
  split <;> rename_i same
  · subst same
    simp [eq_comm]
  · simp only [reduceCtorEq, false_iff, not_and]
    exact fun _ equal => same equal.symm

theorem verify_verdicts {parts : RuleLayerKernelArtifactParts} {claims : RuleLayerKernelArtifactClaims}
    {validator : RuleLayerKernelArtifactValidator} {artifact : RuleLayerKernelArtifact}
    (verified : RuleLayerKernelArtifact.verify parts claims validator = .ok artifact) :
    artifact.runtimeKernel = validator.runtimeKernel parts ∧ artifact.semanticBridge = validator.semanticBridge parts ∧
      artifact.semanticKernel = validator.semanticKernel parts := by
  unfold RuleLayerKernelArtifact.verify at verified
  simp only [ExceptRun.bind_eq_ok, verifyClaim_eq_ok] at verified
  obtain ⟨_, ⟨rfl, -⟩, _, ⟨rfl, -⟩, _, ⟨rfl, -⟩, _, -, _, -, done⟩ := verified
  cases done
  exact ⟨rfl, rfl, rfl⟩

def Verified (validator : RuleLayerKernelArtifactValidator) (artifact : RuleLayerKernelArtifact) : Prop :=
  ∃ parts claims, RuleLayerKernelArtifact.verify parts claims validator = .ok artifact

theorem Verified.entails {validator : RuleLayerKernelArtifactValidator} {artifact : RuleLayerKernelArtifact}
    (verified : Verified validator artifact) (entailing : Entailing validator) (semantic : artifact.semanticKernel = true)
    (locus : SemanticFailureLocus) : semanticFailureLocusFails artifact locus = false := by
  obtain ⟨parts, claims, verified⟩ := verified
  obtain ⟨runtimeKernel, semanticBridge, semanticKernel⟩ := verify_verdicts verified
  obtain ⟨runs, bridged⟩ := entailing parts (semanticKernel ▸ semantic)
  cases locus with
  | runtimeKernel => rw [semanticFailureLocusFails, runtimeKernel, runs, Bool.not_true]
  | semanticBridge => rw [semanticFailureLocusFails, semanticBridge, bridged, Bool.not_true]

/-- The certificates of which one speaks of a difference between the graphs, of missing evidence, or of a kernel that is not semantic. -/
def Contradicts (observation : GovernanceKernelizationObservation) : HiddenAuthorityCertificate → Prop
  | .bypassPath _ => False
  | .semanticBridgeFailure _ => ∃ validator, Entailing validator ∧ Verified validator observation.artifact
  | _ => True

theorem Clean.not_accepted (clean : Clean observation) {certificate : HiddenAuthorityCertificate}
    (contradicts : Contradicts observation certificate) : minimalHiddenAuthority observation certificate = false := by
  rw [← Bool.not_eq_true]
  intro accepted
  cases certificate with
  | unmodeledEdge witness =>
    simp only [minimalHiddenAuthority, authorityEdgeDifference, List.contains_iff_mem, List.mem_filter, Bool.not_eq_true'] at accepted
    have effective : observation.effective.hasEdge witness.edge = true := List.contains_iff_mem.2 accepted.1
    rw [clean.edges, accepted.2] at effective
    cases effective
  | bypassPath _ => exact contradicts
  | hiddenOverride witness =>
    simp only [minimalHiddenAuthority, authorityOverrideDifference, Bool.and_eq_true, List.contains_iff_mem, List.mem_filter,
      Bool.not_eq_true'] at accepted
    have effective : observation.effective.hasOverride witness.overrideEdge = true := List.contains_iff_mem.2 accepted.1.1
    rw [clean.overrides, accepted.1.2] at effective
    cases effective
  | sourceEvidenceGap witness =>
    simp only [minimalHiddenAuthority, sourceEvidenceDerivable, Bool.and_eq_true, Bool.or_eq_true, Bool.not_eq_true'] at accepted
    rw [clean.evidence witness.edge accepted.1] at accepted
    cases accepted.2
  | semanticBridgeFailure witness =>
    obtain ⟨validator, entailing, verified⟩ := contradicts
    simp only [minimalHiddenAuthority, semanticFailureLocusMinimal, Bool.and_eq_true,
      verified.entails entailing clean.semantic witness.failureLocus] at accepted
    cases accepted.2.1

theorem Clean.bypass_accepted_iff (clean : Clean observation) (witness : BypassPathWitness) :
    minimalHiddenAuthority observation (.bypassPath witness) = true ↔
      ∃ a b c, witness.route = [a, b, c] ∧ [a, b, c].Nodup ∧ observation.reported.hasEdge ⟨a, b⟩ = true ∧
        observation.reported.hasEdge ⟨b, c⟩ = true ∧ observation.reported.hasEdge ⟨a, c⟩ = false := by
  have sameSteps : Step observation.effective = Step observation.reported := by
    funext a b
    rw [Step, Step, clean.edges]
  simp only [minimalHiddenAuthority, Bool.and_eq_true, isEdgePermittedRoute_iff, sameSteps, routeNodup_iff, bypassPathMinimal_iff,
    Routes.minimalBypass_iff, Step, Bool.not_eq_true, Bool.not_eq_true', List.isEmpty_eq_false_iff]
  constructor
  · rintro ⟨⟨⟨-, distinct⟩, -⟩, a, b, c, route, steps⟩
    exact ⟨a, b, c, route, route ▸ distinct, steps⟩
  · rintro ⟨a, b, c, route, distinct, steps⟩
    have bypass : Routes.Bypass (Step observation.reported) [a, b, c] := Routes.bypass_triple.2 (by simpa [Step] using steps)
    refine ⟨⟨⟨?_, route ▸ distinct⟩, route ▸ bypass.1⟩, a, b, c, route, steps⟩
    rintro noMiddle
    simp [BypassPathWitness.route, noMiddle] at route

theorem kernelizationHonesty_clean {contract : KernelizationExtractorContract} {witness : KernelizationCleanWitness}
    (honest : kernelizationHonesty observation contract = .ok (.clean witness)) : kernelizationClean observation = true := by
  unfold kernelizationHonesty at honest
  split at honest <;> split at honest <;> cases honest
  rename_i holds
  simp only [KernelizationCleanWitness.holdsFor, Bool.and_eq_true, beq_iff_eq] at holds
  obtain ⟨⟨⟨⟨⟨⟨-, equivalent⟩, complete⟩, semantic⟩, isEquivalent⟩, isComplete⟩, isSemantic⟩ := holds
  rw [kernelizationClean, ← equivalent, ← complete, ← semantic, isEquivalent, isComplete, isSemantic]
  rfl

theorem kernelizationHonesty_hidden {contract : KernelizationExtractorContract} {certificate : HiddenAuthorityCertificate}
    (honest : kernelizationHonesty observation contract = .ok (.hiddenAuthority certificate)) :
    minimalHiddenAuthority observation certificate = true := by
  unfold kernelizationHonesty at honest
  split at honest <;> split at honest <;> cases honest
  assumption

/-- A clean observation has no accepted certificate but that of a bypass which the reported graph shows itself, or of a failure that
no validator has excluded. -/
theorem hidden_authority_exclusive (observation : GovernanceKernelizationObservation) :
    Entailing structuralKernelArtifactValidator ∧
      (∀ certificate, Contradicts observation certificate → minimalHiddenAuthority observation certificate = true →
        kernelizationClean observation = false) ∧
      (∀ witness, kernelizationClean observation = true → (minimalHiddenAuthority observation (.bypassPath witness) = true ↔
        ∃ a b c, witness.route = [a, b, c] ∧ [a, b, c].Nodup ∧ observation.reported.hasEdge ⟨a, b⟩ = true ∧
          observation.reported.hasEdge ⟨b, c⟩ = true ∧ observation.reported.hasEdge ⟨a, c⟩ = false)) ∧
      ∀ clearing accusing witness certificate, kernelizationHonesty observation clearing = .ok (.clean witness) →
        kernelizationHonesty observation accusing = .ok (.hiddenAuthority certificate) → ¬Contradicts observation certificate := by
  refine ⟨structural_entailing, ?_, ?_, ?_⟩
  · intro certificate contradicts accepted
    rw [← Bool.not_eq_true]
    intro clean
    rw [(kernelizationClean_iff.1 clean).not_accepted contradicts] at accepted
    cases accepted
  · intro witness clean
    exact (kernelizationClean_iff.1 clean).bypass_accepted_iff witness
  · intro clearing accusing witness certificate isClean isHidden contradicts
    have accepted := kernelizationHonesty_hidden isHidden
    rw [(kernelizationClean_iff.1 (kernelizationHonesty_clean isClean)).not_accepted contradicts] at accepted
    cases accepted

end

section

def autogenExtractorInput : ExtractorInput where
  sourceId := "audits/fixtures/sources/leaderboard/autogen"
  byteSize := 23978
  sizeBound := 23978
  coverageComplete := true
  parserErrors := 0

def exampleParts : RuleLayerKernelArtifactParts where
  extract := "exampleGovernanceKernelExtractor"
  src := autogenExtractorInput
  reachedData := "exampleGovernanceKernelData"
  trajectory := "KernelGovernedTrajectory.refl exampleGovernanceKernelData"
  compiled := "reductionExampleCompiledGovernance"
  report := "reductionExampleRiskReport"
  monitoring := "reductionExampleMonitoring"

def safetySpecReductionExampleArtifact : Except RuleLayerKernelArtifactVerificationError RuleLayerKernelArtifact :=
  RuleLayerKernelArtifact.verify exampleParts ⟨true, true, true, true, true⟩ structuralKernelArtifactValidator

def bypassPathObservation (artifact : RuleLayerKernelArtifact) : GovernanceKernelizationObservation :=
  let graph : AuthorityGraph := {
    nodes := ["user", "router", "admin"]
    edges := [⟨"user", "router"⟩, ⟨"router", "admin"⟩]
    overrides := [] }
  { artifact := artifact
    reported := graph
    effective := graph
    sourceEdges := [⟨"user", "router"⟩, ⟨"router", "admin"⟩]
    reportedSemanticBridgeClean := true }

/-- A validator of its own making, for which the runtime kernel is semantic whatever the bridge is. -/
def runtimeValidator : RuleLayerKernelArtifactValidator :=
  { structuralKernelArtifactValidator with semanticKernel := structuralKernelArtifactValidator.runtimeKernel }

def failureParts : RuleLayerKernelArtifactParts := { exampleParts with extract := "semanticFailureExtractor" }

/-- The bypass certificate of the source's own example is accepted for an observation that is clean; and where a validator calls a
kernel semantic without its bridge, so is the certificate of the failed bridge. -/
theorem clean_and_hidden :
    (∃ artifact, safetySpecReductionExampleArtifact = .ok artifact ∧ kernelizationClean (bypassPathObservation artifact) = true ∧
      minimalHiddenAuthority (bypassPathObservation artifact) (.bypassPath ⟨"user", ["router"], "admin"⟩) = true ∧
      (kernelizationHonesty (bypassPathObservation artifact) ⟨fun input => .clean ⟨input, true, true, true⟩⟩).toBool = true ∧
      (kernelizationHonesty (bypassPathObservation artifact)
        ⟨fun _ => .hiddenAuthority (.bypassPath ⟨"user", ["router"], "admin"⟩)⟩).toBool = true) ∧
    ∃ artifact, RuleLayerKernelArtifact.verify failureParts ⟨true, false, true, true, true⟩ runtimeValidator = .ok artifact ∧
      kernelizationClean (bypassPathObservation artifact) = true ∧
      minimalHiddenAuthority (bypassPathObservation artifact) (.semanticBridgeFailure ⟨.semanticBridge⟩) = true := by
  refine ⟨⟨{ exampleParts, (⟨true, true, true, true, true⟩ : RuleLayerKernelArtifactClaims) with }, ?_, ?_, ?_, ?_, ?_⟩,
    ⟨{ failureParts, (⟨true, false, true, true, true⟩ : RuleLayerKernelArtifactClaims) with }, ?_, ?_, ?_⟩⟩ <;> decide +kernel

end

end Legitimacy.Kernelization
