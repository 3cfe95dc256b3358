import Legitimacy.CheckAvailability
import Legitimacy.DriftAlerts
import Legitimacy.Revision

namespace Legitimacy.Protocol

open ExceptRun
open Diagnostics (polarityFor auditMetricPolaritySchema)

/-- A claim that every check can evaluate: it is valid, provides what the nodes read, its metrics are known to the polarity schema,
and the values that the checks perturb stay acceptable. -/
structure Equipped (graph : GovernanceGraph) (claim : GovernanceClaim) : Prop where
  valid : validateGovernanceClaim claim = .ok ()
  provides : ∀ entry ∈ graph.nodes.toList, ∀ field ∈ referencedFields entry.2, claim.Provides field
  declared : ∀ field ∈ claim.metrics.keys, (polarityFor auditMetricPolaritySchema field).isSome = true
  strengthened : ValidStrength (claim.strength + 0.1)
  misreportable : Misreportable claim
  shifted : ∀ entry ∈ claim.metrics.toList, (entry.2 + 1).isFinite = true ∧ (entry.2 + -1).isFinite = true

instance (graph : GovernanceGraph) (claim : GovernanceClaim) : Decidable (Equipped graph claim) :=
  decidable_of_iff (validateGovernanceClaim claim = .ok () ∧ (∀ entry ∈ graph.nodes.toList, ∀ field ∈ referencedFields entry.2, claim.Provides field) ∧
      (∀ field ∈ claim.metrics.keys, (polarityFor auditMetricPolaritySchema field).isSome = true) ∧ ValidStrength (claim.strength + 0.1) ∧
      Misreportable claim ∧ ∀ entry ∈ claim.metrics.toList, (entry.2 + 1).isFinite = true ∧ (entry.2 + -1).isFinite = true)
    ⟨fun ⟨valid, provides, declared, strengthened, misreportable, shifted⟩ =>
      ⟨valid, provides, declared, strengthened, misreportable, shifted⟩,
    fun equipped => ⟨equipped.valid, equipped.provides, equipped.declared, equipped.strengthened, equipped.misreportable, equipped.shifted⟩⟩

/-- A claim whose values the checks can move: neither the strength nor a metric leaves the range. -/
structure Perturbable (claim : GovernanceClaim) : Prop where
  strengthened : ValidStrength (claim.strength + 0.1)
  misreportable : Misreportable claim
  shifted : ∀ entry ∈ claim.metrics.toList, (entry.2 + 1).isFinite = true ∧ (entry.2 + -1).isFinite = true

theorem Equipped.perturbable {graph : GovernanceGraph} {claim : GovernanceClaim} (equipped : Equipped graph claim) : Perturbable claim :=
  ⟨equipped.strengthened, equipped.misreportable, equipped.shifted⟩

theorem Perturbable.finite {claim : GovernanceClaim} (perturbable : Perturbable claim) {field : String} {value : Float}
    (found : claim.metrics[field]? = some value) : (value + 1).isFinite = true ∧ (value + -1).isFinite = true :=
  perturbable.shifted (field, value) (Std.ExtTreeMap.mem_toList_iff_getElem?_eq_some.2 found)

section

variable {regexes : RegexEngine} {graph : GovernanceGraph} {claims : List GovernanceClaim}

theorem mem_graphFields {field : String} :
    field ∈ graphFields claims ↔ field = "strength" ∨ ∃ claim ∈ claims, field ∈ claim.metrics := by
  have batched : ∀ (claims : List GovernanceClaim) (start : BTreeSet String),
      (claims.foldl (fun fields claim => claim.metrics.keys.foldl (fun fields field => fields.insert field) fields) start).contains
        field = true ↔ start.contains field = true ∨ ∃ claim ∈ claims, field ∈ claim.metrics := by
    intro claims
    induction claims with
    | nil => simp
    | cons claim rest ih =>
      intro start
      have inner : (claim.metrics.keys.foldl (fun fields field => fields.insert field) start).contains field = true ↔
          start.contains field = true ∨ field ∈ claim.metrics := by
        rw [@contains_foldl_insert String String _ _ _ (fun field => field)]
        simp
      rw [List.foldl_cons, ih, inner, List.exists_mem_cons_iff, or_assoc]
  unfold graphFields
  rw [Std.ExtTreeSet.mem_toList, ← Std.ExtTreeSet.contains_iff_mem, batched, @eq_comm _ field]
  simp

theorem Perturbable.tolerates {claim : GovernanceClaim} (perturbable : Perturbable claim) (field : String) :
    Tolerates claim field (fieldDelta field) := by
  unfold Tolerates fieldDelta
  by_cases isStrength : field = "strength"
  · rw [if_pos isStrength, if_pos isStrength]
    exact perturbable.strengthened
  · rw [if_neg isStrength, if_neg isStrength]
    cases atField : claim.metrics[field]? with
    | none => decide +kernel
    | some value => exact (perturbable.finite atField).1

theorem Perturbable.lowers {claim : GovernanceClaim} (perturbable : Perturbable claim) {field : String} (isMetric : field ≠ "strength") :
    Tolerates claim field (-fieldDelta field) := by
  unfold Tolerates fieldDelta
  rw [if_neg isMetric, if_neg isMetric]
  cases atField : claim.metrics[field]? with
  | none => decide +kernel
  | some value => exact (perturbable.finite atField).2

theorem strength_polarity : polarityFor auditMetricPolaritySchema "strength" = some .higherBetter := rfl

theorem improves_of_perturbable (perturbable : ∀ claim ∈ claims, Perturbable claim) {delta : BinaryDelta} (listed : delta ∈ graphDeltas claims) :
    Diagnostics.Improves claims auditMetricPolaritySchema delta := by
  obtain ⟨field, -, rfl⟩ := List.mem_map.1 listed
  intro polarity known improved isImproved claim inClaims
  cases polarity with
  | higherBetter =>
    obtain rfl := Option.some.inj isImproved
    exact (perturbable claim inClaims).tolerates field
  | lowerBetter =>
    obtain rfl := Option.some.inj isImproved
    refine (perturbable claim inClaims).lowers fun isStrength => ?_
    obtain rfl : field = "strength" := isStrength
    cases strength_polarity.symm.trans known
  | diagnosticPresence => cases isImproved

theorem improvable_of_equipped (equipped : ∀ claim ∈ claims, Equipped graph claim) {delta : BinaryDelta}
    (listed : delta ∈ graphDeltas claims) : Diagnostics.Improvable claims auditMetricPolaritySchema delta := by
  have improves := improves_of_perturbable (fun claim inClaims => (equipped claim inClaims).perturbable) listed
  suffices declared : ∃ polarity, polarityFor auditMetricPolaritySchema delta.field = some polarity from
    declared.imp fun polarity found => ⟨found, improves polarity found⟩
  obtain ⟨field, known, rfl⟩ := List.mem_map.1 listed
  rcases mem_graphFields.1 known with rfl | ⟨claim, inClaims, metric⟩
  · exact ⟨.higherBetter, strength_polarity⟩
  · exact Option.isSome_iff_exists.1 ((equipped claim inClaims).declared field (Std.ExtTreeMap.mem_keys.2 metric))

theorem admits_of_equipped (validated : validateGovernanceClaims claims = .ok ()) (equipped : ∀ claim ∈ claims, Equipped graph claim) :
    graph.Admits claims :=
  ⟨validated, metricsProvided_of_toList fun entry listed field read claim inClaims => (equipped claim inClaims).provides entry listed field read⟩

/-- A graph that some evaluation got through: every check that depends on the graph alone can be made again. -/
structure Ground (regexes : RegexEngine) (graph : GovernanceGraph) : Prop where
  runnable : graph.Runnable regexes
  probed : graph.Probed

/-- Only the polarity schema and the limits of the determinacy probe stop the evaluation of a batch that can be perturbed. -/
theorem evaluateGraph_ends (runnable : graph.Runnable regexes) (admits : graph.Admits claims)
    (perturbable : ∀ claim ∈ claims, Perturbable claim) (small : claims.length < 2 ^ 64) :
    (∃ evaluation, evaluateGraph regexes graph claims = .ok evaluation) ∨
    (∃ delta ∈ graphDeltas claims, polarityFor auditMetricPolaritySchema delta.field = none ∧
      evaluateGraph regexes graph claims = .error (.verdict (Diagnostics.missingPolarity delta.field))) ∨
    graph.BeyondProbe ∧ ∃ reason, evaluateGraph regexes graph claims = .error (.skippedKernelCheck "graph observable determinacy" reason) := by
  obtain ⟨decisions, run, -⟩ := runnable.decides admits
  obtain ⟨consistency, consistent⟩ := Diagnostics.checkGraphConsistency_ok runnable admits
  obtain ⟨solidarity, solid⟩ := @Diagnostics.checkGraphSolidarity_ok regexes graph claims runnable admits (graphShocks claims)
    (fun shock listed claim inClaims => by
      obtain ⟨field, -, rfl⟩ := List.mem_map.1 listed
      exact (perturbable claim inClaims).tolerates field)
  obtain ⟨replayed, certifiable⟩ := checkGraphCertifiability_pass runnable admits
  have corrigible := checkGraphCorrigibility_pass runnable.toSound admits.validated
  have safe := checkGraphCompositionalSafety_pass runnable.closed runnable.acyclic run
  obtain ⟨nonvacuity, outcome, live, required⟩ := checkGraphNonvacuity_ok runnable admits small
  obtain ⟨strategyproofness, truthful⟩ := checkGraphStrategyproofness_ok runnable admits fun claim listed => (perturbable claim listed).misreportable
  unfold evaluateGraph
  rw [lift_eq_ok.2 consistent, lift_eq_ok.2 solid]
  simp only [bind, Except.bind]
  rcases Diagnostics.monotonicityCheck_ends runnable admits fun delta listed => improves_of_perturbable perturbable listed with
    ⟨monotonicity, monotone⟩ | ⟨delta, listed, unknown, refused⟩
  · rw [lift_eq_ok.2 monotone, lift_eq_ok.2 certifiable]
    rcases checkGraphObservableDeterminacy_ends runnable admits with ⟨compared, determinate⟩ | ⟨beyond, reason, skipped⟩
    · rw [lift_eq_ok.2 determinate, lift_eq_ok.2 corrigible, lift_eq_ok.2 safe, lift_eq_ok.2 live, lift_eq_ok.2 truthful]
      have passes : ∀ kernelAxiom tested, requireProtocolKernelVerdict (.pass kernelAxiom tested) =
          .ok (.admissible kernelAxiom.graphAxiomName tested) := fun _ _ => rfl
      simp only [passes, required]
      exact .inl ⟨_, rfl⟩
    · rw [lift_eq_ok.2 skipped]
      exact .inr (.inr ⟨beyond, reason, rfl⟩)
  · rw [refused]
    exact .inr (.inl ⟨delta, listed, unknown, rfl⟩)

theorem evaluateGraph_ok (ground : Ground regexes graph) (validated : validateGovernanceClaims claims = .ok ())
    (equipped : ∀ claim ∈ claims, Equipped graph claim) (small : claims.length < 2 ^ 64) :
    ∃ evaluation, evaluateGraph regexes graph claims = .ok evaluation := by
  rcases evaluateGraph_ends ground.runnable (admits_of_equipped validated equipped) (fun claim listed => (equipped claim listed).perturbable) small with
    evaluated | ⟨delta, listed, unknown, -⟩ | ⟨beyond, -⟩
  · exact evaluated
  · obtain ⟨polarity, found, -⟩ := improvable_of_equipped equipped listed
    cases unknown.symm.trans found
  · exact absurd beyond ground.probed.not_beyond

end

section

variable {regexes : RegexEngine} {graph : GovernanceGraph} {claims : List GovernanceClaim}

theorem validated_of_consistency {verdict : Verdict} (checked : Diagnostics.checkGraphConsistency regexes graph claims = .ok verdict) :
    ∃ decisions, traverseFinalDecisions regexes graph claims = .ok decisions := by
  obtain ⟨original, based, -⟩ := bind_eq_ok.1 checked
  obtain ⟨decisions, run, -⟩ := bind_eq_ok.1 based
  exact ⟨decisions, run⟩

theorem validated_of_traversal {decisions : BTreeMap ClaimantId Decision} (run : traverseFinalDecisions regexes graph claims = .ok decisions) :
    validateGovernanceClaims claims = .ok () := by
  obtain ⟨entries, final, traversed, -⟩ := traverseFinalDecisions_eq_ok.1 run
  obtain ⟨⟨⟩, validated, -⟩ := bind_eq_ok.1 traversed
  exact validated

/-- A graph that was evaluated once is acyclic, well formed, without proportional nodes, and small enough to probe all its orders. -/
theorem ground_of_evaluated {evaluation : GraphEvaluation} (evaluated : evaluateGraph regexes graph claims = .ok evaluation) :
    Ground regexes graph := by
  have passed := evaluateGraph_passed evaluated
  have valid := evaluateGraph_valid evaluated
  have closed := closed_of_valid valid
  obtain ⟨compositional, safe, composed, requiredSafety⟩ := passed.compositionalSafety
  have nonempty := checkGraphCompositionalSafety_nonempty composed requiredSafety
  obtain ⟨verdict, consistent⟩ := passed.consistency
  obtain ⟨decisions, run⟩ := validated_of_consistency consistent
  obtain ⟨outcome, observed, determinate, required⟩ := passed.observable
  obtain ⟨cycles, -, determinate⟩ := bind_eq_ok.1 determinate
  split at determinate
  · obtain rfl := Except.ok.inj determinate
    cases required
  rw [if_neg (by simp [nonempty])] at determinate
  obtain ⟨canonicalOrder, ordered, determinate⟩ := bind_eq_ok.1 determinate
  have canonical : graph.LegalOrder canonicalOrder := legal_of_topologicalOrder closed ordered
  have acyclic : graph.Acyclic := canonical.acyclic fun node next link => (closed.ends link).2
  obtain ⟨evaluatedDecisions, -, determinate⟩ := bind_eq_ok.1 determinate
  split at determinate
  · obtain rfl := Except.ok.inj determinate
    cases required
  next small =>
  obtain ⟨count, counted, determinate⟩ := bind_eq_ok.1 determinate
  split at determinate
  · obtain rfl := Except.ok.inj determinate
    cases required
  next few =>
  exact ⟨⟨⟨nonempty, acyclic, valid⟩, plain_of_traversal closed acyclic run⟩, ⟨canonicalOrder, ordered⟩, small, ⟨count, counted, few⟩,
    Observable.allTopologicalOrders_ok closed acyclic⟩

end

section

variable {host : ProtocolHost} {state next : ProtocolState}

def ProtocolState.representatives : ProtocolState → List GovernanceClaim
  | .measured _ _ _ _ _ representativeClaims => representativeClaims
  | .live monitorSession _ _ => monitorSession.representativeClaims
  | .supervised _ monitorSession _ _ => monitorSession.representativeClaims
  | .drifted _ monitorSession _ _ => monitorSession.representativeClaims
  | _ => []

/-- The accumulated claims are a valid batch, and a live state is one that validation accepts. -/
structure Represented (host : ProtocolHost) (state : ProtocolState) : Prop where
  claims : validateGovernanceClaims state.representatives = .ok ()
  live : ∀ monitorSession ledger declaration, state = .live monitorSession ledger declaration → state.validate host = .ok ()

theorem validated_of_evaluated {regexes : RegexEngine} {graph : GovernanceGraph} {claims : List GovernanceClaim} {evaluation : GraphEvaluation}
    (evaluated : evaluateGraph regexes graph claims = .ok evaluation) : validateGovernanceClaims claims = .ok () := by
  obtain ⟨verdict, consistent⟩ := (evaluateGraph_passed evaluated).consistency
  obtain ⟨decisions, run⟩ := validated_of_consistency consistent
  exact validated_of_traversal run

theorem measure_represented {representativeClaims : List GovernanceClaim} (measured : measure host state representativeClaims = .ok next) :
    Represented host next := by
  obtain ⟨⟨⟩, -, measured⟩ := bind_eq_ok.1 measured
  cases state with
  | compiled compiledGraph sacrificeCerts declaration =>
    obtain ⟨evaluation, evaluated, measured⟩ := bind_eq_ok.1 measured
    obtain ⟨⟨⟩, -, made⟩ := bind_eq_ok.1 measured
    obtain rfl := Except.ok.inj made
    exact ⟨validated_of_evaluated evaluated, fun _ _ _ live => nomatch live⟩
  | _ => cases measured

theorem activate_represented (holds : Represented host state) {monitorConfig : MonitorConfig}
    (activated : activate host state monitorConfig = .ok next) : Represented host next := by
  obtain ⟨⟨⟩, -, activated⟩ := bind_eq_ok.1 activated
  cases state with
  | measured riskReport factorExposure compiledGraph sacrificeCerts declaration representativeClaims =>
    obtain ⟨⟨⟩, validated, made⟩ := bind_eq_ok.1 activated
    obtain rfl := Except.ok.inj made
    exact ⟨holds.claims, fun _ _ _ _ => validated⟩
  | _ => cases activated

theorem checkDecision_represented {claim : GovernanceClaim} {order : HashOrder} {now : Except LegitimacyError String}
    {issued : PromotionCertificate} (checked : checkDecision host state claim order now = .ok (next, issued)) : Represented host next := by
  obtain ⟨⟨⟩, -, checked⟩ := bind_eq_ok.1 checked
  cases state with
  | live monitorSession ledger declaration =>
    obtain ⟨traversal, traversed, checked⟩ := bind_eq_ok.1 checked
    dsimp only at checked
    split at checked
    · cases checked
    · obtain ⟨timestamp, -, checked⟩ := bind_eq_ok.1 checked
      obtain ⟨alerts, -, checked⟩ := bind_eq_ok.1 checked
      obtain ⟨⟨⟩, validated, made⟩ := bind_eq_ok.1 checked
      obtain ⟨rfl, rfl⟩ := Prod.mk.inj (Except.ok.inj made)
      exact ⟨validated_of_traversal (traverse_final (lift_eq_ok.1 traversed)), fun _ _ _ _ => validated⟩
  | _ => cases checked

theorem step_represented {operation : Operation} (holds : Represented host state) (stepped : step host state operation = .ok next) :
    Represented host next := by
  have none : ∀ {state : ProtocolState}, state.representatives = [] → state.ledger? = .none → Represented host state := by
    intro state nobody noLedger
    refine ⟨nobody ▸ rfl, fun monitorSession ledger declaration live => ?_⟩
    rw [live] at noLedger
    cases noLedger
  cases operation with
  | declare graph sacrifices now =>
    obtain ⟨evaluation, declaration, -, -, -, -, rfl⟩ := declareWithMetadata_eq_ok stepped
    exact none rfl rfl
  | compile now =>
    obtain ⟨graph, sacrifices, declaration, evaluation, compiledGraph, -, -, -, -, -, -, -, rfl⟩ := compile_eq_ok stepped
    exact none rfl rfl
  | measure representativeClaims => exact measure_represented stepped
  | activate monitorConfig => exact activate_represented holds stepped
  | checkDecision claim order now =>
    obtain ⟨⟨result, issued⟩, checked, made⟩ := bind_eq_ok.1 stepped
    obtain rfl := Except.ok.inj made
    exact checkDecision_represented checked
  | reportDrift violation =>
    obtain ⟨monitorSession, ledger, declaration, rfl, rfl⟩ := reportDrift_eq_ok stepped
    exact ⟨holds.claims, fun _ _ _ live => nomatch live⟩
  | supervise action reason now =>
    obtain ⟨graph, monitorSession, ledger, declaration, directive, intervention, active, -, -, -, -, -, rfl⟩ := supervise_eq_ok stepped
    refine ⟨?_, fun _ _ _ live => nomatch live⟩
    rcases activeOverlay_eq_ok active with ⟨rfl, -⟩ | ⟨earlier, rfl, -⟩
    · exact holds.claims
    · exact holds.claims
  | proposeRevision newGraph revisedSacrifices =>
    obtain ⟨driftReport, monitorSession, ledger, declaration, -, rfl⟩ := proposeRevision_eq_ok stepped
    exact none rfl rfl
  | recompile declaredAt compiledAt =>
    obtain ⟨proposedGraph, sacrifices, declaration, declared, -, -, compiled⟩ := recompile_eq_ok stepped
    obtain ⟨graph, sacrifices, declaration, evaluation, compiledGraph, -, -, -, -, -, -, -, rfl⟩ := compile_eq_ok compiled
    exact none rfl rfl

theorem reached_live {operations : List Operation} {monitorSession : MonitorSession} {ledger : ProtocolLedger}
    {declaration : GovernanceDeclaration} (reached : run host operations = .ok (.live monitorSession ledger declaration)) :
    (ProtocolState.live monitorSession ledger declaration).validate host = .ok () ∧
      validateGovernanceClaims monitorSession.representativeClaims = .ok () ∧ Ground host.regexes monitorSession.compiledGraph.graph := by
  have invariant : Lifecycle host (.live monitorSession ledger declaration) ∧ Represented host (.live monitorSession ledger declaration) := by
    have initial : Lifecycle host .undeclared ∧ Represented host .undeclared := ⟨trivial, rfl, fun _ _ _ live => nomatch live⟩
    refine foldlM_invariant (fun _ state => Lifecycle host state ∧ Represented host state) initial ?_ reached
    intro done operation rest state next _ holds stepped
    exact ⟨step_lifecycle holds.1 stepped, step_represented holds.2 stepped⟩
  obtain ⟨evaluation, certified⟩ := invariant.1.certified
  refine ⟨invariant.2.live _ _ _ rfl, invariant.2.claims, ?_⟩
  rw [certified.graph]
  exact ground_of_evaluated certified.evaluated

theorem mergeRepresentativeClaims_validated {representativeClaims : List GovernanceClaim} {claim : GovernanceClaim}
    (validated : validateGovernanceClaims representativeClaims = .ok ()) (valid : validateGovernanceClaim claim = .ok ()) :
    validateGovernanceClaims (mergeRepresentativeClaims representativeClaims claim) = .ok () := by
  obtain ⟨each, distinct⟩ := validateGovernanceClaims_eq_ok.1 validated
  refine validateGovernanceClaims_eq_ok.2 ⟨fun other listed => ?_, ?_⟩
  · rcases List.mem_append.1 listed with earlier | last
    · exact each other (List.mem_filter.1 earlier).1
    · exact List.mem_singleton.1 last ▸ valid
  · unfold mergeRepresentativeClaims
    rw [List.map_append, List.nodup_append]
    refine ⟨distinct.sublist (List.filter_sublist.map _), List.nodup_singleton _, ?_⟩
    rintro claimant earlier _ last rfl
    obtain ⟨other, kept, rfl⟩ := List.mem_map.1 earlier
    exact of_decide_eq_true (List.mem_filter.1 kept).2 (List.mem_singleton.1 last)

end

section

variable {host : ProtocolHost}

theorem require_eq_ok {condition : Bool} {reason : String} : require condition reason = .ok () ↔ condition = true := check_eq_ok

theorem validateDriftAlert_eq_ok {alert : GovernanceDriftAlert} :
    validateDriftAlert alert = .ok () ↔ isBound alert.declaredBound = true ∧ isBound alert.actualMagnitude = true := by
  unfold validateDriftAlert
  rw [bind_eq_ok, require_eq_ok]
  constructor
  · rintro ⟨⟨⟩, declared, measured⟩
    exact ⟨require_eq_ok.1 declared, measured⟩
  · rintro ⟨declared, measured⟩
    exact ⟨(), require_eq_ok.2 declared, measured⟩

theorem driftAlert_bounded {sacrificeCerts : List SacrificeCertificate} (bounded : ∀ cert ∈ sacrificeCerts, isBound cert.impactBound = true)
    (property : GovernanceProperty) {violation : GraphViolation} (measured : isBound violation.actualMagnitude = true) :
    ∃ outcome, driftAlert sacrificeCerts property.asStr violation = .ok outcome ∧
      ∀ alert ∈ outcome, validateDriftAlert alert = .ok () := by
  have declared : isBound (((sacrificeCerts.reverse.find? fun cert => cert.property.asStr = property.asStr).map (·.impactBound)).getD 0) =
      true := by
    cases found : sacrificeCerts.reverse.find? fun cert => cert.property.asStr = property.asStr with
    | none => decide +kernel
    | some cert => exact bounded cert (List.mem_reverse.1 (List.mem_of_find?_eq_some found))
  unfold driftAlert
  rw [propertyFromStr_asStr]
  dsimp only
  split
  · exact ⟨_, rfl, fun alert same => Option.mem_some_iff.1 same ▸ validateDriftAlert_eq_ok.2 ⟨declared, measured⟩⟩
  · exact ⟨none, rfl, fun alert impossible => nomatch impossible⟩

theorem detectDriftAlerts_ok {regexes : RegexEngine} {monitorSession : MonitorSession} {claims : List GovernanceClaim}
    {evaluation : GraphEvaluation} (evaluated : evaluateGraph regexes monitorSession.compiledGraph.graph claims = .ok evaluation)
    (bounded : ∀ cert ∈ monitorSession.sacrificeCerts, isBound cert.impactBound = true) (order : HashOrder) :
    ∃ alerts, detectDriftAlerts regexes monitorSession claims order = .ok alerts ∧ ∀ alert ∈ alerts, validateDriftAlert alert = .ok () := by
  have answered : ∀ entry ∈ order.walk evaluation.violations.toList, ∃ outcome,
      driftAlert monitorSession.sacrificeCerts entry.1 entry.2 = .ok outcome ∧ ∀ alert ∈ outcome, validateDriftAlert alert = .ok () := by
    intro entry listed
    have found := Std.ExtTreeMap.mem_toList_iff_getElem?_eq_some.1 ((order.walk_perm _).mem_iff.1 listed)
    obtain ⟨property, named⟩ := violation_key evaluated found
    rw [named] at found ⊢
    exact driftAlert_bounded bounded property (violation_isBound evaluated found)
  obtain ⟨outcomes, walked⟩ := exists_mapM fun entry listed => (answered entry listed).imp fun _ both => both.1
  refine ⟨outcomes.filterMap id, bind_eq_ok.2 ⟨evaluation, evaluated, bind_eq_ok.2 ⟨outcomes, walked, rfl⟩⟩, fun alert listed => ?_⟩
  obtain ⟨outcome, member, isAlert⟩ := List.mem_filterMap.1 listed
  obtain ⟨entry, inWalk, made⟩ := exists_partner (mapM_eq_ok.1 walked).flip member
  obtain ⟨other, again, valid⟩ := answered entry inWalk
  obtain rfl : other = outcome := Except.ok.inj (again.symm.trans made)
  exact valid alert isAlert

theorem validateLedger_eq_ok {ledger : ProtocolLedger} : validateLedger host ledger false = .ok () ↔
    chainTail host none ledger.certificates = .ok ledger.headHash ∧ ∀ alert ∈ ledger.driftAlerts, validateDriftAlert alert = .ok () := by
  unfold validateLedger
  cases tail : chainTail host none ledger.certificates with
  | error failure => simp
  | ok prevHash =>
    dsimp only
    rw [Except.ok.injEq, ← forM_eq_ok, @eq_comm _ prevHash]
    constructor
    · intro valid
      split at valid
      · cases valid
      · next same => exact ⟨not_not.1 same, valid⟩
    · rintro ⟨same, alerts⟩
      rw [if_neg (not_not.2 same)]
      exact alerts

theorem validateLedger_append {ledger : ProtocolLedger} (valid : validateLedger host ledger false = .ok ()) {issued : PromotionCertificate}
    (follows : issued.prevCertHash = ledger.headHash) {alerts : List GovernanceDriftAlert}
    (bounded : ∀ alert ∈ alerts, validateDriftAlert alert = .ok ()) :
    validateLedger host ⟨ledger.certificates ++ [issued], ledger.driftAlerts ++ alerts, some (certificateHash host issued)⟩ false =
      .ok () := by
  obtain ⟨tail, earlier⟩ := validateLedger_eq_ok.1 valid
  refine validateLedger_eq_ok.2 ⟨?_, fun alert listed => (List.mem_append.1 listed).elim (earlier alert) (bounded alert)⟩
  rw [chainTail_append tail, chainTail, if_neg (not_not.2 follows)]
  rfl

/-- In a live state that validates, a claim is decided whenever the accumulated batch can be traversed and evaluated. -/
theorem checkDecision_of_evaluated {monitorSession : MonitorSession} {ledger : ProtocolLedger} {declaration : GovernanceDeclaration}
    (validated : (ProtocolState.live monitorSession ledger declaration).validate host = .ok ()) {claim : GovernanceClaim}
    {result : TraversalResult} (traversed : traverse host.regexes monitorSession.compiledGraph.graph
      (mergeRepresentativeClaims monitorSession.representativeClaims claim) = .ok result)
    {decision : Decision} (decided : result.finalDecisions[claim.claimantId]? = some decision) {evaluation : GraphEvaluation}
    (evaluated : evaluateGraph host.regexes monitorSession.compiledGraph.graph
      (mergeRepresentativeClaims monitorSession.representativeClaims claim) = .ok evaluation) (order : HashOrder) (timestamp : String) :
    ∃ next issued, checkDecision host (.live monitorSession ledger declaration) claim order (.ok timestamp) = .ok (next, issued) ∧
      issued.claimantId = claim.claimantId ∧ issued.decision = decision := by
  obtain ⟨⟨⟩, basics, rest⟩ := bind_eq_ok.1 validated
  obtain ⟨⟨⟩, session, entries⟩ := bind_eq_ok.1 rest
  have bounded : ∀ cert ∈ monitorSession.sacrificeCerts, isBound cert.impactBound = true := by
    obtain ⟨⟨⟩, -, rest⟩ := bind_eq_ok.1 session
    obtain ⟨⟨⟩, aligned, -⟩ := bind_eq_ok.1 rest
    obtain ⟨⟨⟩, -, rest⟩ := bind_eq_ok.1 aligned
    obtain ⟨⟨⟩, -, certs⟩ := bind_eq_ok.1 rest
    exact fun cert listed => require_eq_ok.1 (forM_eq_ok.1 certs cert listed)
  obtain ⟨alerts, detected, valid⟩ := detectDriftAlerts_ok evaluated bounded order
  let claims := mergeRepresentativeClaims monitorSession.representativeClaims claim
  let issued : PromotionCertificate := {
    ruleName := monitorSession.compiledGraph.name
    claimantId := claim.claimantId
    decision := decision
    outcomeVerified := true
    evidence := Std.ExtTreeMap.ofList [
      ("graph_nodes", toString monitorSession.compiledGraph.graph.nodes.size),
      ("graph_edges", toString monitorSession.compiledGraph.graph.edges.length),
      ("interval_seconds", toString monitorSession.intervalSeconds)] compare
    compiledRuleHash := monitorSession.compiledGraph.compiledRuleHash
    prevCertHash := ledger.headHash
    timestamp := timestamp }
  let after : ProtocolLedger := ⟨ledger.certificates ++ [issued], ledger.driftAlerts ++ alerts, some (certificateHash host issued)⟩
  let next : ProtocolState := .live { monitorSession with representativeClaims := claims } after declaration
  have nextValid : next.validate host = .ok () :=
    bind_eq_ok.2 ⟨(), basics, bind_eq_ok.2 ⟨(), session, validateLedger_append entries rfl valid⟩⟩
  refine ⟨next, issued, bind_eq_ok.2 ⟨(), validated, bind_eq_ok.2 ⟨result, lift_eq_ok.2 traversed, ?_⟩⟩, rfl, rfl⟩
  dsimp only
  rw [decided]
  exact bind_eq_ok.2 ⟨timestamp, rfl, bind_eq_ok.2 ⟨alerts, detected, bind_eq_ok.2 ⟨(), nextValid, rfl⟩⟩⟩

end

/-- In every live state of every run a claim gets the decision of the accumulated batch, whatever order the violations are walked in,
provided that it and the accumulated claims of the other claimants can all be evaluated. -/
theorem checkDecision_available (host : ProtocolHost) (operations : List Operation) (monitorSession : MonitorSession)
    (ledger : ProtocolLedger) (declaration : GovernanceDeclaration)
    (reached : run host operations = .ok (.live monitorSession ledger declaration)) (claim : GovernanceClaim)
    (equipped : ∀ other ∈ mergeRepresentativeClaims monitorSession.representativeClaims claim,
      Equipped monitorSession.compiledGraph.graph other)
    (countable : (mergeRepresentativeClaims monitorSession.representativeClaims claim).length < 2 ^ 64)
    (order : HashOrder) (timestamp : String) :
    ∃ next issued result, checkDecision host (.live monitorSession ledger declaration) claim order (.ok timestamp) = .ok (next, issued) ∧
      issued.claimantId = claim.claimantId ∧
      traverse host.regexes monitorSession.compiledGraph.graph (mergeRepresentativeClaims monitorSession.representativeClaims claim) =
        .ok result ∧ result.finalDecisions[claim.claimantId]? = some issued.decision := by
  have newest : claim ∈ mergeRepresentativeClaims monitorSession.representativeClaims claim := by simp [mergeRepresentativeClaims]
  obtain ⟨validated, accumulated, ground⟩ := reached_live reached
  have merged := mergeRepresentativeClaims_validated accumulated (equipped claim newest).valid
  obtain ⟨result, traversed, all⟩ := ground.runnable.traverses (admits_of_equipped merged equipped)
  obtain ⟨decision, decided⟩ := all claim newest
  obtain ⟨evaluation, evaluated⟩ := evaluateGraph_ok ground merged equipped countable
  obtain ⟨next, issued, checked, sameClaimant, rfl⟩ := checkDecision_of_evaluated validated traversed decided evaluated order timestamp
  exact ⟨next, issued, result, checked, sameClaimant, traversed, decided⟩

/-- Whether an outcome is a live state in which `claim` and the accumulated claims are equipped and few enough to count. -/
def equippedFor (claim : GovernanceClaim) : Except ProtocolError ProtocolState → Bool
  | .ok (.live monitorSession _ _) =>
    let claims := mergeRepresentativeClaims monitorSession.representativeClaims claim
    claims.all (fun other => decide (Equipped monitorSession.compiledGraph.graph other)) && decide (claims.length < 2 ^ 64)
  | _ => false

theorem equippedFor_live {claim : GovernanceClaim} {outcome : Except ProtocolError ProtocolState} (accepted : equippedFor claim outcome = true) :
    ∃ monitorSession ledger declaration, outcome = .ok (.live monitorSession ledger declaration) ∧
      (∀ other ∈ mergeRepresentativeClaims monitorSession.representativeClaims claim, Equipped monitorSession.compiledGraph.graph other) ∧
      (mergeRepresentativeClaims monitorSession.representativeClaims claim).length < 2 ^ 64 := by
  unfold equippedFor at accepted
  split at accepted
  · obtain ⟨each, few⟩ := Bool.and_eq_true_iff.1 accepted
    exact ⟨_, _, _, rfl, fun other listed => of_decide_eq_true (List.all_eq_true.1 each other listed), of_decide_eq_true few⟩
  · cases accepted

def sessionOperations (graph : GovernanceGraph) (sacrifices : List DeclaredSacrifice) (claims : List GovernanceClaim) : List Operation :=
  [.declare graph sacrifices (.ok "2026-01-01T00:00:00Z"), .compile (.ok "2026-01-01T00:00:01Z"), .measure claims, .activate ⟨60, 60, 0⟩]

def peerGraph : GovernanceGraph where
  nodes := Std.ExtTreeMap.ofList [
    (⟨"entry", entry_named⟩, .binary ⟨"entry", entry_named⟩ "entry"
      [.exactMatch "safe_action" .permit, .peerRelative "strength" 0.9 .permit] .escalate .firstMatch),
    (⟨"signal", by decide⟩, .threshold ⟨"signal", by decide⟩ "signal" 0.5 "audit_signal")] compare
  edges := [⟨⟨"entry", entry_named⟩, ⟨"signal", by decide⟩, .passThrough⟩]

def metricClaim (claimantId : ClaimantId) (strength : Float) (field : String) (value : Float) : GovernanceClaim :=
  { plainClaim claimantId strength with metrics := Std.ExtTreeMap.ofList [(field, value)] compare }

theorem checkDecision_available_peers : ∃ monitorSession ledger declaration next issued,
    run plainHost (sessionOperations peerGraph [] [metricClaim "old" 1 "audit_signal" 0]) =
      .ok (.live monitorSession ledger declaration) ∧
    checkDecision plainHost (.live monitorSession ledger declaration) (metricClaim "new" 2 "audit_signal" 1) ⟨id, fun _ => List.Perm.refl _⟩
      (.ok "2026-01-01T00:00:02Z") = .ok (next, issued) ∧ issued.claimantId = "new" := by
  obtain ⟨monitorSession, ledger, declaration, reached, equipped, few⟩ := @equippedFor_live (metricClaim "new" 2 "audit_signal" 1)
    (run plainHost (sessionOperations peerGraph [] [metricClaim "old" 1 "audit_signal" 0])) (by decide +kernel)
  obtain ⟨next, issued, result, checked, sameClaimant, -⟩ := checkDecision_available plainHost _ monitorSession ledger declaration reached
    (metricClaim "new" 2 "audit_signal" 1) equipped few ⟨id, fun _ => List.Perm.refl _⟩ "2026-01-01T00:00:02Z"
  exact ⟨monitorSession, ledger, declaration, next, issued, reached, checked, sameClaimant⟩

/-- What a claim alone can be asked: it is valid, provides what the nodes read, its other metrics are known to the polarity schema, and
the values that the checks perturb stay finite. -/
structure Suitable (graph : GovernanceGraph) (claim : GovernanceClaim) : Prop where
  valid : validateGovernanceClaim claim = .ok ()
  provides : ∀ entry ∈ graph.nodes.toList, ∀ field ∈ referencedFields entry.2, claim.Provides field
  declared : ∀ field ∈ claim.metrics.keys, (∀ entry ∈ graph.nodes.toList, field ∉ referencedFields entry.2) →
    (polarityFor auditMetricPolaritySchema field).isSome = true
  finite : (claim.strength + 0.1).isFinite = true ∧ (∀ factor ∈ misreportFactors, (claim.strength * factor).isFinite = true) ∧
    ∀ entry ∈ claim.metrics.toList, (entry.2 + 1).isFinite = true ∧ (entry.2 + -1).isFinite = true

instance (graph : GovernanceGraph) (claim : GovernanceClaim) : Decidable (Suitable graph claim) :=
  decidable_of_iff (validateGovernanceClaim claim = .ok () ∧ (∀ entry ∈ graph.nodes.toList, ∀ field ∈ referencedFields entry.2, claim.Provides field) ∧
      (∀ field ∈ claim.metrics.keys, (∀ entry ∈ graph.nodes.toList, field ∉ referencedFields entry.2) →
        (polarityFor auditMetricPolaritySchema field).isSome = true) ∧
      (claim.strength + 0.1).isFinite = true ∧ (∀ factor ∈ misreportFactors, (claim.strength * factor).isFinite = true) ∧
      ∀ entry ∈ claim.metrics.toList, (entry.2 + 1).isFinite = true ∧ (entry.2 + -1).isFinite = true)
    ⟨fun ⟨valid, provides, declared, finite⟩ => ⟨valid, provides, declared, finite⟩,
    fun suitable => ⟨suitable.valid, suitable.provides, suitable.declared, suitable.finite⟩⟩

/-- The operations reach a live state that refuses a suitable claim. -/
def Blocks (operations : List Operation) (claim : GovernanceClaim) : Prop :=
  ∃ monitorSession ledger declaration order timestamp, run plainHost operations = .ok (.live monitorSession ledger declaration) ∧
    Suitable monitorSession.compiledGraph.graph claim ∧
    ∀ next issued, checkDecision plainHost (.live monitorSession ledger declaration) claim order (.ok timestamp) ≠ .ok (next, issued)

def blocked (claim : GovernanceClaim) : Except ProtocolError ProtocolState → Bool
  | .ok (.live monitorSession ledger declaration) => decide (Suitable monitorSession.compiledGraph.graph claim) &&
    !(checkDecision plainHost (.live monitorSession ledger declaration) claim ⟨id, walk_in_order⟩
      (.ok "2026-01-01T00:00:02Z")).toBool
  | _ => false

theorem blocks_of_blocked {operations : List Operation} {claim : GovernanceClaim} (refused : blocked claim (run plainHost operations) = true) :
    Blocks operations claim := by
  unfold blocked at refused
  split at refused
  · next monitorSession ledger declaration reached =>
    obtain ⟨suitable, fails⟩ := Bool.and_eq_true_iff.1 refused
    refine ⟨monitorSession, ledger, declaration, ⟨id, fun _ => List.Perm.refl _⟩, "2026-01-01T00:00:02Z", reached,
      of_decide_eq_true suitable, fun next issued decided => ?_⟩
    rw [decided] at fails
    cases fails
  · cases refused

/-- An entry that permits everything in front of a node that reads a metric without a polarity. -/
def unreachedGraph : GovernanceGraph where
  nodes := Std.ExtTreeMap.ofList [
    (⟨"entry", entry_named⟩, .binary ⟨"entry", entry_named⟩ "entry" [] .permit .firstMatch),
    (⟨"signal", by decide⟩, .threshold ⟨"signal", by decide⟩ "signal" 0.5 "unlisted")] compare
  edges := [⟨⟨"entry", entry_named⟩, ⟨"signal", by decide⟩, .passThrough⟩]

/-- One node that decides by the strength: `hit` from `min` on, and otherwise `default`. -/
def strengthGraph (min : Float) (hit default : Decision) : GovernanceGraph where
  nodes := Std.ExtTreeMap.ofList [
    (⟨"gate", gate_named⟩, .binary ⟨"gate", gate_named⟩ "gate" [.thresholdGate "strength" min hit] default .firstMatch)] compare
  edges := []

/-- A suitable claim is refused because an accepted one lacks a metric that only its arrival makes a node read, because an accepted
strength is doubled out of range, or because an accepted metric has no polarity, once no earlier finding hides it; and a claim that
provides all that is read is refused for a polarity that the schema lacks, or for a strength that a misreport rounds to zero. -/
theorem accepted_claims_block :
    Blocks (sessionOperations peerGraph [] [plainClaim "old" 1]) (metricClaim "new" 2 "audit_signal" 1) ∧
    Blocks (sessionOperations (strengthGraph 1.5 .permit .deny) [⟨.nonVacuous, "", []⟩, ⟨.strategyproofness, "", []⟩]
      [plainClaim "a" 1, plainClaim "b" 1e308]) (plainClaim "a" 5) ∧
    Blocks (sessionOperations (strengthGraph 1.05 .deny .permit) [⟨.monotonicity, "", []⟩]
      [plainClaim "a" 1, metricClaim "b" 5 "unlisted" 1]) (plainClaim "a" 5) ∧
    Blocks (sessionOperations unreachedGraph [] [plainClaim "old" 1]) (metricClaim "new" 2 "unlisted" 1) ∧
    Blocks (sessionOperations (soloGraph .permit) [] [plainClaim "old" 1]) (plainClaim "new" 5e-324) :=
  ⟨blocks_of_blocked (by decide +kernel), blocks_of_blocked (by decide +kernel), blocks_of_blocked (by decide +kernel),
    blocks_of_blocked (by decide +kernel), blocks_of_blocked (by decide +kernel)⟩

end Legitimacy.Protocol
