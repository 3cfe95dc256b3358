import Legitimacy.OrderIndependence

namespace Legitimacy

open ExceptRun

def gateFields : Gate → List String
  | .thresholdGate field _ _ => [field]
  | .peerRelative field _ _ => [field]
  | _ => []

/-- The metric fields that evaluating a node reads. -/
def referencedFields : GovernanceNode → List String
  | .binary _ _ gates _ _ => gates.flatMap gateFields
  | .threshold _ _ _ field => [field]
  | .proportional .. => []

def GovernanceClaim.Provides (claim : GovernanceClaim) (field : String) : Prop := field = "strength" ∨ field ∈ claim.metrics

instance (claim : GovernanceClaim) (field : String) : Decidable (claim.Provides field) :=
  inferInstanceAs (Decidable (field = "strength" ∨ field ∈ claim.metrics))

/-- Every claim provides every metric that some node of the graph reads. -/
def GovernanceGraph.MetricsProvided (graph : GovernanceGraph) (claims : List GovernanceClaim) : Prop :=
  ∀ (key : NodeId) (governanceNode : GovernanceNode), graph.nodes[key]? = some governanceNode →
    ∀ field ∈ referencedFields governanceNode, ∀ claim ∈ claims, claim.Provides field

theorem metricsProvided_of_toList {graph : GovernanceGraph} {claims : List GovernanceClaim}
    (provided : ∀ entry ∈ graph.nodes.toList, ∀ field ∈ referencedFields entry.2, ∀ claim ∈ claims, claim.Provides field) :
    graph.MetricsProvided claims :=
  fun key governanceNode found => provided (key, governanceNode) (Std.ExtTreeMap.mem_toList_iff_getElem?_eq_some.2 found)

theorem numericField_ok {claim : GovernanceClaim} {field : String} (provided : claim.Provides field) :
    ∃ value, numericField claim field = .ok value := by
  unfold numericField
  split
  · exact ⟨claim.strength, rfl⟩
  · rename_i metric
    obtain ⟨value, found⟩ := mem_iff_lookup.1 (provided.resolve_left metric)
    exact ⟨value, by simp [found]⟩

theorem gateMatches_ok {regexes : RegexEngine} {gate : Gate} {cohort : List GovernanceClaim} {claim : GovernanceClaim}
    (valid : validateGate regexes gate = .ok ()) (member : claim ∈ cohort)
    (provided : ∀ field ∈ gateFields gate, ∀ claim ∈ cohort, claim.Provides field) :
    ∃ hit, gateMatches regexes claim cohort gate = .ok hit := by
  cases gate with
  | prefixMatch pattern decision => exact ⟨_, rfl⟩
  | exactMatch value decision => exact ⟨_, rfl⟩
  | contentMatch regex decision =>
    obtain ⟨⟨⟩, -, compiles⟩ := bind_eq_ok.1 valid
    obtain ⟨compiled, found, -⟩ := bind_eq_ok.1 compiles
    exact ⟨_, bind_eq_ok.2 ⟨compiled, found, rfl⟩⟩
  | thresholdGate field min decision =>
    obtain ⟨value, read⟩ := numericField_ok (provided field (by simp [gateFields]) claim member)
    exact ⟨_, bind_eq_ok.2 ⟨value, read, rfl⟩⟩
  | peerRelative field percentile decision =>
    have all := provided field (by simp [gateFields])
    obtain ⟨currentValue, atCurrent⟩ := numericField_ok (all claim member)
    obtain ⟨values, atValues⟩ : ∃ values, cohort.mapM (fun claim => numericField claim field) = .ok values := by
      refine exists_mapM fun other listed => ?_
      exact numericField_ok (all other listed)
    exact ⟨_, bind_eq_ok.2 ⟨currentValue, atCurrent, bind_eq_ok.2 ⟨values, atValues, rfl⟩⟩⟩

section

variable {regexes : RegexEngine} {claim : GovernanceClaim} {cohort : List GovernanceClaim}

theorem evaluateFirstMatch_ok (gates : List Gate) (default : Decision)
    (matchable : ∀ gate ∈ gates, ∃ hit, gateMatches regexes claim cohort gate = .ok hit) :
    ∃ decision, evaluateFirstMatch regexes claim cohort default gates = .ok decision := by
  induction gates with
  | nil => exact ⟨default, rfl⟩
  | cons gate rest ih =>
    obtain ⟨hit, atGate⟩ := matchable gate List.mem_cons_self
    obtain ⟨later, atRest⟩ := ih fun other listed => matchable other (List.mem_cons_of_mem gate listed)
    cases hit with
    | true => exact ⟨gateDecision gate, bind_eq_ok.2 ⟨true, atGate, rfl⟩⟩
    | false => exact ⟨later, bind_eq_ok.2 ⟨false, atGate, atRest⟩⟩

theorem matchedDecisions_ok (gates : List Gate) (matchable : ∀ gate ∈ gates, ∃ hit, gateMatches regexes claim cohort gate = .ok hit) :
    ∃ matched, matchedDecisions regexes claim cohort gates = .ok matched := by
  induction gates with
  | nil => exact ⟨[], rfl⟩
  | cons gate rest ih =>
    obtain ⟨hit, atGate⟩ := matchable gate List.mem_cons_self
    obtain ⟨matched, atRest⟩ := ih fun other listed => matchable other (List.mem_cons_of_mem gate listed)
    exact ⟨_, bind_eq_ok.2 ⟨hit, atGate, bind_eq_ok.2 ⟨matched, atRest, rfl⟩⟩⟩

theorem allMustPassLoop_ok (gates : List Gate) (matchable : ∀ gate ∈ gates, ∃ hit, gateMatches regexes claim cohort gate = .ok hit)
    (matchedCount : Nat) (sawEscalate : Bool) : ∃ outcome, allMustPassLoop regexes claim cohort gates matchedCount sawEscalate = .ok outcome := by
  induction gates generalizing matchedCount sawEscalate with
  | nil => exact ⟨_, rfl⟩
  | cons gate rest ih =>
    obtain ⟨hit, atGate⟩ := matchable gate List.mem_cons_self
    have later := ih fun other listed => matchable other (List.mem_cons_of_mem gate listed)
    unfold allMustPassLoop
    rw [atGate]
    cases hit with
    | false => exact later matchedCount sawEscalate
    | true =>
      cases made : gateDecision gate with
      | deny => exact ⟨none, by simp [bind, Except.bind]⟩
      | escalate => simpa [bind, Except.bind] using later (matchedCount + 1) true
      | permit => simpa [bind, Except.bind] using later (matchedCount + 1) sawEscalate

theorem evaluateAnyMustPass_ok {gates : List Gate} (default : Decision)
    (matchable : ∀ gate ∈ gates, ∃ hit, gateMatches regexes claim cohort gate = .ok hit) :
    ∃ decision, evaluateAnyMustPass regexes gates claim cohort default = .ok decision := by
  obtain ⟨matched, atGates⟩ := matchedDecisions_ok gates matchable
  unfold evaluateAnyMustPass
  simp only [atGates, bind, Except.bind]
  split_ifs
  · exact ⟨.permit, rfl⟩
  · exact ⟨.escalate, rfl⟩
  · exact ⟨.deny, rfl⟩
  · exact ⟨default, rfl⟩

theorem evaluateAllMustPass_ok {gates : List Gate} (default : Decision)
    (matchable : ∀ gate ∈ gates, ∃ hit, gateMatches regexes claim cohort gate = .ok hit) :
    ∃ decision, evaluateAllMustPass regexes gates claim cohort default = .ok decision := by
  obtain ⟨outcome, atGates⟩ := allMustPassLoop_ok gates matchable 0 false
  unfold evaluateAllMustPass
  simp only [atGates, bind, Except.bind]
  cases outcome with
  | none => exact ⟨.deny, rfl⟩
  | some counted =>
    show ∃ decision, (if counted.1 = gates.length ∧ gates ≠ [] then .ok (if counted.2 then .escalate else .permit)
      else if counted.2 = true then .ok .escalate else .ok default) = Except.ok decision
    split_ifs <;> exact ⟨_, rfl⟩

theorem claimDecision_ok {node : GovernanceNode} (valid : validateGovernanceNode regexes node = .ok ())
    (evaluable : isProportional node = false) (member : claim ∈ cohort)
    (provided : ∀ field ∈ referencedFields node, ∀ claim ∈ cohort, claim.Provides field) :
    ∃ decision, claimDecision regexes node cohort claim = .ok decision := by
  cases node with
  | proportional id name rule classes => simp [isProportional] at evaluable
  | threshold id name threshold field =>
    obtain ⟨value, read⟩ := numericField_ok (provided field (by simp [referencedFields]) claim member)
    exact ⟨_, bind_eq_ok.2 ⟨value, read, rfl⟩⟩
  | binary id name gates default combination =>
    have matchable : ∀ gate ∈ gates, ∃ hit, gateMatches regexes claim cohort gate = .ok hit := by
      intro gate listed
      refine gateMatches_ok (forM_eq_ok.1 valid gate listed) member fun field read => ?_
      exact provided field (List.mem_flatMap.2 ⟨gate, listed, read⟩)
    cases combination with
    | firstMatch => exact evaluateFirstMatch_ok gates default matchable
    | anyMustPass => exact evaluateAnyMustPass_ok default matchable
    | allMustPass => exact evaluateAllMustPass_ok default matchable

end

theorem evaluable_of_provided {regexes : RegexEngine} {graph : GovernanceGraph} {claims : List GovernanceClaim}
    {flow : NodeId → Set GovernanceClaim} (valid : validateGovernanceGraph regexes graph = .ok ()) (plain : graph.Plain)
    (batch : ValidBatch claims) (within : ∀ node, flow node ⊆ {claim | claim ∈ claims}) (provided : graph.MetricsProvided claims) :
    Evaluable regexes graph flow := by
  classical
  intro node inGraph claim arrived
  obtain ⟨governanceNode, atNode⟩ := mem_iff_lookup.1 inGraph
  let cohort := claims.filter fun claim => claim ∈ flow node
  have feed : FeedOf cohort (flow node) := by
    refine ⟨batch.distinct.sublist (List.filter_sublist.map _), fun other => ?_⟩
    rw [List.mem_filter, decide_eq_true_iff]
    exact ⟨fun both => both.2, fun inFlow => ⟨within node inFlow, inFlow⟩⟩
  have member : claim ∈ cohort := (feed.mem_iff claim).2 arrived
  have checked := (validateGovernanceGraph_eq_ok.1 valid).1 node governanceNode atNode
  unfold validateNodeEntry at checked
  obtain ⟨decision, made⟩ := claimDecision_ok (guard_eq_ok.1 checked).2 (plain node governanceNode atNode) member
    fun field read other listed => provided node governanceNode atNode field read other (List.mem_filter.1 listed).1
  exact ⟨decision, governanceNode, cohort, atNode, feed, member, made⟩

/-- The decision a node takes on a claim when `cohort` has reached it. -/
def DecidedAt (regexes : RegexEngine) (graph : GovernanceGraph) (node : NodeId) (cohort : List GovernanceClaim) (claim : GovernanceClaim)
    (decision : Decision) : Prop :=
  claim ∈ cohort ∧ ∃ governanceNode, graph.nodes[node]? = some governanceNode ∧
    claimDecision regexes governanceNode cohort claim = .ok decision

/-- The cohorts of a traversal: each entry gets the whole batch, each other node once what a predecessor escalates. -/
structure ReachedCohorts (regexes : RegexEngine) (graph : GovernanceGraph) (claims : List GovernanceClaim)
    (reached : NodeId → List GovernanceClaim) : Prop where
  once : ∀ node, ((reached node).map (·.claimantId)).Nodup
  mem_iff : ∀ node claim, claim ∈ reached node ↔ (graph.IsEntry node ∧ claim ∈ claims) ∨
    ∃ previous, graph.Edge previous node ∧ DecidedAt regexes graph previous (reached previous) claim .escalate

/-- The decisions on a claimant at the reached nodes, without the escalations that have an edge to travel along. -/
def settledDecisions (regexes : RegexEngine) (graph : GovernanceGraph) (reached : NodeId → List GovernanceClaim)
    (claimant : ClaimantId) : Set Decision :=
  {decision | ∃ node claim, claim.claimantId = claimant ∧ DecidedAt regexes graph node (reached node) claim decision ∧
    (decision ≠ .escalate ∨ ∀ next, ¬graph.Edge node next)}

section

variable {regexes : RegexEngine} {graph : GovernanceGraph} {claims : List GovernanceClaim} {flow : NodeId → Set GovernanceClaim}

theorem exists_cohorts (batch : ValidBatch claims) (within : ∀ node, flow node ⊆ {claim | claim ∈ claims}) :
    ∃ reached : NodeId → List GovernanceClaim, ∀ node, FeedOf (reached node) (flow node) := by
  classical
  refine ⟨fun node => claims.filter fun claim => claim ∈ flow node, fun node => ⟨?_, fun claim => ?_⟩⟩
  · exact batch.distinct.sublist (List.filter_sublist.map _)
  · rw [List.mem_filter, decide_eq_true_iff]
    exact ⟨fun both => both.2, fun arrived => ⟨within node arrived, arrived⟩⟩

variable {reached : NodeId → List GovernanceClaim}

theorem decidedAt_iff (feeds : ∀ node, FeedOf (reached node) (flow node)) {node : NodeId}
    {claim : GovernanceClaim} {decision : Decision} :
    DecidedAt regexes graph node (reached node) claim decision ↔ Decides regexes graph node (flow node) claim decision := by
  constructor
  · rintro ⟨member, governanceNode, atNode, made⟩
    exact ⟨governanceNode, reached node, atNode, feeds node, member, made⟩
  · intro decides
    obtain ⟨governanceNode, cohort, atNode, -⟩ := id decides
    obtain ⟨member, made⟩ := (decides_iff atNode (feeds node)).1 decides
    exact ⟨member, governanceNode, atNode, made⟩

theorem reachedCohorts_of_flow (isFlow : (claimNetwork regexes graph claims).IsFlow flow)
    (feeds : ∀ node, FeedOf (reached node) (flow node)) : ReachedCohorts regexes graph claims reached := by
  refine ⟨fun node => (feeds node).distinct, fun node claim => ?_⟩
  rw [(feeds node).mem_iff claim, isFlow node]
  refine or_congr_right (exists_congr fun previous => ?_)
  rw [decidedAt_iff feeds]
  constructor
  · rintro ⟨_, link, _, escalated⟩
    exact ⟨link, escalated⟩
  · rintro ⟨link, escalated⟩
    have member := (decidedAt_iff feeds).2 escalated
    exact ⟨trivial, link, ((feeds previous).mem_iff claim).1 member.1, escalated⟩

theorem settledDecisions_eq (feeds : ∀ node, FeedOf (reached node) (flow node))
    (claimant : ClaimantId) :
    settledDecisions regexes graph reached claimant = decidedOn regexes graph flow (· ∈ graph.nodes) claimant := by
  ext decision
  constructor
  · rintro ⟨node, claim, sameId, decided, counts⟩
    obtain ⟨-, governanceNode, atNode, -⟩ := id decided
    refine ⟨node, mem_iff_lookup.2 ⟨governanceNode, atNode⟩, claim, sameId, (decidedAt_iff feeds).1 decided, ?_⟩
    rintro ⟨escalated, next, link⟩
    exact counts.elim (fun different => different escalated) fun leaf => leaf next link
  · rintro ⟨node, _, claim, sameId, decides, counts⟩
    refine ⟨node, claim, sameId, (decidedAt_iff feeds).2 decides, ?_⟩
    by_cases escalated : decision = .escalate
    · exact Or.inr fun next link => counts ⟨escalated, next, link⟩
    · exact Or.inl escalated

theorem decidedOn_nonempty_iff (closed : graph.Closed) (acyclic : graph.Acyclic) (nonempty : graph.nodes.isEmpty = false)
    (isFlow : (claimNetwork regexes graph claims).IsFlow flow) (evaluable : Evaluable regexes graph flow) {claimant : ClaimantId} :
    (decidedOn regexes graph flow (· ∈ graph.nodes) claimant).Nonempty ↔ ∃ claim ∈ claims, claim.claimantId = claimant := by
  constructor
  · rintro ⟨decision, node, inGraph, claim, sameId, decides, -⟩
    obtain ⟨governanceNode, cohort, -, feed, member, -⟩ := decides
    exact ⟨claim, claimNetwork_within acyclic isFlow node ((feed.mem_iff claim).1 member), sameId⟩
  · rintro ⟨claim, listed, sameId⟩
    obtain ⟨entry, isEntry⟩ := exists_entry closed acyclic nonempty
    have entered : claim ∈ flow entry := by
      rw [isFlow entry]
      exact Or.inl ⟨isEntry, listed⟩
    obtain ⟨final, arrived, stays⟩ := isFlow.settles acyclic.reverseWellFounded entry entered
    have inGraph : final ∈ graph.nodes := by
      rw [isFlow final] at arrived
      rcases arrived with ⟨isEntry, _⟩ | ⟨previous, _, link, _⟩
      · exact isEntry.1
      · exact (closed.ends link).2
    obtain ⟨decision, decides⟩ := evaluable final inGraph claim arrived
    refine ⟨decision, final, inGraph, claim, sameId, decides, ?_⟩
    rintro ⟨rfl, next, link⟩
    rcases stays with held | leaf
    · exact held ⟨arrived, decides⟩
    · exact leaf next link

end

theorem captures_run {graph : GovernanceGraph} {evaluate : NodeEvaluator} {merge : FeedMerger} {claims : List GovernanceClaim}
    {captureNodeDecisions : Bool} {order : List NodeId} {final : TraversalState}
    (run : order.foldlM (visitNode graph evaluate merge) (startState graph claims captureNodeDecisions) = .ok final) :
    final.nodeDecisions.isSome = captureNodeDecisions := by
  refine foldlM_invariant (fun _ state => state.nodeDecisions.isSome = captureNodeDecisions) ?_ ?_ run
  · cases captureNodeDecisions <;> rfl
  · intro done node rest state next _ kept stepped
    unfold visitNode at stepped
    split at stepped
    · cases stepped
    · obtain ⟨decisions, -, recorded⟩ := bind_eq_ok.1 stepped
      obtain ⟨queued, -, made⟩ := bind_eq_ok.1 recorded
      obtain rfl := Except.ok.inj made
      simpa using kept

/-- Every claimant of a valid batch, and no other, gets the least of the decisions that settle it. -/
theorem traverse_decides_every_claimant (regexes : RegexEngine) (graph : GovernanceGraph) (claims : List GovernanceClaim)
    (valid : validateGovernanceGraph regexes graph = .ok ()) (nonempty : graph.nodes.isEmpty = false) (acyclic : graph.Acyclic)
    (plain : graph.Plain) (validated : validateGovernanceClaims claims = .ok ()) (provided : graph.MetricsProvided claims) :
    ∃ result reached, traverse regexes graph claims = .ok result ∧
      traverseFinalDecisions regexes graph claims = .ok result.finalDecisions ∧
      ReachedCohorts regexes graph claims reached ∧
      (∀ node claimant decision,
        (∃ decisions, result.nodeDecisions[node]? = some decisions ∧ ⟨claimant, decision⟩ ∈ decisions) ↔
          ∃ claim, claim.claimantId = claimant ∧ DecidedAt regexes graph node (reached node) claim decision) ∧
      (∀ claimant, claimant ∈ result.finalDecisions ↔ ∃ claim ∈ claims, claim.claimantId = claimant) ∧
      ∀ claimant decision, result.finalDecisions[claimant]? = some decision ↔
        IsLeastDecision (settledDecisions regexes graph reached claimant) decision := by
  have closed := closed_of_valid valid
  have batch := validBatch_of_validated validated
  obtain ⟨flow, isFlow⟩ := exists_claimFlow regexes claims acyclic
  have within := claimNetwork_within acyclic isFlow
  have evaluable := evaluable_of_provided valid plain batch within provided
  obtain ⟨reached, feeds⟩ := exists_cohorts batch within
  have parts := traversal_parts regexes batch
  have traversed : ∀ capture, ∃ entries final order, graph.LegalOrder order ∧
      RunInvariant regexes graph claims flow order final ∧ final.nodeDecisions.isSome = capture ∧
      traverseClaims regexes graph claims capture = .ok (entries, final) := by
    intro capture
    have completes := fun order (legal : graph.LegalOrder order) =>
      run_complete (traversal_parts regexes batch) legal plain isFlow within batch capture evaluable
    obtain ⟨entries, final, order, legal, looped, run⟩ := traverseClaims_of_run closed acyclic nonempty validated
      fun order legal => (completes order legal).imp fun _ both => both.1
    obtain ⟨other, again, inv⟩ := completes order legal
    obtain rfl : other = final := Except.ok.inj (again.symm.trans looped)
    exact ⟨entries, other, order, legal, inv, captures_run looped, run⟩
  obtain ⟨entries, final, order, legal, inv, captures, run⟩ := traversed true
  obtain ⟨plainEntries, plainFinal, plainOrder, plainLegal, plainInv, -, plainRun⟩ := traversed false
  obtain ⟨captured, held⟩ := Option.isSome_iff_exists.1 captures
  have records := final_of_invariant legal inv
  have sameFinal : plainFinal.finalDecisions = final.finalDecisions := (final_of_invariant plainLegal plainInv).unique records
  refine ⟨⟨entries, final.nodeDecisions.getD ∅, final.finalDecisions, []⟩, reached, ?_, ?_, reachedCohorts_of_flow isFlow feeds,
    ?_, ?_, ?_⟩
  · exact bind_eq_ok.2 ⟨(entries, final), run, rfl⟩
  · exact traverseFinalDecisions_eq_ok.2 ⟨plainEntries, plainFinal, plainRun, sameFinal⟩
  · intro node claimant decision
    have atNode := inv.captured captured held node
    show (∃ decisions, (final.nodeDecisions.getD ∅)[node]? = some decisions ∧ ⟨claimant, decision⟩ ∈ decisions) ↔ _
    rw [held, Option.getD_some]
    simp only [decidedAt_iff feeds]
    constructor
    · rintro ⟨decisions, found, listed⟩
      by_cases visited : node ∈ order
      · obtain ⟨others, foundOthers, made⟩ := atNode.1 visited
        obtain rfl : decisions = others := Option.some.inj (found.symm.trans foundOthers)
        exact (made.mem_iff claimant decision).1 listed
      · rw [atNode.2 visited] at found
        cases found
    · rintro ⟨claim, sameId, decides⟩
      obtain ⟨governanceNode, cohort, inGraph, -⟩ := id decides
      obtain ⟨decisions, found, made⟩ := atNode.1 ((legal.complete node).2 (mem_iff_lookup.2 ⟨governanceNode, inGraph⟩))
      exact ⟨decisions, found, (made.mem_iff claimant decision).2 ⟨claim, sameId, decides⟩⟩
  · intro claimant
    rw [← decidedOn_nonempty_iff closed acyclic nonempty isFlow evaluable, Set.nonempty_iff_ne_empty, Ne, ← records.none_iff,
      ← Std.ExtTreeMap.isSome_getElem?_iff_mem, Option.isSome_iff_ne_none]
  · intro claimant decision
    rw [settledDecisions_eq feeds claimant]
    exact records claimant decision

theorem traverse_decides_every_claimant_fork :
    ∃ result, traverse .error forkGraph [plainClaim "a" 0.25, plainClaim "b" 0.5, plainClaim "c" 1] = .ok result ∧
      "a" ∈ result.finalDecisions := by
  obtain ⟨result, reached, run, -, -, -, every, -⟩ := traverse_decides_every_claimant .error forkGraph
    [plainClaim "a" 0.25, plainClaim "b" 0.5, plainClaim "c" 1] (by decide +kernel) (by decide +kernel)
    (acyclic_of_ascending (by decide)) (plain_of_toList (by decide +kernel)) (by decide +kernel)
    (metricsProvided_of_toList (by decide +kernel))
  exact ⟨result, run, (every "a").2 ⟨plainClaim "a" 0.25, List.mem_cons_self, rfl⟩⟩

/-- Distinct ids and present metrics do not make a batch valid: a claim of strength zero is refused before the traversal starts. -/
theorem traverse_rejects_zero_strength :
    validateGovernanceGraph .error forkGraph = .ok () ∧ forkGraph.nodes.isEmpty = false ∧ forkGraph.Acyclic ∧ forkGraph.Plain ∧
      ([plainClaim "a" 0].map (·.claimantId)).Nodup ∧ forkGraph.MetricsProvided [plainClaim "a" 0] ∧
      traverse .error forkGraph [plainClaim "a" 0] = .error (.invalidGovernanceStrength "a" 0) := by
  refine ⟨by decide +kernel, by decide +kernel, acyclic_of_ascending (by decide), plain_of_toList (by decide +kernel), by decide,
    metricsProvided_of_toList (by decide +kernel), ?_⟩
  have refused : validateGovernanceClaims [plainClaim "a" 0] = .error (.invalidGovernanceStrength "a" 0) := rfl
  unfold traverse traverseClaims
  rw [refused]
  rfl

end Legitimacy
