import Legitimacy.Degradation
import Legitimacy.Shutdown

namespace Legitimacy.Protocol

open ExceptRun

section

variable {regexes : RegexEngine} {graph overlay : GovernanceGraph} {claims : List GovernanceClaim} {claim : GovernanceClaim}

/-- The nodes of interest that compare claims with their cohort are entries, at which the whole batch arrives. -/
def PeersAtEntries (graph : GovernanceGraph) (concerned : NodeId → Prop) : Prop :=
  ∀ (key : NodeId) (governanceNode : GovernanceNode), graph.nodes[key]? = some governanceNode → concerned key →
    CohortFree governanceNode ∨ graph.IsEntry key

theorem claimDecision_recohort {governanceNode : GovernanceNode} {first second : Set GovernanceClaim}
    {cohort other : List GovernanceClaim} {decision : Decision} (alike : CohortFree governanceNode ∨ first = second)
    (isCohort : FeedOf cohort first) (isOther : FeedOf other second)
    (made : claimDecision regexes governanceNode cohort claim = .ok decision) :
    claimDecision regexes governanceNode other claim = .ok decision := by
  rcases alike with free | same
  · rw [← claimDecision_cohortFree free cohort other]
    exact made
  · subst same
    exact claimDecision_perm (isCohort.perm isOther) made

variable {before after : TraversalResult} {flow flow' : NodeId → Set GovernanceClaim}

/-- A sandbox that keeps every entry, and of each kept node either all successors or none, permits no new claimant. -/
theorem sandbox_narrows {keep : NodeId → Bool} (original : Traversed regexes graph claims before flow)
    (sandboxed : Traversed regexes (restrict graph keep) claims after flow') (listed : claim ∈ claims)
    (entries : ∀ node, graph.IsEntry node → keep node = true)
    (whole : ∀ node, keep node = true →
      (∀ next, graph.Edge node next → keep next = true) ∨ ∀ next, graph.Edge node next → ¬keep next = true)
    (peers : PeersAtEntries graph fun node => keep node = true) (permitted : after.finalDecisions[claim.claimantId]? = some .permit) :
    before.finalDecisions[claim.claimantId]? = some .permit := by
  have stillEntry : ∀ {node}, graph.IsEntry node → (restrict graph keep).IsEntry node := fun {node} entry =>
    ⟨mem_restrict.2 ⟨entry.1, entries node entry⟩, fun previous link => entry.2 previous (restrict_edge.1 link).1⟩
  refine original.permitted_of_tracked listed (fun node => claim ∈ flow' node)
    (fun node entry => sandboxed.arrives_entry (stillEntry entry) listed) ?_
  intro node decision arrived decides
  have kept := (mem_restrict.1 (sandboxed.inGraph arrived)).2
  obtain ⟨governanceNode, cohort, atNode, isCohort, -, made⟩ := decides
  obtain ⟨decision', decides'⟩ := sandboxed.evaluable node (sandboxed.inGraph arrived) claim arrived
  obtain ⟨governanceNode', cohort', atNode', isCohort', -, made'⟩ := id decides'
  obtain rfl : governanceNode = governanceNode' := Option.some.inj (atNode.symm.trans (restrict_lookup.1 atNode').1)
  have alike : CohortFree governanceNode ∨ flow node = flow' node := by
    refine (peers node governanceNode atNode kept).imp_right fun entry => ?_
    rw [original.flow_entry entry, sandboxed.flow_entry (stillEntry entry)]
  obtain rfl : decision = decision' :=
    Except.ok.inj ((claimDecision_recohort alike isCohort isCohort' made).symm.trans made')
  obtain ⟨undenied, onwards⟩ := sandboxed.of_permitted permitted decides'
  refine ⟨undenied, fun escalated => ?_⟩
  subst escalated
  obtain ⟨next, link⟩ := onwards rfl
  obtain ⟨originalLink, -, keptNext⟩ := restrict_edge.1 link
  have allKept := (whole node kept).resolve_right fun none => none next originalLink keptNext
  exact ⟨⟨next, originalLink⟩, fun other otherLink =>
    sandboxed.arrives_next (restrict_edge.2 ⟨otherLink, kept, allKept other otherLink⟩) decides'⟩

/-- A degradation that tightens every node permits no new claimant. -/
theorem degrade_narrows {directive : SupervisoryDirective} (original : Traversed regexes graph claims before flow)
    (degraded : Traversed regexes (degradeGraph graph directive) claims after flow') (listed : claim ∈ claims)
    (tightens : ∀ (key : NodeId) (governanceNode : GovernanceNode), graph.nodes[key]? = some governanceNode →
      nodeTightens (degradationFactor directive) governanceNode)
    (peers : PeersAtEntries graph fun _ => True) (permitted : after.finalDecisions[claim.claimantId]? = some .permit) :
    before.finalDecisions[claim.claimantId]? = some .permit := by
  refine original.permitted_of_tracked listed (fun node => claim ∈ flow' node)
    (fun node entry => degraded.arrives_entry (degradeGraph_isEntry.2 entry) listed) ?_
  intro node decision arrived decides
  obtain ⟨governanceNode, cohort, atNode, isCohort, -, made⟩ := decides
  obtain ⟨decision', decides'⟩ := degraded.evaluable node (degraded.inGraph arrived) claim arrived
  obtain ⟨governanceNode', cohort', atNode', isCohort', -, made'⟩ := id decides'
  rw [degradeGraph_lookup, atNode, Option.map_some] at atNode'
  obtain rfl := Option.some.inj atNode'
  have alike : CohortFree governanceNode ∨ flow node = flow' node := by
    refine (peers node governanceNode atNode trivial).imp_right fun entry => ?_
    rw [original.flow_entry entry, degraded.flow_entry (degradeGraph_isEntry.2 entry)]
  have lower := degraded_claimDecision (tightens node governanceNode atNode)
    (claimDecision_recohort alike isCohort isCohort' made) made'
  obtain ⟨undenied, onwards⟩ := degraded.of_permitted permitted decides'
  constructor
  · rintro rfl
    cases decision' with
    | deny => exact undenied rfl
    | escalate => exact absurd lower (by decide)
    | permit => exact absurd lower (by decide)
  · rintro rfl
    have escalated : decision' = .escalate := by
      cases decision' with
      | deny => exact absurd rfl undenied
      | escalate => rfl
      | permit => exact absurd lower (by decide)
    subst escalated
    exact ⟨onwards rfl, fun next link => degraded.arrives_next link decides'⟩

/-- The entries do not stop the claim: none denies it, and one that escalates it leads on. -/
def PassesEntries (regexes : RegexEngine) (graph : GovernanceGraph) (claims : List GovernanceClaim) (claim : GovernanceClaim) : Prop :=
  ∀ (entry : NodeId) (governanceNode : GovernanceNode), graph.IsEntry entry → graph.nodes[entry]? = some governanceNode →
    claimDecision regexes governanceNode claims claim ≠ .ok .deny ∧
      (claimDecision regexes governanceNode claims claim = .ok .escalate → ∃ next, graph.Edge entry next)

/-- A reroute to whatever the entries led to permits no claimant that was stopped behind the entries. -/
theorem reroute_narrows {rerouteId : NodeId} {targets : List NodeId} (rerouted : Rerouted graph overlay rerouteId targets)
    (original : Traversed regexes graph claims before flow) (overlaid : Traversed regexes overlay claims after flow')
    (listed : claim ∈ claims)
    (covers : ∀ entry next, graph.IsEntry entry → graph.Edge entry next → next ∈ targets ∨ OnlyBehindEntries graph next)
    (peers : PeersAtEntries graph fun _ => True) (passes : PassesEntries regexes graph claims claim)
    (permitted : after.finalDecisions[claim.claimantId]? = some .permit) :
    before.finalDecisions[claim.claimantId]? = some .permit := by
  have arrivesTarget : ∀ target ∈ targets, claim ∈ flow' target := by
    intro target chosen
    have entered := overlaid.arrives_entry (rerouted.isEntry original.closed) listed
    obtain ⟨decision, decides⟩ := overlaid.evaluable rerouteId (overlaid.inGraph entered) claim entered
    obtain ⟨governanceNode, cohort, atNode, -, -, made⟩ := id decides
    obtain rfl := Option.some.inj (rerouted.source.symm.trans atNode)
    obtain rfl : Decision.escalate = decision := Except.ok.inj made
    exact overlaid.arrives_next ((rerouted.edge rerouteId target).2 (Or.inl ⟨rfl, chosen⟩)) decides
  have arrivesNext : ∀ entry next, graph.IsEntry entry → graph.Edge entry next → claim ∈ flow' next := by
    intro entry next isEntry link
    by_cases chosen : next ∈ targets
    · exact arrivesTarget next chosen
    · have behind := (covers entry next isEntry link).resolve_left chosen
      refine overlaid.arrives_entry ⟨rerouted.mem_of_inner (original.closed.ends link).2 (not_isEntry_of_edge link), ?_⟩ listed
      intro previous into
      rcases (rerouted.edge previous next).1 into with ⟨-, isTarget⟩ | ⟨originalLink, notEntry, -⟩
      · exact chosen isTarget
      · exact notEntry (behind previous originalLink)
  refine original.permitted_of_tracked listed (fun node => graph.IsEntry node ∨ claim ∈ flow' node) (fun node entry => Or.inl entry) ?_
  intro node decision tracked decides
  obtain ⟨governanceNode, cohort, atNode, isCohort, member, made⟩ := decides
  by_cases entry : graph.IsEntry node
  · have batch : FeedOf claims (flow node) := by
      rw [original.flow_entry entry]
      exact ⟨original.batch.distinct, fun _ => Iff.rfl⟩
    have decided := claimDecision_perm (isCohort.perm batch) made
    obtain ⟨undenied, leads⟩ := passes node governanceNode entry atNode
    refine ⟨fun denied => undenied (denied ▸ decided), fun escalated => ⟨leads (escalated ▸ decided), fun next link => ?_⟩⟩
    exact Or.inr (arrivesNext node next entry link)
  · have arrived := tracked.resolve_left entry
    have different := rerouted.ne_of_inner (mem_iff_lookup.2 ⟨governanceNode, atNode⟩) entry
    obtain ⟨decision', decides'⟩ := overlaid.evaluable node (overlaid.inGraph arrived) claim arrived
    obtain ⟨governanceNode', cohort', atNode', isCohort', -, made'⟩ := id decides'
    obtain rfl : governanceNode = governanceNode' :=
      Option.some.inj (atNode.symm.trans ((rerouted.kept node governanceNode' different).1 atNode').1)
    have free := (peers node governanceNode atNode trivial).resolve_right entry
    obtain rfl : decision = decision' :=
      Except.ok.inj ((claimDecision_recohort (Or.inl free) isCohort isCohort' made).symm.trans made')
    obtain ⟨undenied, onwards⟩ := overlaid.of_permitted permitted decides'
    refine ⟨undenied, fun escalated => ?_⟩
    subst escalated
    obtain ⟨next, link⟩ := onwards rfl
    have originalLink : graph.Edge node next := by
      rcases (rerouted.edge node next).1 link with ⟨same, -⟩ | ⟨originalLink, -⟩
      · exact absurd same different
      · exact originalLink
    exact ⟨⟨next, originalLink⟩, fun other otherLink => Or.inr (overlaid.arrives_next
      ((rerouted.edge node other).2 (Or.inr ⟨otherLink, entry, not_isEntry_of_edge otherLink⟩)) decides')⟩

end

section

variable {host : ProtocolHost}

/-- Every edge of the graph that supervision would rewrite joins two of its nodes. -/
def ActiveClosed (state : ProtocolState) : Prop :=
  ∀ graph monitorSession ledger declaration, activeOverlay state = .ok (graph, monitorSession, ledger, declaration) → graph.Closed

theorem Monitored.declared_closed {monitorSession : MonitorSession} {ledger : ProtocolLedger} {declaration : GovernanceDeclaration}
    (monitored : Monitored host monitorSession ledger declaration) : declaration.graph.Closed := by
  obtain ⟨evaluation, certified⟩ := monitored.certified
  exact closed_of_valid (evaluateGraph_valid certified.evaluated)

theorem step_activeClosed {state next : ProtocolState} {operation : Operation} (holds : Lifecycle host state) (closed : ActiveClosed state)
    (stepped : step host state operation = .ok next) : ActiveClosed next := by
  have kept := step_lifecycle holds stepped
  intro graph monitorSession ledger declaration active
  rcases activeOverlay_eq_ok active with ⟨rfl, rfl⟩ | ⟨intervention, rfl, rfl⟩
  · obtain ⟨evaluation, certified⟩ := kept.certified
    rw [certified.graph]
    exact kept.declared_closed
  · -- only supervision leads to a supervised state
    cases operation with
    | declare graph sacrifices now =>
      obtain ⟨evaluation, declared, -, -, -, -, made⟩ := declareWithMetadata_eq_ok stepped
      cases made
    | compile now =>
      obtain ⟨graph, sacrifices, declared, evaluation, compiledGraph, -, -, -, -, -, -, -, made⟩ := compile_eq_ok stepped
      cases made
    | measure representativeClaims =>
      obtain ⟨riskReport, factorExposure, compiledGraph, sacrificeCerts, declared, -, made⟩ := measure_eq_ok stepped
      cases made
    | activate monitorConfig =>
      obtain ⟨riskReport, factorExposure, compiledGraph, sacrificeCerts, declared, claims, interval, -, made⟩ := activate_eq_ok stepped
      cases made
    | checkDecision claim order now =>
      obtain ⟨⟨result, issued⟩, checked, made⟩ := bind_eq_ok.1 stepped
      obtain rfl := Except.ok.inj made
      obtain ⟨session, entries, declared, claims, alerts, -, -, made⟩ := checkDecision_eq_ok checked
      cases made
    | reportDrift violation =>
      obtain ⟨session, entries, declared, -, made⟩ := reportDrift_eq_ok stepped
      cases made
    | supervise action reason now =>
      obtain ⟨graph, session, entries, declared, directive, other, before, -, applied, -, -, -, made⟩ := supervise_eq_ok stepped
      obtain ⟨rfl, rfl, rfl, rfl⟩ := ProtocolState.supervised.inj made
      exact applySupervisoryAction_closed (closed _ _ _ _ before) (activeOverlay_monitored holds before).1.declared_closed applied
    | proposeRevision newGraph revisedSacrifices =>
      obtain ⟨driftReport, session, entries, declared, -, made⟩ := proposeRevision_eq_ok stepped
      cases made
    | recompile declaredAt compiledAt =>
      obtain ⟨proposedGraph, sacrifices, declared, declaredState, -, -, compiled⟩ := recompile_eq_ok stepped
      obtain ⟨graph, sacrifices, declared, evaluation, compiledGraph, -, -, -, -, -, -, -, made⟩ := compile_eq_ok compiled
      cases made

theorem run_activeClosed {operations : List Operation} {state : ProtocolState} (reached : run host operations = .ok state) :
    ActiveClosed state := by
  have kept : Lifecycle host state ∧ ActiveClosed state := by
    have initial : Lifecycle host .undeclared ∧ ActiveClosed .undeclared := ⟨trivial, fun _ _ _ _ active => by cases active⟩
    refine foldlM_invariant (fun _ state => Lifecycle host state ∧ ActiveClosed state) initial ?_ reached
    intro done operation rest state next _ holds stepped
    exact ⟨step_lifecycle holds.1 stepped, step_activeClosed holds.1 holds.2 stepped⟩
  exact kept.2

end

section

/-- When an action can only take permissions away from a claim of the batch. -/
def Restrained (regexes : RegexEngine) (graph : GovernanceGraph) (directive : SupervisoryDirective) (claims : List GovernanceClaim)
    (claim : GovernanceClaim) : SupervisoryAction → Prop
  | .pause | .deny | .stop => True
  | .sandbox => (∀ entry, graph.IsEntry entry → Kept graph directive entry) ∧
      (∀ node, Kept graph directive node → (∀ next, graph.Edge node next → Kept graph directive next) ∨
        ∀ next, graph.Edge node next → ¬Kept graph directive next) ∧
      PeersAtEntries graph (Kept graph directive)
  | .degrade => (∀ (key : NodeId) (governanceNode : GovernanceNode), graph.nodes[key]? = some governanceNode →
        nodeTightens (degradationFactor directive) governanceNode) ∧
      PeersAtEntries graph fun _ => True
  | .reroute => NamesSuccessors graph directive ∧ PassesEntries regexes graph claims claim ∧ PeersAtEntries graph fun _ => True
  -- not a restrictive action
  | .rollback => False

/-- The graphs that runs supervise are closed, and on a closed acyclic graph a restraining action permits no new claimant. -/
theorem supervision_never_widens (host : ProtocolHost) :
    (∀ operations state graph monitorSession ledger declaration, run host operations = .ok state →
      activeOverlay state = .ok (graph, monitorSession, ledger, declaration) → graph.Closed) ∧
    ∀ graph declaration action directive overlay claims before after, graph.Closed → graph.Acyclic → action ≠ .rollback →
      applySupervisoryAction graph declaration action directive = .ok overlay →
      traverse host.regexes graph claims = .ok before → traverse host.regexes overlay claims = .ok after →
      ∀ claimant : ClaimantId, (∀ claim ∈ claims, claim.claimantId = claimant →
          Restrained host.regexes graph directive claims claim action) →
        after.finalDecisions[claimant]? = some .permit → before.finalDecisions[claimant]? = some .permit := by
  refine ⟨fun operations state graph monitorSession ledger declaration reached active =>
    run_activeClosed reached graph monitorSession ledger declaration active, ?_⟩
  intro graph declaration action directive overlay claims before after closed acyclic restrictive applied traversed traversedAfter claimant restrains
    permitted
  have refuted : ∀ {decision : Decision}, decision ≠ .permit → overlay = rewriteAsConstant graph decision → False := by
    intro decision withheld constant
    exact (constant ▸ refusing_rewriteAsConstant withheld : Refusing overlay).permitsNothing claims after traversedAfter _ permitted
  obtain ⟨flow, original⟩ := exists_traversed closed acyclic traversed
  cases action with
  | pause => exact (refuted (by decide) (Except.ok.inj applied).symm).elim
  | deny => exact (refuted (by decide) (Except.ok.inj applied).symm).elim
  | stop => exact (refuted (by decide) (Except.ok.inj applied).symm).elim
  | rollback => exact absurd rfl restrictive
  | sandbox =>
    obtain ⟨keep, rfl, kept⟩ := sandboxGraph_eq_ok applied
    obtain ⟨flow', sandboxed⟩ := exists_traversed (restrict_closed closed) (restrict_acyclic acyclic) traversedAfter
    obtain ⟨claim, listed, rfl⟩ := sandboxed.exists_claim permitted
    have restrains := restrains claim listed rfl
    simp only [Restrained, ← kept] at restrains
    obtain ⟨entries, whole, peers⟩ := restrains
    refine sandbox_narrows original sandboxed listed entries whole ?_ permitted
    exact fun key governanceNode atKey isKept => peers key governanceNode atKey ((kept key).1 isKept)
  | degrade =>
    obtain rfl := Except.ok.inj applied
    obtain ⟨flow', degraded⟩ := exists_traversed (degradeGraph_closed closed) (show (degradeGraph graph directive).Acyclic from acyclic)
      traversedAfter
    obtain ⟨claim, listed, rfl⟩ := degraded.exists_claim permitted
    obtain ⟨tightens, peers⟩ := restrains claim listed rfl
    exact degrade_narrows original degraded listed tightens peers permitted
  | reroute =>
    rcases rerouteGraph_eq_ok closed applied with constant | ⟨rerouteId, targets, rerouted, covers⟩
    · exact (refuted (by decide) constant).elim
    · obtain ⟨flow', overlaid⟩ := exists_traversed (rerouted.closed closed) (rerouted.acyclic closed acyclic) traversedAfter
      obtain ⟨claim, listed, rfl⟩ := overlaid.exists_claim permitted
      obtain ⟨names, passes, peers⟩ := restrains claim listed rfl
      exact reroute_narrows rerouted original overlaid listed (covers names) peers passes permitted

theorem supervision_never_widens_fork : ∃ before,
    traverse .error forkGraph [plainClaim "a" 0.25, plainClaim "b" 0.875, plainClaim "c" 1] = .ok before ∧
      before.finalDecisions["b"]? = some .permit := by
  obtain ⟨before, traversed⟩ := @exists_of_toBool _ _
    (traverse .error forkGraph [plainClaim "a" 0.25, plainClaim "b" 0.875, plainClaim "c" 1]) (by decide +kernel)
  obtain ⟨after, traversedAfter⟩ := @exists_of_toBool _ _ (traverse .error (degradeGraph forkGraph defaultDirective)
    [plainClaim "a" 0.25, plainClaim "b" 0.875, plainClaim "c" 1]) (by decide +kernel)
  have permitted : (traverse .error (degradeGraph forkGraph defaultDirective)
      [plainClaim "a" 0.25, plainClaim "b" 0.875, plainClaim "c" 1]).toOption.bind (·.finalDecisions["b"]?) = some .permit := by
    decide +kernel
  rw [traversedAfter] at permitted
  have tightens : ∀ entry ∈ forkGraph.nodes.toList, nodeTightens (degradationFactor defaultDirective) entry.2 := by decide +kernel
  have peers : ∀ entry ∈ forkGraph.nodes.toList, CohortFree entry.2 ∨ entry.1 ∈ entryNodes forkGraph := by decide +kernel
  refine ⟨before, traversed, (supervision_never_widens plainHost).2 forkGraph
    ⟨packageVersion, "2026-01-01T00:00:00Z", "spectral-governance", packageVersion, forkGraph, [], 0, 0⟩ .degrade defaultDirective _
    [plainClaim "a" 0.25, plainClaim "b" 0.875, plainClaim "c" 1] before after (@closed_of_valid forkGraph .error (by decide +kernel))
    (acyclic_of_ascending (by decide)) (by decide) rfl traversed traversedAfter "b" (fun _ _ _ => ⟨?_, ?_⟩) permitted⟩
  · exact fun key governanceNode atKey => tightens (key, governanceNode) (Std.ExtTreeMap.mem_toList_iff_getElem?_eq_some.2 atKey)
  · exact fun key governanceNode atKey _ => (peers (key, governanceNode) (Std.ExtTreeMap.mem_toList_iff_getElem?_eq_some.2 atKey)).imp_right
      mem_entryNodes.1

/-- A graph, an action on it and a batch of which one claimant is watched. -/
structure Intervention where
  graph : GovernanceGraph
  action : SupervisoryAction
  directive : SupervisoryDirective
  claims : List GovernanceClaim
  claimant : ClaimantId

/-- The action turns a decision that is no permit into a permit. -/
def Intervention.Widens (intervention : Intervention) : Prop :=
  ∃ overlay before after, applySupervisoryAction intervention.graph
      ⟨packageVersion, "2026-01-01T00:00:00Z", "spectral-governance", packageVersion, intervention.graph, [], 0, 0⟩ intervention.action
      intervention.directive = .ok overlay ∧
    traverse .error intervention.graph intervention.claims = .ok before ∧ traverse .error overlay intervention.claims = .ok after ∧
    before.finalDecisions[intervention.claimant]? ≠ some .permit ∧ after.finalDecisions[intervention.claimant]? = some .permit

def Intervention.widens (intervention : Intervention) : Bool :=
  match applySupervisoryAction intervention.graph
      ⟨packageVersion, "2026-01-01T00:00:00Z", "spectral-governance", packageVersion, intervention.graph, [], 0, 0⟩ intervention.action
      intervention.directive, traverse .error intervention.graph intervention.claims with
  | .ok overlay, .ok before =>
    match traverse .error overlay intervention.claims with
    | .ok after => decide (before.finalDecisions[intervention.claimant]? ≠ some .permit ∧
        after.finalDecisions[intervention.claimant]? = some .permit)
    | .error _ => false
  | _, _ => false

theorem Intervention.widens_sound {intervention : Intervention} (passes : intervention.widens = true) : intervention.Widens := by
  unfold Intervention.widens at passes
  split at passes
  · rename_i overlay before applied traversed
    split at passes
    · rename_i after traversedAfter
      obtain ⟨withheld, permitted⟩ := of_decide_eq_true passes
      exact ⟨overlay, before, after, applied, traversed, traversedAfter, withheld, permitted⟩
    · cases passes
  · cases passes

def upstream : NodeId := ⟨"a", by decide⟩
def inner : NodeId := ⟨"b", by decide⟩
def relay : NodeId := ⟨"c", by decide⟩
def exit : NodeId := ⟨"d", by decide⟩

def gateNode (id : NodeId) (gates : List Gate) (default : Decision) : NodeId × GovernanceNode :=
  (id, .binary id id.asStr gates default .firstMatch)

def linked (nodes : List (NodeId × GovernanceNode)) (links : List (NodeId × NodeId)) : GovernanceGraph where
  nodes := Std.ExtTreeMap.ofList nodes compare
  edges := links.map fun (source, target) => ⟨source, target, .passThrough⟩

def widenings : List Intervention := [
  -- a higher bound lets a claim slip past a denying gate
  ⟨linked [gateNode upstream [.thresholdGate "strength" 1 .deny] .permit] [], .degrade, defaultDirective, [plainClaim "x" 1], "x"⟩,
  -- or past an escalating one
  ⟨linked [gateNode upstream [.thresholdGate "strength" 1 .escalate] .permit] [], .degrade, defaultDirective, [plainClaim "x" 1], "x"⟩,
  -- a factor below one lowers the bound of a permitting gate
  ⟨linked [gateNode upstream [.thresholdGate "strength" 1 .permit] .deny] [], .degrade, ⟨[], some 0.5, []⟩, [plainClaim "x" 0.75], "x"⟩,
  -- stronger claims that now travel on hide the weakest from a peer gate
  ⟨linked [gateNode upstream [.thresholdGate "strength" 1 .permit] .escalate, gateNode inner [.peerRelative "strength" 1 .deny] .permit]
      [(upstream, inner)],
    .degrade, defaultDirective, [plainClaim "x" 0.5, plainClaim "y" 1.25], "x"⟩,
  -- the sandbox leaves out an entry that denies
  ⟨linked [gateNode upstream [] .deny, gateNode inner [] .permit] [(upstream, inner)], .sandbox, ⟨["b"], none, []⟩,
    [plainClaim "x" 1], "x"⟩,
  -- or the successor that denies
  ⟨linked [gateNode upstream [] .escalate, gateNode inner [] .permit, gateNode relay [] .deny] [(upstream, inner), (upstream, relay)],
    .sandbox, ⟨["a", "b"], none, []⟩, [plainClaim "x" 1], "x"⟩,
  -- or the way on which the peers of a claim arrive
  ⟨linked [gateNode upstream [.thresholdGate "strength" 1 .escalate] .permit, gateNode inner [.thresholdGate "strength" 1 .deny] .escalate,
      gateNode relay [] .escalate, gateNode exit [.peerRelative "strength" 1 .permit] .deny]
      [(upstream, relay), (inner, exit), (relay, exit)],
    .sandbox, ⟨["a", "b", "d"], none, []⟩, [plainClaim "x" 0.5, plainClaim "y" 2], "x"⟩,
  -- a reroute leads around an entry that denies
  ⟨linked [gateNode upstream [] .deny, gateNode inner [] .permit] [(upstream, inner)], .reroute, defaultDirective, [plainClaim "x" 1], "x"⟩,
  -- or around one at which escalated claims end
  ⟨linked [gateNode upstream [] .escalate, gateNode inner [] .escalate, gateNode relay [] .permit] [(inner, relay)], .reroute,
    defaultDirective, [plainClaim "x" 1], "x"⟩,
  -- or around a successor that denies
  ⟨linked [gateNode upstream [] .escalate, gateNode inner [] .permit, gateNode relay [] .deny]
      [(upstream, inner), (upstream, relay), (inner, relay)],
    .reroute, ⟨[], none, ["b"]⟩, [plainClaim "x" 1], "x"⟩,
  -- and it brings the claims that an entry kept back before a peer gate
  ⟨linked [gateNode upstream [.thresholdGate "strength" 1 .permit] .escalate, gateNode inner [.peerRelative "strength" 1 .deny] .permit]
      [(upstream, inner)],
    .reroute, defaultDirective, [plainClaim "x" 0.5, plainClaim "y" 1.25], "x"⟩]

theorem supervision_widens : ∀ intervention ∈ widenings, intervention.graph.Acyclic ∧ intervention.Widens := by
  intro intervention member
  have ascending : ∀ intervention ∈ widenings, ∀ edge ∈ intervention.graph.edges, compare edge.fromNode edge.toNode = .lt := by decide
  have widens : ∀ intervention ∈ widenings, intervention.widens = true := by decide +kernel
  exact ⟨acyclic_of_ascending (ascending intervention member), (widens intervention member) |> Intervention.widens_sound⟩

/-- None of the three actions only takes permissions away. -/
theorem not_supervision_never_widens :
    (¬∀ intervention : Intervention, intervention.action = .degrade → intervention.graph.Acyclic → ¬intervention.Widens) ∧
      (¬∀ intervention : Intervention, intervention.action = .sandbox → intervention.graph.Acyclic → ¬intervention.Widens) ∧
      ¬∀ intervention : Intervention, intervention.action = .reroute → intervention.graph.Acyclic → ¬intervention.Widens := by
  have listed : ∀ place (inside : place < widenings.length), (widenings.get ⟨place, inside⟩).graph.Acyclic ∧
      (widenings.get ⟨place, inside⟩).Widens := fun place inside => supervision_widens _ (List.get_mem _ _)
  refine ⟨fun never => ?_, fun never => ?_, fun never => ?_⟩
  · obtain ⟨acyclic, widens⟩ := listed 0 (by decide)
    exact never _ rfl acyclic widens
  · obtain ⟨acyclic, widens⟩ := listed 4 (by decide)
    exact never _ rfl acyclic widens
  · obtain ⟨acyclic, widens⟩ := listed 7 (by decide)
    exact never _ rfl acyclic widens

end

end Legitimacy.Protocol
