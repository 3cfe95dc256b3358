import Legitimacy.DecisionShares
import Legitimacy.SyntheticClaims
import Legitimacy.TraversalDecisions

namespace Legitimacy

open ExceptRun

def Gate.readsPeers : Gate → Bool
  | .peerRelative .. => true
  | _ => false

/-- No gate of the graph looks at the other claims of the cohort. -/
def GovernanceGraph.PeerFree (graph : GovernanceGraph) : Prop :=
  ∀ (key : NodeId) (node : GovernanceNode), graph.nodes[key]? = some node → ∀ gate ∈ nodeGates node, gate.readsPeers = false

theorem peerFree_of_toList {graph : GovernanceGraph}
    (free : ∀ entry ∈ graph.nodes.toList, ∀ gate ∈ nodeGates entry.2, gate.readsPeers = false) : graph.PeerFree :=
  fun key node found => free (key, node) (Std.ExtTreeMap.mem_toList_iff_getElem?_eq_some.2 found)

section

variable {regexes : RegexEngine} {claim : GovernanceClaim} (first second : List GovernanceClaim)

theorem gateMatches_cohort {gate : Gate} (free : gate.readsPeers = false) :
    gateMatches regexes claim first gate = gateMatches regexes claim second gate := by
  cases gate with
  | peerRelative => cases free
  | _ => rfl

theorem evaluateFirstMatch_cohort {gates : List Gate} (free : ∀ gate ∈ gates, gate.readsPeers = false) (default : Decision) :
    evaluateFirstMatch regexes claim first default gates = evaluateFirstMatch regexes claim second default gates := by
  induction gates with
  | nil => rfl
  | cons gate rest ih =>
    unfold evaluateFirstMatch
    rw [gateMatches_cohort first second (free gate List.mem_cons_self), ih fun other listed => free other (List.mem_cons_of_mem gate listed)]

theorem matchedDecisions_cohort {gates : List Gate} (free : ∀ gate ∈ gates, gate.readsPeers = false) :
    matchedDecisions regexes claim first gates = matchedDecisions regexes claim second gates := by
  induction gates with
  | nil => rfl
  | cons gate rest ih =>
    unfold matchedDecisions
    rw [gateMatches_cohort first second (free gate List.mem_cons_self), ih fun other listed => free other (List.mem_cons_of_mem gate listed)]

theorem allMustPassLoop_cohort {gates : List Gate} (free : ∀ gate ∈ gates, gate.readsPeers = false) (matchedCount : Nat)
    (sawEscalate : Bool) :
    allMustPassLoop regexes claim first gates matchedCount sawEscalate =
      allMustPassLoop regexes claim second gates matchedCount sawEscalate := by
  induction gates generalizing matchedCount sawEscalate with
  | nil => rfl
  | cons gate rest ih =>
    have later := ih fun other listed => free other (List.mem_cons_of_mem gate listed)
    unfold allMustPassLoop
    simp only [gateMatches_cohort first second (free gate List.mem_cons_self), later]

theorem claimDecision_cohort {node : GovernanceNode} (free : ∀ gate ∈ nodeGates node, gate.readsPeers = false) :
    claimDecision regexes node first claim = claimDecision regexes node second claim := by
  cases node with
  | threshold => rfl
  | proportional => rfl
  | binary id name gates default combination =>
    have noPeers : ∀ gate ∈ gates, gate.readsPeers = false := free
    cases combination with
    | firstMatch => exact evaluateFirstMatch_cohort first second noPeers default
    | anyMustPass =>
      have same := @matchedDecisions_cohort regexes claim first second gates noPeers
      show evaluateAnyMustPass .. = evaluateAnyMustPass ..
      unfold evaluateAnyMustPass
      rw [same]
    | allMustPass =>
      have same := @allMustPassLoop_cohort regexes claim first second gates noPeers 0 false
      show evaluateAllMustPass .. = evaluateAllMustPass ..
      unfold evaluateAllMustPass
      rw [same]

end

section

variable {regexes : RegexEngine} {graph : GovernanceGraph} {claims part : List GovernanceClaim} {flow : NodeId → Set GovernanceClaim}

theorem decides_inter (free : graph.PeerFree) {node : NodeId} {arrived : Set GovernanceClaim} {cohort : List GovernanceClaim}
    (feed : FeedOf cohort arrived) {claim : GovernanceClaim} {decision : Decision} :
    Decides regexes graph node (arrived ∩ {claim | claim ∈ part}) claim decision ↔
      claim ∈ part ∧ Decides regexes graph node arrived claim decision := by
  classical
  have filtered : FeedOf (cohort.filter (· ∈ part)) (arrived ∩ {claim | claim ∈ part}) := by
    refine ⟨feed.distinct.sublist (List.filter_sublist.map _), fun claim => ?_⟩
    rw [List.mem_filter, decide_eq_true_iff, feed.mem_iff]
    exact Iff.rfl
  constructor
  · intro decides
    obtain ⟨governanceNode, -, atNode, -⟩ := id decides
    obtain ⟨member, made⟩ := (decides_iff atNode filtered).1 decides
    obtain ⟨arrives, inPart⟩ := List.mem_filter.1 member
    rw [claimDecision_cohort _ cohort (free node governanceNode atNode)] at made
    exact ⟨of_decide_eq_true inPart, (decides_iff atNode feed).2 ⟨arrives, made⟩⟩
  · rintro ⟨inPart, decides⟩
    obtain ⟨governanceNode, -, atNode, -⟩ := id decides
    obtain ⟨arrives, made⟩ := (decides_iff atNode feed).1 decides
    rw [claimDecision_cohort cohort (cohort.filter (· ∈ part)) (free node governanceNode atNode)] at made
    exact (decides_iff atNode filtered).2 ⟨List.mem_filter.2 ⟨arrives, decide_eq_true inPart⟩, made⟩

theorem isFlow_part (free : graph.PeerFree) (batch : ValidBatch claims) (within : ∀ node, flow node ⊆ {claim | claim ∈ claims})
    (isFlow : (claimNetwork regexes graph claims).IsFlow flow) (subset : part ⊆ claims) :
    (claimNetwork regexes graph part).IsFlow fun node => flow node ∩ {claim | claim ∈ part} := by
  obtain ⟨reached, feeds⟩ := exists_cohorts batch within
  refine @FlowNetwork.IsFlow.restrict _ _ _ (claimNetwork regexes graph part) _ isFlow rfl rfl (fun claim listed => subset listed)
    fun node => ?_
  ext claim
  show claim ∈ flow node ∩ {claim | claim ∈ part} ∧ Decides regexes graph node (flow node ∩ {claim | claim ∈ part}) claim .escalate ↔
    (claim ∈ flow node ∧ Decides regexes graph node (flow node) claim .escalate) ∧ claim ∈ part
  rw [decides_inter free (feeds node)]
  constructor
  · rintro ⟨⟨arrived, _⟩, inPart, decides⟩
    exact ⟨⟨arrived, decides⟩, inPart⟩
  · rintro ⟨⟨arrived, decides⟩, inPart⟩
    exact ⟨⟨arrived, inPart⟩, inPart, decides⟩

theorem decidedOn_part (free : graph.PeerFree) (batch : ValidBatch claims) (within : ∀ node, flow node ⊆ {claim | claim ∈ claims})
    (subset : part ⊆ claims) {claim : GovernanceClaim} (listed : claim ∈ part) (visited : NodeId → Prop) :
    decidedOn regexes graph (fun node => flow node ∩ {claim | claim ∈ part}) visited claim.claimantId =
      decidedOn regexes graph flow visited claim.claimantId := by
  obtain ⟨reached, feeds⟩ := exists_cohorts batch within
  ext decision
  simp only [decidedOn, Set.mem_ofPred_eq, decides_inter free (feeds _)]
  refine exists_congr fun node => and_congr_right fun _ => exists_congr fun other => and_congr_right fun sameId => and_congr_left fun _ => ?_
  refine ⟨fun both => both.2, fun decides => ⟨?_, decides⟩⟩
  obtain ⟨-, cohort, -, feed, member, -⟩ := id decides
  have inBatch := within node ((feed.mem_iff other).1 member)
  exact batch.eq_of_id inBatch (subset listed) sameId ▸ listed

theorem exists_decision_of_listed (closed : graph.Closed) (acyclic : graph.Acyclic) (plain : graph.Plain)
    {decisions : BTreeMap ClaimantId Decision} (run : traverseFinalDecisions regexes graph claims = .ok decisions) {claim : GovernanceClaim}
    (listed : claim ∈ claims) : ∃ decision, decisions[claim.claimantId]? = some decision := by
  obtain ⟨-, nonempty, flow, isFlow, evaluable, records⟩ := determined_of_traversal closed acyclic plain run
  have settled := (decidedOn_nonempty_iff closed acyclic nonempty isFlow evaluable).2 ⟨claim, listed, rfl⟩
  obtain ⟨decision, least⟩ := exists_leastDecision settled
  exact ⟨decision, (records claim.claimantId decision).2 least⟩

theorem traverseFinalDecisions_part (closed : graph.Closed) (acyclic : graph.Acyclic) (plain : graph.Plain) (free : graph.PeerFree)
    {decisions : BTreeMap ClaimantId Decision} (run : traverseFinalDecisions regexes graph claims = .ok decisions)
    (subset : part ⊆ claims) (distinct : (part.map (·.claimantId)).Nodup) :
    ∃ others, traverseFinalDecisions regexes graph part = .ok others ∧
      ∀ claim ∈ part, others[claim.claimantId]? = decisions[claim.claimantId]? := by
  obtain ⟨batch, nonempty, flow, isFlow, evaluable, records⟩ := determined_of_traversal closed acyclic plain run
  have within := claimNetwork_within acyclic isFlow
  have partFlow := isFlow_part free batch within isFlow subset
  have partBatch : ValidBatch part := ⟨fun claim listed => batch.valid claim (subset listed), distinct⟩
  obtain ⟨reached, feeds⟩ := exists_cohorts batch within
  have partEvaluable : Evaluable regexes graph fun node => flow node ∩ {claim | claim ∈ part} := by
    intro node inGraph claim arrived
    obtain ⟨decision, decides⟩ := evaluable node inGraph claim arrived.1
    exact ⟨decision, (decides_inter free (feeds node)).2 ⟨arrived.2, decides⟩⟩
  obtain ⟨others, traversed, partRecords⟩ := traverseFinalDecisions_of_evaluable closed acyclic plain nonempty partBatch partFlow partEvaluable
  exact ⟨others, traversed, fun claim listed => partRecords.lookup_eq records (decidedOn_part free batch within subset listed _)⟩

end

namespace Diagnostics

theorem firstChange_none {before after : BTreeMap ClaimantId Decision} {beforeContext afterContext : String}
    {changed : Decision → Decision → Bool} {ids : List ClaimantId}
    (kept : ∀ claimant ∈ ids, ∃ first second, before[claimant]? = some first ∧ after[claimant]? = some second ∧ changed first second = false) :
    firstChange before after beforeContext afterContext changed ids = .ok none := by
  induction ids with
  | nil => rfl
  | cons claimant rest ih =>
    obtain ⟨first, second, atFirst, atSecond, same⟩ := kept claimant List.mem_cons_self
    have later := ih fun other listed => kept other (List.mem_cons_of_mem claimant listed)
    unfold firstChange decisionOf
    simp only [atFirst, atSecond, bind, Except.bind, same]
    exact later

section

variable {regexes : RegexEngine} {graph : GovernanceGraph} {claims : List GovernanceClaim}

theorem consistencyLoop_admissible (closed : graph.Closed) (acyclic : graph.Acyclic) (plain : graph.Plain) (free : graph.PeerFree)
    {original : Baseline} (run : traverseFinalDecisions regexes graph claims = .ok original.decisions)
    (removals : List (GovernanceClaim × Nat)) (perturbationsTested : Nat) :
    consistencyLoop regexes graph claims original removals perturbationsTested =
      .ok (.admissible "graph consistency" (perturbationsTested + removals.length)) := by
  obtain ⟨batch, -⟩ := determined_of_traversal closed acyclic plain run
  induction removals generalizing perturbationsTested with
  | nil => rfl
  | cons removal rest ih =>
    have sublist := List.eraseIdx_sublist claims removal.2
    have reducedBatch : ValidBatch (claims.eraseIdx removal.2) :=
      ⟨fun claim listed => batch.valid claim (sublist.subset listed), batch.distinct.sublist (sublist.map _)⟩
    obtain ⟨reduced, traversed, agrees⟩ := traverseFinalDecisions_part closed acyclic plain free run sublist.subset reducedBatch.distinct
    obtain ⟨allocation, allocated⟩ := decisionAllocation_of_valid reducedBatch reduced
    have unchanged : firstChange original.decisions reduced "graph consistency original lookup" "graph consistency reduced lookup"
        (fun before after => decide (before ≠ after)) ((claims.eraseIdx removal.2).map (·.claimantId)) = .ok none := by
      refine firstChange_none fun claimant listed => ?_
      obtain ⟨claim, inPart, rfl⟩ := List.mem_map.1 listed
      obtain ⟨decision, found⟩ := exists_decision_of_listed closed acyclic plain run (sublist.subset inPart)
      exact ⟨decision, decision, found, (agrees claim inPart).trans found, by simp⟩
    unfold consistencyLoop
    refine bind_eq_ok.2 ⟨reduced, traversed, bind_eq_ok.2 ⟨allocation, allocated, bind_eq_ok.2 ⟨none, unchanged, ?_⟩⟩⟩
    rw [List.length_cons, Nat.add_comm rest.length, ← Nat.add_assoc]
    exact ih (perturbationsTested + 1)

end

end Diagnostics

/-- A claimant's final decision is that of a traversal of its claim alone, so removing other claimants changes nothing. -/
theorem traverse_claim_alone (regexes : RegexEngine) (graph : GovernanceGraph) (claims : List GovernanceClaim) (result : TraversalResult)
    (valid : validateGovernanceGraph regexes graph = .ok ()) (acyclic : graph.Acyclic) (plain : graph.Plain) (free : graph.PeerFree)
    (run : traverse regexes graph claims = .ok result) :
    (∀ claim ∈ claims, ∃ alone decision, traverse regexes graph [claim] = .ok alone ∧
      alone.finalDecisions[claim.claimantId]? = some decision ∧ result.finalDecisions[claim.claimantId]? = some decision) ∧
    Diagnostics.checkGraphConsistency regexes graph claims = .ok (.admissible "graph consistency" claims.length) := by
  have closed := closed_of_valid valid
  have final := traverse_final run
  constructor
  · intro claim listed
    have single : [claim] ⊆ claims := fun other same => List.mem_singleton.1 same ▸ listed
    obtain ⟨others, traversed, agrees⟩ := traverseFinalDecisions_part closed acyclic plain free final single (List.nodup_singleton _)
    obtain ⟨alone, aloneRun, rfl⟩ := exists_traversal traversed
    obtain ⟨decision, found⟩ := exists_decision_of_listed closed acyclic plain final listed
    exact ⟨alone, decision, aloneRun, (agrees claim List.mem_cons_self).trans found, found⟩
  · obtain ⟨batch, -⟩ := determined_of_traversal closed acyclic plain final
    obtain ⟨original, based, sameDecisions⟩ := Diagnostics.baseline_of_traversal batch final
    refine bind_eq_ok.2 ⟨original, based, ?_⟩
    have admissible := Diagnostics.consistencyLoop_admissible closed acyclic plain free (sameDecisions ▸ final) claims.zipIdx 0
    rw [List.length_zipIdx, Nat.zero_add] at admissible
    exact admissible

/-- An entry that permits the strong claims and escalates the rest to a threshold. -/
def reviewGraph : GovernanceGraph where
  nodes := Std.ExtTreeMap.ofList [
    (⟨"entry", entry_named⟩, .binary ⟨"entry", entry_named⟩ "entry" [.thresholdGate "strength" 0.75 .permit] .escalate .firstMatch),
    (⟨"review", by decide⟩, .threshold ⟨"review", by decide⟩ "review" 0.5 "strength")] compare
  edges := [⟨⟨"entry", entry_named⟩, ⟨"review", by decide⟩, .passThrough⟩]

theorem traverse_claim_alone_review :
    Diagnostics.checkGraphConsistency .error reviewGraph [plainClaim "a" 0.25, plainClaim "b" 0.5, plainClaim "c" 1] =
      .ok (.admissible "graph consistency" 3) := by
  obtain ⟨result, run⟩ := exists_of_toBool (show (traverse .error reviewGraph
    [plainClaim "a" 0.25, plainClaim "b" 0.5, plainClaim "c" 1]).toBool = true by decide +kernel)
  exact (traverse_claim_alone .error reviewGraph _ result (by decide +kernel) (acyclic_of_ascending (by decide))
    (plain_of_toList (by decide +kernel)) (peerFree_of_toList (by decide +kernel)) run).2

end Legitimacy
