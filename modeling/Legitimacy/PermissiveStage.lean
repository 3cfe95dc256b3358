import Legitimacy.GraphChecks
import Legitimacy.AppendedStage

namespace Legitimacy

open ExceptRun

section

theorem sinkName_nonBlank (index : Nat) : isBlank (sinkName index) = false := by
  unfold isBlank sinkName
  rw [String.toList_append, List.all_append]
  have prefixed : "__kernel_compositional_append_".toList.all isWhitespace = false := by decide
  rw [prefixed, Bool.false_and]

def sinkCandidate (index : Nat) : NodeId := ⟨sinkName index, sinkName_nonBlank index⟩

theorem freshSinkId_fresh (graph : GovernanceGraph) : ∃ sink, freshSinkId graph = .ok sink ∧ sink ∉ graph.nodes := by
  have injective : Function.Injective sinkCandidate := fun first second same => Nat.repr_injective ((String.append_right_inj _).1 (congrArg NodeId.asStr same))
  obtain ⟨sink, found, unused⟩ := exists_find_free graph injective
  have candidates : (List.range (graph.nodes.size + 1)).mapM (fun index => NodeId.new (sinkName index)) =
      .ok ((List.range (graph.nodes.size + 1)).map sinkCandidate) := by
    rw [mapM_eq_ok, List.forall₂_map_right_iff, List.forall₂_same]
    exact fun index _ => newNodeId_eq (sinkName_nonBlank index)
  refine ⟨sink, bind_eq_ok.2 ⟨_, candidates, ?_⟩, unused⟩
  rw [found]

end

section

variable {regexes : RegexEngine} {graph : GovernanceGraph} {claims : List GovernanceClaim} {sink : NodeId}

/-- The graph with a permitting sink after every terminal node. -/
def GovernanceGraph.withPermissiveSink (graph : GovernanceGraph) (sink : NodeId) : GovernanceGraph where
  nodes := graph.nodes.insert sink (.binary sink "kernel-compositional-permit-suffix" [] .permit .firstMatch)
  edges := graph.edges ++ (terminalNodes graph).map fun source => ⟨source, sink, .passThrough⟩

theorem mem_terminalNodes {node : NodeId} : node ∈ terminalNodes graph ↔ node ∈ graph.nodes ∧ ∀ next, ¬graph.Edge node next := by
  unfold terminalNodes
  rw [List.mem_filter, Std.ExtTreeMap.mem_keys, decide_eq_true_iff]
  refine and_congr_right fun _ => ?_
  constructor
  · rintro terminal next ⟨edge, listed, source, -⟩
    exact terminal (List.mem_map.2 ⟨edge, listed, source⟩)
  · intro leaf source
    obtain ⟨edge, listed, same⟩ := List.mem_map.1 source
    exact leaf edge.toNode ⟨edge, listed, same, rfl⟩

theorem permissive_after (closed : graph.Closed) (acyclic : graph.Acyclic) (nonempty : graph.nodes.isEmpty = false)
    (fresh : sink ∉ graph.nodes) :
    StageAfter graph (terminalNodes graph) (.binary sink "kernel-compositional-permit-suffix" [] .permit .firstMatch) := by
  obtain ⟨entry, isEntry⟩ := exists_entry closed acyclic nonempty
  obtain ⟨last, inGraph, final⟩ := acyclic.reverseWellFounded.has_min {node | node ∈ graph.nodes} ⟨entry, isEntry.1⟩
  have terminal : last ∈ terminalNodes graph := mem_terminalNodes.2 ⟨inGraph, fun next link => final next (closed.ends link).2 link⟩
  exact {
    known := fun exit isExit => (mem_terminalNodes.1 isExit).1
    leaf := fun exit isExit => (mem_terminalNodes.1 isExit).2
    inhabited := List.ne_nil_of_mem terminal
    fresh := fresh
    plain := rfl }

/-- What an escalation becomes once every exit leads to the sink. -/
def permitted : Decision → Decision
  | .escalate => .permit
  | decision => decision

theorem least_permitted {made settled : Set Decision} {decision : Decision}
    (settles : ∀ other, other ∈ settled ↔ (other ∈ made ∧ other ≠ .escalate) ∨ (other = .permit ∧ .escalate ∈ made))
    (least : IsLeastDecision made decision) : IsLeastDecision settled (permitted decision) := by
  cases decision with
  | deny => exact ⟨(settles .deny).2 (Or.inl ⟨least.1, by decide⟩), fun other _ => Nat.zero_le _⟩
  | escalate =>
    refine ⟨(settles .permit).2 (Or.inr ⟨rfl, least.1⟩), fun other member => ?_⟩
    rcases (settles other).1 member with ⟨inMade, travelled⟩ | ⟨rfl, -⟩
    · have above := least.2 other inMade
      cases other with
      | deny => exact absurd above (by decide)
      | escalate => exact absurd rfl travelled
      | permit => exact Nat.le_refl _
    · exact Nat.le_refl _
  | permit =>
    refine ⟨(settles .permit).2 (Or.inl ⟨least.1, by decide⟩), fun other member => ?_⟩
    rcases (settles other).1 member with ⟨inMade, -⟩ | ⟨rfl, -⟩
    · exact least.2 other inMade
    · exact Nat.le_refl _

theorem settles_permitted {flow : NodeId → Set GovernanceClaim} {cohort : List GovernanceClaim} (sink : NodeId)
    (feed : FeedOf cohort (escalatedAt regexes graph flow (terminalNodes graph))) (claimant : ClaimantId) (decision : Decision) :
    decision ∈ keptDecisions regexes graph flow (terminalNodes graph) claimant ∪ {decision | ∃ claim, claim.claimantId = claimant ∧
        Decides regexes (graph.withPermissiveSink sink) sink (escalatedAt regexes graph flow (terminalNodes graph)) claim decision} ↔
      (decision ∈ decidedOn regexes graph flow (· ∈ graph.nodes) claimant ∧ decision ≠ .escalate) ∨
        (decision = .permit ∧ .escalate ∈ decidedOn regexes graph flow (· ∈ graph.nodes) claimant) := by
  have atSink : (graph.withPermissiveSink sink).nodes[sink]? =
      some (.binary sink "kernel-compositional-permit-suffix" [] .permit .firstMatch) := by
    unfold GovernanceGraph.withPermissiveSink
    rw [lookup_insert, if_pos rfl]
  constructor
  · rintro (⟨node, inGraph, claim, sameId, decides, counts⟩ | ⟨claim, sameId, decides⟩)
    · have stays : decision ≠ .escalate := by
        intro escalated
        refine counts ⟨escalated, ?_⟩
        by_cases leaf : ∃ next, graph.Edge node next
        · exact Or.inl leaf
        · exact Or.inr (mem_terminalNodes.2 ⟨inGraph, not_exists.1 leaf⟩)
      exact Or.inl ⟨⟨node, inGraph, claim, sameId, decides, fun both => stays both.1⟩, stays⟩
    · obtain ⟨member, made⟩ := (decides_iff atSink feed).1 decides
      obtain ⟨exit, isExit, -, escalates⟩ := (feed.mem_iff claim).1 member
      obtain ⟨inGraph, leaf⟩ := mem_terminalNodes.1 isExit
      exact Or.inr ⟨(Except.ok.inj made).symm, exit, inGraph, claim, sameId, escalates, fun both => both.2.elim leaf⟩
  · rintro (⟨⟨node, inGraph, claim, sameId, decides, -⟩, stays⟩ | ⟨rfl, node, inGraph, claim, sameId, escalates, counts⟩)
    · exact Or.inl ⟨node, inGraph, claim, sameId, decides, fun both => stays both.1⟩
    · have leaf : ∀ next, ¬graph.Edge node next := fun next link => counts ⟨rfl, next, link⟩
      obtain ⟨-, arrivals, -, arrivalFeed, member, -⟩ := id escalates
      have travels : claim ∈ escalatedAt regexes graph flow (terminalNodes graph) :=
        ⟨node, mem_terminalNodes.2 ⟨inGraph, leaf⟩, (arrivalFeed.mem_iff claim).1 member, escalates⟩
      exact Or.inr ⟨claim, sameId, (decides_iff atSink feed).2 ⟨(feed.mem_iff claim).2 travels, rfl⟩⟩

theorem traverseFinalDecisions_appended (closed : graph.Closed) (acyclic : graph.Acyclic) (fresh : sink ∉ graph.nodes)
    {decisions : BTreeMap ClaimantId Decision} (run : traverseFinalDecisions regexes graph claims = .ok decisions) :
    ∃ after, traverseFinalDecisions regexes (graph.withPermissiveSink sink) claims = .ok after ∧
      ∀ claimant : ClaimantId, after[claimant]? = (decisions[claimant]?).map permitted := by
  obtain ⟨-, nonempty, -⟩ := determined_of_traversal closed acyclic (plain_of_traversal closed acyclic run) run
  obtain ⟨flow, after, -, ⟨cohort, -, feed⟩, records, traversed, newRecords⟩ :=
    traverseFinalDecisions_staged (permissive_after closed acyclic nonempty fresh) closed acyclic
      (fun _ _ _ _ => ⟨.permit, rfl⟩) run
  refine ⟨after, traversed, fun claimant => ?_⟩
  have settles := fun decision => settles_permitted sink feed claimant decision
  cases found : decisions[claimant]? with
  | some decision => exact (newRecords claimant _).2 (least_permitted settles ((records claimant decision).1 found))
  | none =>
    refine newRecords.none_iff.2 (Set.eq_empty_of_forall_notMem fun decision member => ?_)
    have settled := (settles decision).1 member
    rw [records.none_iff.1 found] at settled
    simp at settled

end

theorem checkGraphCompositionalSafety_pass {regexes : RegexEngine} {graph : GovernanceGraph} {claims : List GovernanceClaim}
    (closed : graph.Closed) (acyclic : graph.Acyclic) {decisions : BTreeMap ClaimantId Decision}
    (run : traverseFinalDecisions regexes graph claims = .ok decisions) :
    checkGraphCompositionalSafety regexes graph claims = .ok (.pass .compositionalSafety claims.length) := by
  obtain ⟨sink, searched, fresh⟩ := freshSinkId_fresh graph
  obtain ⟨after, traversed, agrees⟩ := traverseFinalDecisions_appended closed acyclic fresh run
  have appends : appendPermissiveStage graph = .ok (graph.withPermissiveSink sink) := bind_eq_ok.2 ⟨sink, searched, rfl⟩
  obtain ⟨-, nonempty, -⟩ := determined_of_traversal closed acyclic (plain_of_traversal closed acyclic run) run
  have none : (claims.find? fun claim => (decisions[claim.claimantId]?).getD .escalate = .deny ∧
      (after[claim.claimantId]?).getD .escalate ≠ .deny) = none := by
    refine List.find?_eq_none.2 fun claim _ revived => ?_
    have revived := of_decide_eq_true revived
    rw [agrees claim.claimantId] at revived
    cases found : decisions[claim.claimantId]? with
    | none => simp [found] at revived
    | some decision => cases decision <;> simp [found, permitted] at revived
  unfold checkGraphCompositionalSafety
  refine bind_eq_ok.2 ⟨[], detectCycles_acyclic closed acyclic, ?_⟩
  rw [if_neg (not_not.2 rfl), if_neg (by simp [nonempty])]
  refine bind_eq_ok.2 ⟨_, run, bind_eq_ok.2 ⟨_, appends, bind_eq_ok.2 ⟨_, traversed, ?_⟩⟩⟩
  dsimp only
  rw [none]

/-- Appending a permissive stage replaces each escalation by a permit and revives no denial, so the check passes. -/
theorem append_permissive_stage_decisions (regexes : RegexEngine) (graph : GovernanceGraph) (claims : List GovernanceClaim)
    (result : TraversalResult) (valid : validateGovernanceGraph regexes graph = .ok ()) (acyclic : graph.Acyclic)
    (run : traverse regexes graph claims = .ok result) :
    (∃ sink, freshSinkId graph = .ok sink ∧ sink ∉ graph.nodes) ∧
    (∃ appended after, appendPermissiveStage graph = .ok appended ∧ traverse regexes appended claims = .ok after ∧
      ∀ claimant : ClaimantId, after.finalDecisions[claimant]? = (result.finalDecisions[claimant]?).map permitted) ∧
    checkGraphCompositionalSafety regexes graph claims = .ok (.pass .compositionalSafety claims.length) := by
  have closed := closed_of_valid valid
  have final := traverse_final run
  obtain ⟨sink, searched, fresh⟩ := freshSinkId_fresh graph
  obtain ⟨decisions, traversed, agrees⟩ := traverseFinalDecisions_appended closed acyclic fresh final
  obtain ⟨after, afterRun, rfl⟩ := exists_traversal traversed
  have appends : appendPermissiveStage graph = .ok (graph.withPermissiveSink sink) := bind_eq_ok.2 ⟨sink, searched, rfl⟩
  exact ⟨⟨sink, searched, fresh⟩, ⟨_, after, appends, afterRun, agrees⟩, checkGraphCompositionalSafety_pass closed acyclic final⟩

theorem append_permissive_stage_decisions_fork :
    checkGraphCompositionalSafety .error forkGraph [plainClaim "a" 0.25, plainClaim "b" 0.5, plainClaim "c" 1] =
      .ok (.pass .compositionalSafety 3) := by
  obtain ⟨result, run⟩ := exists_of_toBool (show (traverse .error forkGraph
    [plainClaim "a" 0.25, plainClaim "b" 0.5, plainClaim "c" 1]).toBool = true by decide +kernel)
  exact (append_permissive_stage_decisions .error forkGraph _ result (by decide +kernel) (acyclic_of_ascending (by decide)) run).2.2

end Legitimacy
