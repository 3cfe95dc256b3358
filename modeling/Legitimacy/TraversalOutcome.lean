import Legitimacy.CycleDetection
import Legitimacy.TraversalRun

namespace Legitimacy

open ExceptRun

section

variable {regexes : RegexEngine} {graph : GovernanceGraph} {claims : List GovernanceClaim}

theorem claimNetwork_within (acyclic : graph.Acyclic) {flow : NodeId → Set GovernanceClaim}
    (isFlow : (claimNetwork regexes graph claims).IsFlow flow) (node : NodeId) : flow node ⊆ {claim | claim ∈ claims} :=
  isFlow.subset_input acyclic.wellFounded node

theorem exists_claimFlow (regexes : RegexEngine) (claims : List GovernanceClaim) (acyclic : graph.Acyclic) :
    ∃ flow, (claimNetwork regexes graph claims).IsFlow flow :=
  (claimNetwork regexes graph claims).exists_flow acyclic.wellFounded

theorem traversal_parts (regexes : RegexEngine) (batch : ValidBatch claims) :
    LoopParts regexes claims (evaluateNodeValidated regexes) mergeSharedClaimBatches :=
  ⟨fun _ _ _ _ => rfl, mergeSharedClaimBatches_unites batch⟩

theorem exists_entry (closed : graph.Closed) (acyclic : graph.Acyclic) (nonempty : graph.nodes.isEmpty = false) :
    ∃ node, graph.IsEntry node := by
  obtain ⟨some, member⟩ : ∃ node, node ∈ graph.nodes := by
    by_contra none
    push Not at none
    exact Std.ExtTreeMap.isEmpty_eq_false_iff.1 nonempty (Std.ExtTreeMap.eq_empty_iff_forall_not_mem.2 none)
  obtain ⟨least, inGraph, first⟩ := acyclic.wellFounded.has_min {node | node ∈ graph.nodes} ⟨some, member⟩
  exact ⟨least, inGraph, fun previous link => first previous (closed.ends link).1 link⟩

theorem traverseClaims_run (closed : graph.Closed) (acyclic : graph.Acyclic) {captureNodeDecisions : Bool}
    {entries : List NodeId} {final : TraversalState}
    (run : traverseClaims regexes graph claims captureNodeDecisions = .ok (entries, final)) :
    validateGovernanceClaims claims = .ok () ∧ graph.nodes.isEmpty = false ∧ ∃ order, graph.LegalOrder order ∧
      order.foldlM (visitNode graph (evaluateNodeValidated regexes) mergeSharedClaimBatches)
        (startState graph claims captureNodeDecisions) = .ok final := by
  obtain ⟨order, ordered, legal⟩ := topologicalOrder_legal closed acyclic
  unfold traverseClaims at run
  obtain ⟨⟨⟩, validated, afterClaims⟩ := bind_eq_ok.1 run
  obtain ⟨cycles, detected, afterCycles⟩ := bind_eq_ok.1 afterClaims
  obtain rfl : cycles = [] := Except.ok.inj (detected.symm.trans (detectCycles_acyclic closed acyclic))
  obtain ⟨nonempty, afterEntries⟩ := guard_eq_ok.1 afterCycles
  obtain ⟨other, sameOrder, afterOrder⟩ := bind_eq_ok.1 afterEntries
  obtain rfl : order = other := Except.ok.inj (ordered.symm.trans sameOrder)
  obtain ⟨last, looped, made⟩ := bind_eq_ok.1 afterOrder
  obtain rfl : last = final := congrArg Prod.snd (Except.ok.inj made)
  exact ⟨validated, Bool.eq_false_iff.2 fun empty => nonempty (Or.inl empty), order, legal, looped⟩

theorem traverseClaims_of_run (closed : graph.Closed) (acyclic : graph.Acyclic) (nonempty : graph.nodes.isEmpty = false)
    (validated : validateGovernanceClaims claims = .ok ()) {captureNodeDecisions : Bool}
    (loops : ∀ order, graph.LegalOrder order → ∃ final,
      order.foldlM (visitNode graph (evaluateNodeValidated regexes) mergeSharedClaimBatches)
        (startState graph claims captureNodeDecisions) = .ok final) :
    ∃ entries final order, graph.LegalOrder order ∧
      order.foldlM (visitNode graph (evaluateNodeValidated regexes) mergeSharedClaimBatches)
        (startState graph claims captureNodeDecisions) = .ok final ∧
      traverseClaims regexes graph claims captureNodeDecisions = .ok (entries, final) := by
  obtain ⟨order, ordered, legal⟩ := topologicalOrder_legal closed acyclic
  obtain ⟨final, looped⟩ := loops order legal
  refine ⟨sorted (entryNodes graph), final, order, legal, looped, ?_⟩
  unfold traverseClaims
  refine bind_eq_ok.2 ⟨(), validated, bind_eq_ok.2 ⟨[], detectCycles_acyclic closed acyclic, guard_eq_ok.2 ⟨?_, ?_⟩⟩⟩
  · rintro (empty | none)
    · rw [nonempty] at empty
      cases empty
    · obtain ⟨node, entry⟩ := exists_entry closed acyclic nonempty
      have listed : node ∈ sorted (entryNodes graph) := mem_sorted.2 (mem_entryNodes.2 entry)
      rw [none] at listed
      cases listed
  · exact bind_eq_ok.2 ⟨order, ordered, bind_eq_ok.2 ⟨final, looped, rfl⟩⟩

theorem traverseFinalDecisions_eq_ok {decisions : BTreeMap ClaimantId Decision} :
    traverseFinalDecisions regexes graph claims = .ok decisions ↔
      ∃ entries final, traverseClaims regexes graph claims false = .ok (entries, final) ∧ final.finalDecisions = decisions := by
  unfold traverseFinalDecisions
  rw [bind_eq_ok]
  constructor
  · rintro ⟨⟨entries, final⟩, run, made⟩
    exact ⟨entries, final, run, Except.ok.inj made⟩
  · rintro ⟨entries, final, run, rfl⟩
    exact ⟨(entries, final), run, rfl⟩

def TraversalState.forget (state : TraversalState) : TraversalState := { state with nodeDecisions := none }

theorem visitNode_forget (evaluate : NodeEvaluator) (merge : FeedMerger) (state : TraversalState) (node : NodeId) :
    visitNode graph evaluate merge state.forget node = (visitNode graph evaluate merge state node).map TraversalState.forget := by
  unfold visitNode
  cases graph.nodes[node]? with
  | none => rfl
  | some governanceNode =>
    simp only [TraversalState.forget]
    cases evaluate governanceNode ((state.queuedClaims[node]?).getD []) with
    | error failure => rfl
    | ok decisions =>
      dsimp only [bind, Except.bind]
      generalize (List.foldlM _ _ _ : Except LegitimacyError (BTreeMap NodeId (List GovernanceClaim))) = followed
      cases followed with
      | error failure => rfl
      | ok queued => rfl

theorem traverseFinalDecisions_eq_map :
    traverseFinalDecisions regexes graph claims = (traverse regexes graph claims).map (·.finalDecisions) := by
  have loops := foldlM_view (@visitNode_forget graph (evaluateNodeValidated regexes) mergeSharedClaimBatches)
  unfold traverseFinalDecisions traverse traverseClaims
  cases validateGovernanceClaims claims with
  | error failure => rfl
  | ok accepted =>
    cases detectCycles graph with
    | error failure => rfl
    | ok cycles =>
      cases cycles with
      | cons cycle rest => rfl
      | nil =>
        dsimp only [bind, Except.bind]
        by_cases none : graph.nodes.isEmpty ∨ sorted (entryNodes graph) = []
        · rw [if_pos none, if_pos none]
          rfl
        · rw [if_neg none, if_neg none]
          cases topologicalOrder graph (incomingCounts graph) with
          | error failure => rfl
          | ok order =>
            dsimp only [bind, Except.bind]
            rw [show startState graph claims false = (startState graph claims true).forget from rfl, loops]
            generalize (List.foldlM _ _ order : Except LegitimacyError TraversalState) = looped
            cases looped with
            | error failure => rfl
            | ok final => rfl

theorem traverse_final {result : TraversalResult} (run : traverse regexes graph claims = .ok result) :
    traverseFinalDecisions regexes graph claims = .ok result.finalDecisions := by
  rw [traverseFinalDecisions_eq_map, run]
  rfl

theorem exists_traversal {decisions : BTreeMap ClaimantId Decision} (run : traverseFinalDecisions regexes graph claims = .ok decisions) :
    ∃ result, traverse regexes graph claims = .ok result ∧ result.finalDecisions = decisions := by
  rw [traverseFinalDecisions_eq_map] at run
  cases traversed : traverse regexes graph claims with
  | error failure =>
    rw [traversed] at run
    cases run
  | ok result =>
    rw [traversed] at run
    exact ⟨result, rfl, Except.ok.inj run⟩

def Evaluable (regexes : RegexEngine) (graph : GovernanceGraph) (flow : NodeId → Set GovernanceClaim) : Prop :=
  ∀ node ∈ graph.nodes, ∀ claim ∈ flow node, ∃ decision, Decides regexes graph node (flow node) claim decision

theorem final_of_invariant {flow : NodeId → Set GovernanceClaim} {order : List NodeId} {final : TraversalState}
    (legal : graph.LegalOrder order) (inv : RunInvariant regexes graph claims flow order final) :
    Records final.finalDecisions (decidedOn regexes graph flow (· ∈ graph.nodes)) := by
  refine inv.final.congr fun claimant decision => exists_congr fun node => and_congr_left fun _ => ?_
  exact legal.complete node

theorem evaluable_of_invariant {flow : NodeId → Set GovernanceClaim} {order : List NodeId} {final : TraversalState}
    (legal : graph.LegalOrder order) (inv : RunInvariant regexes graph claims flow order final) : Evaluable regexes graph flow :=
  fun node inGraph => inv.evaluated node ((legal.complete node).2 inGraph)

end

def loneGraph (node : GovernanceNode) : GovernanceGraph := ⟨(∅ : BTreeMap NodeId GovernanceNode).insert (nodeId node) node, []⟩

section

variable {node : GovernanceNode}

theorem lone_lookup (key : NodeId) : (loneGraph node).nodes[key]? = if key = nodeId node then some node else none := by
  simp [loneGraph]

theorem mem_lone {key : NodeId} : key ∈ (loneGraph node).nodes ↔ key = nodeId node := by
  rw [mem_iff_lookup, lone_lookup]
  by_cases same : key = nodeId node <;> simp [same]

theorem lone_closed : (loneGraph node).Closed := fun _ member => absurd member List.not_mem_nil

theorem lone_edge {key next : NodeId} : ¬(loneGraph node).Edge key next := by
  rintro ⟨edge, member, -⟩
  exact absurd member List.not_mem_nil

theorem lone_acyclic : (loneGraph node).Acyclic := by
  intro key path
  obtain ⟨next, step, -⟩ := Relation.TransGen.head'_iff.1 path
  exact lone_edge step

theorem eq_singleton {α : Type} {values : List α} {value : α} (distinct : values.Nodup) (members : ∀ other, other ∈ values ↔ other = value) :
    values = [value] :=
  List.perm_singleton.1 ((List.perm_ext_iff_of_nodup distinct (List.nodup_singleton value)).2 fun other => by
    rw [members, List.mem_singleton])

theorem lone_entryNodes : entryNodes (loneGraph node) = [nodeId node] := by
  have distinct : (loneGraph node).nodes.keys.Nodup := by
    rw [← Std.ExtTreeMap.map_fst_toList_eq_keys]
    exact nodup_keys _
  refine eq_singleton (distinct.filter _) fun key => ?_
  rw [mem_entryNodes]
  exact ⟨fun entry => mem_lone.1 entry.1, fun same => ⟨mem_lone.2 same, fun _ => lone_edge⟩⟩

theorem lone_order : topologicalOrder (loneGraph node) (incomingCounts (loneGraph node)) = .ok [nodeId node] := by
  obtain ⟨order, ordered, legal⟩ := topologicalOrder_legal (@lone_closed node) lone_acyclic
  rw [ordered, eq_singleton legal.nodup fun key => (legal.complete key).trans mem_lone]

/-- A graph of one node decides as this node does. -/
theorem traverseFinalDecisions_lone {regexes : RegexEngine} {claims : List GovernanceClaim} {final : BTreeMap ClaimantId Decision} :
    traverseFinalDecisions regexes (loneGraph node) claims = .ok final ↔ validateGovernanceClaims claims = .ok ⟨⟩ ∧
      ∃ decisions, evaluateNodeValidated regexes node claims = .ok decisions ∧ recordFinalDecisions ∅ decisions false = final := by
  have ready : ¬((loneGraph node).nodes.isEmpty = true ∨ sorted (entryNodes (loneGraph node)) = []) := by
    rintro (empty | none)
    · have member : nodeId node ∈ (loneGraph node).nodes := mem_lone.2 rfl
      rw [Std.ExtTreeMap.isEmpty_iff.1 empty] at member
      simp at member
    · have listed : nodeId node ∈ sorted (entryNodes (loneGraph node)) := mem_sorted.2 (by rw [lone_entryNodes]; exact List.mem_cons_self)
      rw [none] at listed
      cases listed
  have queued : ((startState (loneGraph node) claims false).queuedClaims[nodeId node]?).getD [] = claims := by
    simp [startState, lone_entryNodes]
  have outgoing : ((outgoingEdges (loneGraph node))[nodeId node]?).getD [] = [] := by
    rw [outgoingEdges_lookup]
    rfl
  have visit : ∀ state, [nodeId node].foldlM (visitNode (loneGraph node) (evaluateNodeValidated regexes) mergeSharedClaimBatches)
      (startState (loneGraph node) claims false) = .ok state ↔ ∃ decisions, evaluateNodeValidated regexes node claims = .ok decisions ∧
        state = ⟨(startState (loneGraph node) claims false).queuedClaims.erase (nodeId node), recordFinalDecisions ∅ decisions false, none⟩ := by
    intro state
    rw [List.foldlM_cons, bind_eq_ok]
    unfold visitNode
    rw [lone_lookup, if_pos rfl]
    dsimp only
    rw [queued, outgoing]
    constructor
    · rintro ⟨next, stepped, last⟩
      obtain ⟨decisions, evaluated, made⟩ := bind_eq_ok.1 stepped
      exact ⟨decisions, evaluated, (Except.ok.inj made).trans (Except.ok.inj last) ▸ rfl⟩
    · rintro ⟨decisions, evaluated, rfl⟩
      exact ⟨_, bind_eq_ok.2 ⟨decisions, evaluated, rfl⟩, rfl⟩
  rw [traverseFinalDecisions_eq_ok]
  unfold traverseClaims
  constructor
  · rintro ⟨entries, last, run, rfl⟩
    obtain ⟨⟨⟩, validated, run⟩ := bind_eq_ok.1 run
    obtain ⟨cycles, detected, run⟩ := bind_eq_ok.1 run
    obtain rfl : cycles = [] := Except.ok.inj (detected.symm.trans (detectCycles_acyclic lone_closed lone_acyclic))
    obtain ⟨-, run⟩ := guard_eq_ok.1 run
    obtain ⟨order, ordered, run⟩ := bind_eq_ok.1 run
    obtain rfl : order = [nodeId node] := Except.ok.inj (ordered.symm.trans lone_order)
    obtain ⟨state, visited, made⟩ := bind_eq_ok.1 run
    obtain ⟨decisions, evaluated, rfl⟩ := (visit state).1 visited
    cases made
    exact ⟨validated, decisions, evaluated, rfl⟩
  · rintro ⟨validated, decisions, evaluated, rfl⟩
    let last : TraversalState :=
      ⟨(startState (loneGraph node) claims false).queuedClaims.erase (nodeId node), recordFinalDecisions ∅ decisions false, none⟩
    refine ⟨sorted (entryNodes (loneGraph node)), last, ?_, rfl⟩
    refine bind_eq_ok.2 ⟨⟨⟩, validated, bind_eq_ok.2 ⟨[], detectCycles_acyclic lone_closed lone_acyclic, guard_eq_ok.2 ⟨ready, ?_⟩⟩⟩
    exact bind_eq_ok.2 ⟨_, lone_order, bind_eq_ok.2 ⟨last, (visit last).2 ⟨decisions, evaluated, rfl⟩, rfl⟩⟩

theorem exists_lone_traversal {regexes : RegexEngine} {claims : List GovernanceClaim} {decisions : List ClaimDecision}
    (validated : validateGovernanceClaims claims = .ok ⟨⟩) (evaluated : evaluateNodeValidated regexes node claims = .ok decisions)
    (sameIds : decisions.map (·.claimantId) = claims.map (·.claimantId)) :
    ∃ final, traverseFinalDecisions regexes (loneGraph node) claims = .ok final ∧
      ∀ decision ∈ decisions, final[decision.claimantId]? = some decision.decision := by
  refine ⟨_, traverseFinalDecisions_lone.2 ⟨validated, decisions, evaluated, rfl⟩, fun decision member => ?_⟩
  have distinct : (decisions.map (·.claimantId)).Nodup := sameIds ▸ (validateGovernanceClaims_eq_ok.1 validated).2
  refine (records_empty.recordFinalDecisions decisions false decision.claimantId decision.decision).2 ⟨.inr ⟨member, by simp⟩, ?_⟩
  rintro other (none | ⟨listed, -⟩)
  · exact absurd none (Set.notMem_empty other)
  · have same : (⟨decision.claimantId, other⟩ : ClaimDecision) = decision := List.inj_on_of_nodup_map distinct listed member rfl
    rw [← same]

end

section

theorem evaluatePeerRelative_strength (current : GovernanceClaim) (claims : List GovernanceClaim) (percentile : Float) :
    evaluatePeerRelative current claims "strength" percentile =
      .ok (peerRelativeRankAtLeastPercentile (claims.countP fun claim => decide (claim.strength ≤ current.strength)) claims.length
        percentile) := by
  have values : claims.mapM (fun claim => numericField claim "strength") = .ok (claims.map (·.strength)) :=
    mapM_eq_ok.2 (List.forall₂_map_right_iff.2 (List.forall₂_same.2 fun _ _ => rfl))
  have perm := List.perm_insertionSort (fun left right : Float => totalKey left ≤ totalKey right) (claims.map (·.strength))
  refine bind_eq_ok.2 ⟨current.strength, rfl, bind_eq_ok.2 ⟨_, values, ?_⟩⟩
  dsimp only
  rw [perm.length_eq, (perm.filter _).length_eq, List.length_map, ← List.countP_eq_length_filter, List.countP_map]
  rfl

end

end Legitimacy
