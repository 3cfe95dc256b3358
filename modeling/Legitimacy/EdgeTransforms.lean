import Legitimacy.TraversalDecisions

namespace Legitimacy

open ExceptRun

/-- The graph with every claim modification replaced by a pass-through. -/
def GovernanceGraph.passingThrough (graph : GovernanceGraph) : GovernanceGraph :=
  { graph with edges := graph.edges.map fun edge => { edge with transform := .passThrough } }

section

variable {regexes : RegexEngine} {graph : GovernanceGraph}

theorem edge_passingThrough (graph : GovernanceGraph) : graph.passingThrough.Edge = graph.Edge := by
  funext node next
  refine propext ⟨?_, ?_⟩
  · rintro ⟨edge, listed, source, target⟩
    obtain ⟨original, member, rfl⟩ := List.mem_map.1 listed
    exact ⟨original, member, source, target⟩
  · rintro ⟨edge, listed, source, target⟩
    exact ⟨_, List.mem_map_of_mem listed, source, target⟩

theorem acyclic_passingThrough (acyclic : graph.Acyclic) : graph.passingThrough.Acyclic := by
  unfold GovernanceGraph.Acyclic
  rw [edge_passingThrough]
  exact acyclic

theorem closed_passingThrough (closed : graph.Closed) : graph.passingThrough.Closed := by
  intro edge listed
  obtain ⟨original, member, rfl⟩ := List.mem_map.1 listed
  exact closed original member

theorem incomingCounts_passingThrough (graph : GovernanceGraph) : incomingCounts graph.passingThrough = incomingCounts graph := by
  unfold incomingCounts GovernanceGraph.passingThrough
  rw [List.foldl_map]

theorem entryNodes_passingThrough (graph : GovernanceGraph) : entryNodes graph.passingThrough = entryNodes graph := by
  unfold entryNodes
  rw [incomingCounts_passingThrough]
  rfl

theorem outgoing_passingThrough (graph : GovernanceGraph) (node : NodeId) :
    ((outgoingEdges graph.passingThrough)[node]?).getD [] =
      (((outgoingEdges graph)[node]?).getD []).map fun edge => { edge with transform := .passThrough } := by
  rw [outgoingEdges_lookup, outgoingEdges_lookup]
  unfold GovernanceGraph.passingThrough
  rw [List.filter_map]
  rfl

theorem topologicalLoop_passingThrough (graph : GovernanceGraph) (fuel : Nat) (counts : BTreeMap NodeId Nat) (queue : BTreeSet NodeId)
    (order : List NodeId) :
    topologicalLoop graph.passingThrough fuel counts queue order = topologicalLoop graph fuel counts queue order := by
  induction fuel generalizing counts queue order with
  | zero => rfl
  | succ fuel ih =>
    unfold topologicalLoop
    cases queue.toList.head? with
    | none => rfl
    | some node =>
      have released : releaseSuccessors (graph.passingThrough.edges.filter fun edge => edge.fromNode = node) counts (queue.erase node) =
          releaseSuccessors (graph.edges.filter fun edge => edge.fromNode = node) counts (queue.erase node) := by
        unfold releaseSuccessors GovernanceGraph.passingThrough
        rw [List.filter_map, List.foldlM_map]
        rfl
      dsimp only
      rw [released]
      exact bind_congr fun ready => ih ready.1 ready.2 _

theorem topologicalOrder_passingThrough (closed : graph.Closed) (acyclic : graph.Acyclic) (counts : BTreeMap NodeId Nat) :
    topologicalOrder graph.passingThrough counts = topologicalOrder graph counts := by
  unfold topologicalOrder
  rw [detectCycles_acyclic closed acyclic, detectCycles_acyclic (closed_passingThrough closed) (acyclic_passingThrough acyclic)]
  simp only [topologicalLoop_passingThrough]
  rw [show graph.passingThrough.nodes = graph.nodes from rfl,
    show graph.passingThrough.edges.length = graph.edges.length from List.length_map ..]

end

section

variable {regexes : RegexEngine} {graph : GovernanceGraph} {claims : List GovernanceClaim}

def Drawn (claims : List GovernanceClaim) (queued : BTreeMap NodeId (List GovernanceClaim)) : Prop :=
  ∀ node : NodeId, (queued[node]?).getD [] ⊆ claims ∧ (List.map (fun claim : GovernanceClaim => claim.claimantId) ((queued[node]?).getD [])).Nodup

variable {queued : BTreeMap NodeId (List GovernanceClaim)} {feed : List GovernanceClaim}

theorem Drawn.insert (drawn : Drawn claims queued)
    (within : feed ⊆ claims) (distinct : (feed.map (·.claimantId)).Nodup) (node : NodeId) : Drawn claims (queued.insert node feed) := by
  intro other
  rw [lookup_insert]
  split
  · exact ⟨within, distinct⟩
  · exact drawn other

theorem Drawn.erase (drawn : Drawn claims queued) (node : NodeId) :
    Drawn claims (queued.erase node) := by
  intro other
  rw [lookup_erase]
  split
  · exact ⟨List.nil_subset _, List.nodup_nil⟩
  · exact drawn other

theorem decided_of_evaluated {node : GovernanceNode} {decisions : List ClaimDecision}
    (evaluated : evaluateNodeValidated regexes node feed = .ok decisions) :
    List.Forall₂ (fun claim decision => claimDecision regexes node feed claim = .ok decision.decision ∧
      decision.claimantId = claim.claimantId) feed decisions := by
  cases kind : isProportional node with
  | false => exact (evaluateNodeValidated_eq_ok kind).1 evaluated
  | true =>
    cases node with
    | binary => cases kind
    | threshold => cases kind
    | proportional => cases evaluated

theorem followEdges_passingThrough {decisions : List ClaimDecision}
    (kept : ∀ transform, applyTransform transform (forwardedClaims feed decisions) decisions = .ok (forwardedClaims feed decisions))
    (edges : List GovernanceEdge) (queued : BTreeMap NodeId (List GovernanceClaim)) :
    (edges.map fun edge => { edge with transform := .passThrough }).foldlM
        (followEdge mergeSharedClaimBatches (forwardedClaims feed decisions) decisions) queued =
      edges.foldlM (followEdge mergeSharedClaimBatches (forwardedClaims feed decisions) decisions) queued := by
  have same : ∀ queued edge, followEdge mergeSharedClaimBatches (forwardedClaims feed decisions) decisions queued
      ({ edge with transform := .passThrough } : GovernanceEdge) =
        followEdge mergeSharedClaimBatches (forwardedClaims feed decisions) decisions queued edge := by
    intro queued edge
    unfold followEdge
    rw [kept, kept]
  rw [List.foldlM_map]
  exact congrArg (fun step => edges.foldlM step queued) (funext fun queued => funext fun edge => same queued edge)

theorem followEdges_drawn {decisions : List ClaimDecision} (batch : ValidBatch claims) (within : feed ⊆ claims)
    (kept : ∀ transform, applyTransform transform (forwardedClaims feed decisions) decisions = .ok (forwardedClaims feed decisions))
    (forwards : forwardedClaims feed decisions ⊆ feed) {edges : List GovernanceEdge} {next : BTreeMap NodeId (List GovernanceClaim)}
    (drawn : Drawn claims queued)
    (run : edges.foldlM (followEdge mergeSharedClaimBatches (forwardedClaims feed decisions) decisions) queued = .ok next) :
    Drawn claims next := by
  refine foldlM_invariant (fun _ queued => Drawn claims queued) drawn ?_ run
  intro done edge rest queued after _ drawn followed
  unfold followEdge at followed
  rw [kept] at followed
  obtain ⟨forwarded, same, merging⟩ := bind_eq_ok.1 followed
  obtain rfl := Except.ok.inj same
  obtain ⟨merged, made, inserted⟩ := bind_eq_ok.1 merging
  obtain rfl := Except.ok.inj inserted
  obtain ⟨held, distinct⟩ := drawn edge.toNode
  have into := List.Subset.trans forwards within
  obtain ⟨united, union, nodup, members⟩ := mergeSharedClaimBatches_unites batch edge.toNode _ _ held into distinct
  obtain rfl : united = merged := Except.ok.inj (union.symm.trans made)
  refine drawn.insert (fun claim member => ?_) nodup edge.toNode
  exact ((members claim).1 member).elim (held ·) (into ·)

/-- A turn does the same on both graphs, and leaves feeds of the batch. -/
theorem visitNode_passingThrough (batch : ValidBatch claims) {state : TraversalState} (drawn : Drawn claims state.queuedClaims) (node : NodeId) :
    visitNode graph.passingThrough (evaluateNodeValidated regexes) mergeSharedClaimBatches state node =
        visitNode graph (evaluateNodeValidated regexes) mergeSharedClaimBatches state node ∧
      ∀ next, visitNode graph (evaluateNodeValidated regexes) mergeSharedClaimBatches state node = .ok next →
        Drawn claims next.queuedClaims := by
  unfold visitNode
  rw [show graph.passingThrough.nodes = graph.nodes from rfl, outgoing_passingThrough]
  cases graph.nodes[node]? with
  | none => exact ⟨rfl, nofun⟩
  | some governanceNode =>
    dsimp only
    cases evaluated : evaluateNodeValidated regexes governanceNode ((state.queuedClaims[node]?).getD []) with
    | error failure => exact ⟨rfl, nofun⟩
    | ok decisions =>
      obtain ⟨within, distinct⟩ := drawn node
      have decided := decided_of_evaluated evaluated
      have kept := applyTransform_forwarded distinct decided
      constructor
      · simp only [bind, Except.bind, followEdges_passingThrough kept, List.isEmpty_map]
      · intro next made
        obtain ⟨others, sameDecisions, following⟩ := bind_eq_ok.1 made
        obtain rfl := Except.ok.inj sameDecisions
        obtain ⟨queued, followed, final⟩ := bind_eq_ok.1 following
        obtain rfl := Except.ok.inj final
        refine followEdges_drawn batch within kept ?_ (drawn.erase node) followed
        rw [forwardedClaims_eq decided]
        exact List.filter_subset_self _

theorem run_passingThrough (batch : ValidBatch claims) (order : List NodeId) {state : TraversalState} (drawn : Drawn claims state.queuedClaims) :
    order.foldlM (visitNode graph.passingThrough (evaluateNodeValidated regexes) mergeSharedClaimBatches) state =
      order.foldlM (visitNode graph (evaluateNodeValidated regexes) mergeSharedClaimBatches) state := by
  induction order generalizing state with
  | nil => rfl
  | cons node rest ih =>
    obtain ⟨same, kept⟩ := @visitNode_passingThrough regexes graph claims batch state drawn node
    rw [List.foldlM_cons, List.foldlM_cons, same]
    cases visited : visitNode graph (evaluateNodeValidated regexes) mergeSharedClaimBatches state node with
    | error failure => rfl
    | ok next => exact ih (kept next visited)

theorem drawn_start (batch : ValidBatch claims) (graph : GovernanceGraph) (captureNodeDecisions : Bool) :
    Drawn claims (startState graph claims captureNodeDecisions).queuedClaims := by
  unfold startState
  suffices general : ∀ (nodes : List NodeId) (queued : BTreeMap NodeId (List GovernanceClaim)), Drawn claims queued →
      Drawn claims (nodes.foldl (fun queued node => queued.insert node claims) queued) from
    general _ _ fun node => by simp
  intro nodes
  induction nodes with
  | nil => exact fun _ drawn => drawn
  | cons node rest ih => exact fun queued drawn => ih _ (drawn.insert (List.Subset.refl _) batch.distinct node)

/-- A traversal gives the same result, or fails the same way, when every claim modification passes through. -/
theorem traverse_passingThrough (regexes : RegexEngine) (graph : GovernanceGraph) (valid : validateGovernanceGraph regexes graph = .ok ())
    (acyclic : graph.Acyclic) (claims : List GovernanceClaim) : traverse regexes graph.passingThrough claims = traverse regexes graph claims := by
  have closed := closed_of_valid valid
  have same : traverseClaims regexes graph.passingThrough claims true = traverseClaims regexes graph claims true := by
    unfold traverseClaims
    cases validated : validateGovernanceClaims claims with
    | error failure => rfl
    | ok _ =>
      rw [detectCycles_acyclic closed acyclic, detectCycles_acyclic (closed_passingThrough closed) (acyclic_passingThrough acyclic),
        entryNodes_passingThrough, incomingCounts_passingThrough, topologicalOrder_passingThrough closed acyclic]
      have batch := validBatch_of_validated validated
      have start : startState graph.passingThrough claims true = startState graph claims true := by
        unfold startState
        rw [entryNodes_passingThrough]
      rw [start]
      simp only [run_passingThrough batch _ (drawn_start batch graph true)]
      rfl
  unfold traverse
  rw [same]

theorem traverse_passingThrough_fork :
    traverse .error forkGraph.passingThrough [plainClaim "a" 0.25, plainClaim "b" 0.5] =
      traverse .error forkGraph [plainClaim "a" 0.25, plainClaim "b" 0.5] :=
  traverse_passingThrough .error forkGraph (by decide +kernel) (acyclic_of_ascending (by decide)) _

end

end Legitimacy
