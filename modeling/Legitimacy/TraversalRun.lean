import Legitimacy.ClaimFeeds
import Legitimacy.TopologicalOrder

namespace Legitimacy

def IsLeastDecision (made : Set Decision) (decision : Decision) : Prop :=
  decision ∈ made ∧ ∀ other ∈ made, decisionRank decision ≤ decisionRank other

theorem IsLeastDecision.unique {made : Set Decision} {first second : Decision} (isFirst : IsLeastDecision made first)
    (isSecond : IsLeastDecision made second) : first = second :=
  decisionRank_injective (Nat.le_antisymm (isFirst.2 second isSecond.1) (isSecond.2 first isFirst.1))

theorem exists_leastDecision {made : Set Decision} (inhabited : made.Nonempty) : ∃ decision, IsLeastDecision made decision := by
  obtain ⟨some, member⟩ := inhabited
  by_cases denied : Decision.deny ∈ made
  · exact ⟨.deny, denied, fun other _ => Nat.zero_le _⟩
  by_cases escalated : Decision.escalate ∈ made
  · refine ⟨.escalate, escalated, fun other listed => ?_⟩
    cases other with
    | deny => exact absurd listed denied
    | escalate => exact Nat.le_refl _
    | permit => decide
  · refine ⟨.permit, ?_, fun other listed => ?_⟩
    · cases some with
      | deny => exact absurd member denied
      | escalate => exact absurd member escalated
      | permit => exact member
    · cases other with
      | deny => exact absurd listed denied
      | escalate => exact absurd listed escalated
      | permit => exact Nat.le_refl _

theorem isLeastDecision_insert {made : Set Decision} {existing added : Decision} (least : IsLeastDecision made existing) :
    IsLeastDecision (insert added made) (mergeFinalDecision existing added) := by
  unfold mergeFinalDecision
  by_cases ordered : decisionRank existing ≤ decisionRank added
  · rw [if_pos ordered]
    refine ⟨Or.inr least.1, ?_⟩
    rintro other (rfl | member)
    · exact ordered
    · exact least.2 other member
  · rw [if_neg ordered]
    refine ⟨Or.inl rfl, ?_⟩
    rintro other (rfl | member)
    · exact Nat.le_refl _
    · have below := least.2 other member
      omega

/-- The map holds, for each claimant, the least of the decisions made on it so far. -/
def Records (final : BTreeMap ClaimantId Decision) (made : ClaimantId → Set Decision) : Prop :=
  ∀ claimant decision, final[claimant]? = some decision ↔ IsLeastDecision (made claimant) decision

variable {final : BTreeMap ClaimantId Decision} {made : ClaimantId → Set Decision}

theorem Records.congr {other : ClaimantId → Set Decision} (records : Records final made)
    (same : ∀ claimant decision, decision ∈ made claimant ↔ decision ∈ other claimant) : Records final other := by
  have equal : made = other := funext fun claimant => Set.ext (same claimant)
  exact equal ▸ records

theorem records_empty : Records ∅ fun _ => ∅ := by
  intro claimant decision
  simp [IsLeastDecision]

theorem Records.none_iff (records : Records final made)
    {claimant : ClaimantId} : final[claimant]? = none ↔ made claimant = ∅ := by
  constructor
  · intro absent
    by_contra inhabited
    obtain ⟨decision, least⟩ := exists_leastDecision (Set.nonempty_iff_ne_empty.2 inhabited)
    have found := (records claimant decision).2 least
    rw [absent] at found
    cases found
  · intro empty
    cases found : final[claimant]? with
    | none => rfl
    | some decision =>
      have least := (records claimant decision).1 found
      rw [empty] at least
      exact absurd least.1 (Set.notMem_empty decision)

theorem Records.lookup_eq {first second : BTreeMap ClaimantId Decision} {other : ClaimantId → Set Decision}
    (isFirst : Records first made) (isSecond : Records second other) {claimant : ClaimantId} (same : made claimant = other claimant) :
    first[claimant]? = second[claimant]? := by
  cases found : first[claimant]? with
  | none => exact (isSecond.none_iff.2 (same ▸ isFirst.none_iff.1 found)).symm
  | some decision => exact ((isSecond claimant decision).2 (same ▸ (isFirst claimant decision).1 found)).symm

theorem Records.unique {first second : BTreeMap ClaimantId Decision} (isFirst : Records first made)
    (isSecond : Records second made) : first = second :=
  Std.ExtTreeMap.ext_getElem? fun {_} => isFirst.lookup_eq isSecond rfl

theorem Records.insert (records : Records final made) (claimant : ClaimantId) (added : Decision) :
    Records (match final[claimant]? with
        | some existing => final.insert claimant (mergeFinalDecision existing added)
        | none => final.insert claimant added)
      fun other => {decision | decision ∈ made other ∨ (other = claimant ∧ decision = added)} := by
  intro other decision
  beta_reduce
  by_cases same : other = claimant
  · subst same
    have grown : {decision | decision ∈ made other ∨ (other = other ∧ decision = added)} = Insert.insert added (made other) := by
      ext decision
      simp [or_comm]
    rw [grown]
    have replaced : ∀ value : Decision, IsLeastDecision (Insert.insert added (made other)) value →
        (some value = some decision ↔ IsLeastDecision (Insert.insert added (made other)) decision) := by
      intro value least
      constructor
      · intro equal
        exact Option.some.inj equal ▸ least
      · intro other
        rw [least.unique other]
    cases found : final[other]? with
    | some existing =>
      simp only [lookup_insert, if_true]
      exact replaced _ (isLeastDecision_insert ((records other existing).1 found))
    | none =>
      simp only [lookup_insert, if_true]
      refine replaced added ⟨Or.inl rfl, ?_⟩
      rintro value (rfl | member)
      · exact Nat.le_refl _
      · rw [records.none_iff.1 found] at member
        exact absurd member (Set.notMem_empty value)
  · have kept : {decision | decision ∈ made other ∨ (other = claimant ∧ decision = added)} = made other := by
      ext decision
      simp [same]
    rw [kept, ← records other decision]
    cases final[claimant]? <;> simp [same]

theorem Records.recordFinalDecisions (records : Records final made)
    (decisions : List ClaimDecision) (hasOutgoing : Bool) :
    Records (Legitimacy.recordFinalDecisions final decisions hasOutgoing) fun claimant =>
      {decision | decision ∈ made claimant ∨ (⟨claimant, decision⟩ ∈ decisions ∧ ¬(decision = .escalate ∧ hasOutgoing = true))} := by
  induction decisions generalizing final made with
  | nil => simpa [Legitimacy.recordFinalDecisions] using records
  | cons first rest ih =>
    rw [Legitimacy.recordFinalDecisions, List.foldl_cons]
    by_cases skipped : first.decision = .escalate ∧ hasOutgoing = true
    · have same := ih records
      simp only [if_pos skipped]
      refine same.congr fun claimant decision => ?_
      constructor
      · rintro (earlier | ⟨member, counts⟩)
        · exact Or.inl earlier
        · exact Or.inr ⟨List.mem_cons_of_mem _ member, counts⟩
      · rintro (earlier | ⟨member, counts⟩)
        · exact Or.inl earlier
        · rcases List.mem_cons.1 member with rfl | later
          · exact absurd skipped counts
          · exact Or.inr ⟨later, counts⟩
    · have grown := ih (records.insert first.claimantId first.decision)
      simp only [if_neg skipped]
      refine grown.congr fun claimant decision => ?_
      constructor
      · rintro ((earlier | ⟨rfl, rfl⟩) | ⟨member, counts⟩)
        · exact Or.inl earlier
        · exact Or.inr ⟨List.mem_cons_self, skipped⟩
        · exact Or.inr ⟨List.mem_cons_of_mem _ member, counts⟩
      · rintro (earlier | ⟨member, counts⟩)
        · exact Or.inl (Or.inl earlier)
        · rcases List.mem_cons.1 member with same | later
          · exact Or.inl (Or.inr ⟨congrArg ClaimDecision.claimantId same, congrArg ClaimDecision.decision same⟩)
          · exact Or.inr ⟨later, counts⟩

open ExceptRun

/-- The decision a node takes on a claim of the cohort that has arrived at it. -/
def Decides (regexes : RegexEngine) (graph : GovernanceGraph) (node : NodeId) (arrived : Set GovernanceClaim) (claim : GovernanceClaim)
    (decision : Decision) : Prop :=
  ∃ governanceNode cohort, graph.nodes[node]? = some governanceNode ∧ FeedOf cohort arrived ∧ claim ∈ cohort ∧
    claimDecision regexes governanceNode cohort claim = .ok decision

theorem decides_iff {regexes : RegexEngine} {graph : GovernanceGraph} {node : NodeId} {arrived : Set GovernanceClaim}
    {claim : GovernanceClaim} {decision : Decision} {governanceNode : GovernanceNode} {feed : List GovernanceClaim}
    (atNode : graph.nodes[node]? = some governanceNode) (isFeed : FeedOf feed arrived) :
    Decides regexes graph node arrived claim decision ↔
      claim ∈ feed ∧ claimDecision regexes governanceNode feed claim = .ok decision := by
  constructor
  · rintro ⟨other, cohort, found, isCohort, member, made⟩
    obtain rfl : governanceNode = other := Option.some.inj (atNode.symm.trans found)
    have perm := isCohort.perm isFeed
    exact ⟨perm.mem_iff.1 member, claimDecision_perm perm made⟩
  · rintro ⟨member, made⟩
    exact ⟨governanceNode, feed, atNode, isFeed, member, made⟩

/-- Claims enter at the entry nodes; a node passes on the claims it escalates. -/
def claimNetwork (regexes : RegexEngine) (graph : GovernanceGraph) (claims : List GovernanceClaim) : FlowNetwork NodeId GovernanceClaim where
  edge := graph.Edge
  entry := graph.IsEntry
  input := {claim | claim ∈ claims}
  forward node arrived := {claim | claim ∈ arrived ∧ Decides regexes graph node arrived claim .escalate}
  forward_subset _ _ _ member := member.1

/-- The decisions on a claimant that count: those made at a node of `visited`, unless they are escalations that travel on. -/
def decidedOn (regexes : RegexEngine) (graph : GovernanceGraph) (flow : NodeId → Set GovernanceClaim) (visited : NodeId → Prop)
    (claimant : ClaimantId) : Set Decision :=
  {decision | ∃ node, visited node ∧ ∃ claim, claim.claimantId = claimant ∧ Decides regexes graph node (flow node) claim decision ∧
    ¬(decision = .escalate ∧ ∃ next, graph.Edge node next)}

/-- What a list of decisions says about each arrived claim, once. -/
structure DecisionsOf (regexes : RegexEngine) (graph : GovernanceGraph) (node : NodeId) (arrived : Set GovernanceClaim)
    (decisions : List ClaimDecision) : Prop where
  distinct : (decisions.map (·.claimantId)).Nodup
  mem_iff : ∀ claimant decision, ⟨claimant, decision⟩ ∈ decisions ↔
    ∃ claim, claim.claimantId = claimant ∧ Decides regexes graph node arrived claim decision

theorem decisionsOf_feed {regexes : RegexEngine} {graph : GovernanceGraph} {node : NodeId} {arrived : Set GovernanceClaim}
    {governanceNode : GovernanceNode} {feed : List GovernanceClaim} {decisions : List ClaimDecision}
    (atNode : graph.nodes[node]? = some governanceNode) (isFeed : FeedOf feed arrived)
    (decided : List.Forall₂ (fun claim decision => claimDecision regexes governanceNode feed claim = .ok decision.decision ∧
      decision.claimantId = claim.claimantId) feed decisions) : DecisionsOf regexes graph node arrived decisions := by
  have sameIds : decisions.map (·.claimantId) = feed.map (·.claimantId) := by
    refine List.ext_getElem (by simp [decided.length_eq]) fun index left right => ?_
    simp only [List.length_map] at left right
    have here := (List.forall₂_iff_get.1 decided).2 index right left
    simpa using here.2
  refine ⟨sameIds ▸ isFeed.distinct, fun claimant decision => ?_⟩
  constructor
  · intro listed
    obtain ⟨index, bound, atIndex⟩ := List.getElem_of_mem listed
    have inside : index < feed.length := by
      rw [decided.length_eq]
      exact bound
    have here := (List.forall₂_iff_get.1 decided).2 index inside bound
    simp only [List.get_eq_getElem, atIndex] at here
    exact ⟨feed.get ⟨index, inside⟩, here.2.symm, (decides_iff atNode isFeed).2 ⟨List.get_mem feed ⟨index, inside⟩, here.1⟩⟩
  · rintro ⟨claim, rfl, decides⟩
    obtain ⟨member, made⟩ := (decides_iff atNode isFeed).1 decides
    obtain ⟨index, inside, atIndex⟩ := List.getElem_of_mem member
    have bound : index < decisions.length := by
      rw [← decided.length_eq]
      exact inside
    have here := (List.forall₂_iff_get.1 decided).2 index inside bound
    simp only [List.get_eq_getElem, atIndex, made, Except.ok.injEq] at here
    have same : decisions.get ⟨index, bound⟩ = ⟨claim.claimantId, decision⟩ := by
      rw [List.get_eq_getElem, here.1, ← here.2]
    exact same ▸ List.get_mem decisions ⟨index, bound⟩

/-- An evaluator and a merge that can stand in for those of the traversal on feeds drawn from the batch. -/
structure LoopParts (regexes : RegexEngine) (claims : List GovernanceClaim) (evaluate : NodeEvaluator) (merge : FeedMerger) : Prop where
  evaluates : ∀ node cohort, cohort ⊆ claims → (cohort.map (·.claimantId)).Nodup →
    evaluate node cohort = evaluateNodeValidated regexes node cohort
  unites : Unites claims merge

/-- The state after the nodes in `done`: the open feeds, the recorded decisions and the captured ones. -/
structure RunInvariant (regexes : RegexEngine) (graph : GovernanceGraph) (claims : List GovernanceClaim)
    (flow : NodeId → Set GovernanceClaim) (done : List NodeId) (state : TraversalState) : Prop where
  queued : ∀ node, node ∉ done →
    FeedOf ((state.queuedClaims[node]?).getD []) ((claimNetwork regexes graph claims).pending flow (· ∈ done) node)
  final : Records state.finalDecisions (decidedOn regexes graph flow (· ∈ done))
  captured : ∀ captured, state.nodeDecisions = some captured → ∀ node,
    (node ∈ done → ∃ decisions, captured[node]? = some decisions ∧ DecisionsOf regexes graph node (flow node) decisions) ∧
      (node ∉ done → captured[node]? = none)
  evaluated : ∀ node ∈ done, ∀ claim ∈ flow node, ∃ decision, Decides regexes graph node (flow node) claim decision

theorem followEdges_spec {claims forwarded : List GovernanceClaim} {decisions : List ClaimDecision} {merge : FeedMerger}
    (unites : Unites claims merge) (drawn : forwarded ⊆ claims)
    (kept : ∀ transform, applyTransform transform forwarded decisions = .ok forwarded) (edges : List GovernanceEdge)
    (open_ : NodeId → Prop) (targets : ∀ edge ∈ edges, open_ edge.toNode) (feeds : NodeId → Set GovernanceClaim)
    (within : ∀ node, open_ node → feeds node ⊆ {claim | claim ∈ claims}) (queued : BTreeMap NodeId (List GovernanceClaim))
    (holds : ∀ node, open_ node → FeedOf ((queued[node]?).getD []) (feeds node)) :
    ∃ next, edges.foldlM (followEdge merge forwarded decisions) queued = .ok next ∧
      ∀ node, open_ node → FeedOf ((next[node]?).getD [])
        {claim | claim ∈ feeds node ∨ ((∃ edge ∈ edges, edge.toNode = node) ∧ claim ∈ forwarded)} := by
  refine foldlM_progress (fun (done : List GovernanceEdge) (next : BTreeMap NodeId (List GovernanceClaim)) => ∀ node, open_ node →
    FeedOf ((next[node]?).getD []) {claim | claim ∈ feeds node ∨ ((∃ edge ∈ done, edge.toNode = node) ∧ claim ∈ forwarded)}) ?_ ?_
  · intro node isOpen
    simpa using holds node isOpen
  · intro done edge rest queued split holds
    have target := targets edge (by simp [split])
    have feed := holds edge.toNode target
    obtain ⟨merged, run, distinct, united⟩ := unites edge.toNode ((queued[edge.toNode]?).getD []) forwarded (by
      intro claim member
      rcases (feed.mem_iff claim).1 member with earlier | ⟨-, travelling⟩
      · exact within edge.toNode target earlier
      · exact drawn travelling) drawn feed.distinct
    refine ⟨queued.insert edge.toNode merged, ?_, fun node isOpen => ?_⟩
    · exact bind_eq_ok.2 ⟨forwarded, kept edge.transform, bind_eq_ok.2 ⟨merged, run, rfl⟩⟩
    · rw [lookup_insert]
      by_cases same : node = edge.toNode
      · subst same
        rw [if_pos rfl, Option.getD_some]
        refine ⟨distinct, fun claim => ?_⟩
        rw [united claim, feed.mem_iff claim]
        simp only [Set.mem_ofPred_eq, List.mem_append, List.mem_singleton]
        constructor
        · rintro ((earlier | ⟨⟨other, listed, into⟩, travelling⟩) | travelling)
          · exact Or.inl earlier
          · exact Or.inr ⟨⟨other, Or.inl listed, into⟩, travelling⟩
          · exact Or.inr ⟨⟨edge, Or.inr rfl, rfl⟩, travelling⟩
        · rintro (earlier | ⟨_, travelling⟩)
          · exact Or.inl (Or.inl earlier)
          · exact Or.inr travelling
      · rw [if_neg same]
        refine ⟨(holds node isOpen).distinct, fun claim => ?_⟩
        rw [(holds node isOpen).mem_iff claim]
        simp only [Set.mem_ofPred_eq, List.mem_append, List.mem_singleton]
        refine or_congr_right (and_congr_left fun _ => ⟨?_, ?_⟩)
        · rintro ⟨other, listed, into⟩
          exact ⟨other, Or.inl listed, into⟩
        · rintro ⟨other, listed | rfl, into⟩
          · exact ⟨other, listed, into⟩
          · exact absurd into.symm same

theorem exists_decisions {decide : GovernanceClaim → Except LegitimacyError Decision} (claims : List GovernanceClaim)
    (decidable : ∀ claim ∈ claims, ∃ decision, decide claim = .ok decision) :
    ∃ decisions : List ClaimDecision, List.Forall₂ (fun claim decision => decide claim = .ok decision.decision ∧
      decision.claimantId = claim.claimantId) claims decisions := by
  induction claims with
  | nil => exact ⟨[], .nil⟩
  | cons claim rest ih =>
    obtain ⟨decision, made⟩ := decidable claim List.mem_cons_self
    obtain ⟨decisions, others⟩ := ih fun other member => decidable other (List.mem_cons_of_mem claim member)
    exact ⟨⟨claim.claimantId, decision⟩ :: decisions, .cons ⟨made, rfl⟩ others⟩

section

variable {regexes : RegexEngine} {graph : GovernanceGraph} {claims : List GovernanceClaim} {flow : NodeId → Set GovernanceClaim}
  {evaluate : NodeEvaluator} {merge : FeedMerger} {order done rest : List NodeId} {node : NodeId} {state : TraversalState}

theorem RunInvariant.feedOf (legal : graph.LegalOrder order) (isFlow : (claimNetwork regexes graph claims).IsFlow flow)
    (split : order = done ++ node :: rest) (inv : RunInvariant regexes graph claims flow done state) :
    FeedOf ((state.queuedClaims[node]?).getD []) (flow node) := by
  have distinct := legal.nodup
  rw [split, List.nodup_append] at distinct
  have fresh : node ∉ done := fun member => distinct.2.2 node member node List.mem_cons_self rfl
  have arrived := @FlowNetwork.LegalOrder.pending_eq _ _ (claimNetwork regexes graph claims) _ order legal flow isFlow done node rest split
  exact arrived ▸ inv.queued node fresh

/-- A node's turn either fails with its evaluation or moves the run on. -/
theorem RunInvariant.visitNode (parts : LoopParts regexes claims evaluate merge) (legal : graph.LegalOrder order)
    (isFlow : (claimNetwork regexes graph claims).IsFlow flow) (within : ∀ node, flow node ⊆ {claim | claim ∈ claims})
    (split : order = done ++ node :: rest) (inv : RunInvariant regexes graph claims flow done state) {governanceNode : GovernanceNode}
    (atNode : graph.nodes[node]? = some governanceNode) (evaluable : isProportional governanceNode = false)
    {decisions : List ClaimDecision}
    (evaluated : evaluateNodeValidated regexes governanceNode ((state.queuedClaims[node]?).getD []) = .ok decisions) :
    ∃ next, Legitimacy.visitNode graph evaluate merge state node = .ok next ∧
      RunInvariant regexes graph claims flow (done ++ [node]) next := by
  have feed := inv.feedOf legal isFlow split
  have drawn : (state.queuedClaims[node]?).getD [] ⊆ claims := fun claim member => within node ((feed.mem_iff claim).1 member)
  have decided := (evaluateNodeValidated_eq_ok evaluable).1 evaluated
  have made := decisionsOf_feed atNode feed decided
  have forwardedIff : ∀ claim, claim ∈ forwardedClaims ((state.queuedClaims[node]?).getD []) decisions ↔
      claim ∈ (claimNetwork regexes graph claims).forward node (flow node) := by
    intro claim
    have escalates : Decides regexes graph node (flow node) claim .escalate ↔ claim ∈ (state.queuedClaims[node]?).getD [] ∧
        claimDecision regexes governanceNode ((state.queuedClaims[node]?).getD []) claim = .ok .escalate := decides_iff atNode feed
    rw [forwardedClaims_eq decided, List.mem_filter]
    constructor
    · rintro ⟨member, escalated⟩
      refine ⟨(feed.mem_iff claim).1 member, escalates.2 ⟨member, ?_⟩⟩
      cases outcome : claimDecision regexes governanceNode ((state.queuedClaims[node]?).getD []) claim with
      | error failure => simp [outcome, isEscalation] at escalated
      | ok decision => cases decision <;> simp_all [isEscalation]
    · rintro ⟨_, decides⟩
      obtain ⟨member, escalated⟩ := escalates.1 decides
      exact ⟨member, by simp [escalated, isEscalation]⟩
  obtain ⟨queued, followed, feeds⟩ := @followEdges_spec claims _ decisions merge parts.unites
    (fun claim member => within node ((forwardedIff claim).1 member).1) (applyTransform_forwarded feed.distinct decided)
    (graph.edges.filter fun edge => edge.fromNode = node) (· ∉ done ++ [node])
    (fun edge member => by
      obtain ⟨listed, source⟩ := List.mem_filter.1 member
      exact FlowNetwork.LegalOrder.not_visited legal split ⟨edge, listed, of_decide_eq_true source, rfl⟩)
    ((claimNetwork regexes graph claims).pending flow (· ∈ done)) (fun other _ => FlowNetwork.pending_subset within _ other)
    (state.queuedClaims.erase node) (fun other outside => by
      have different : other ≠ node := fun same => outside (by simp [same])
      rw [lookup_erase, if_neg different]
      exact inv.queued other fun member => outside (List.mem_append_left _ member))
  have hasOutgoing : (!(graph.edges.filter fun edge => edge.fromNode = node).isEmpty) = true ↔ ∃ next, graph.Edge node next := by
    rw [Bool.not_eq_true', ← Bool.not_eq_true, List.isEmpty_iff, List.filter_eq_nil_iff]
    push Not
    constructor
    · rintro ⟨edge, listed, source⟩
      exact ⟨edge.toNode, edge, listed, of_decide_eq_true source, rfl⟩
    · rintro ⟨next, edge, listed, source, rfl⟩
      exact ⟨edge, listed, decide_eq_true source⟩
  refine ⟨⟨queued, recordFinalDecisions state.finalDecisions decisions (!(graph.edges.filter fun edge => edge.fromNode = node).isEmpty),
    state.nodeDecisions.map fun captured => captured.insert node decisions⟩, ?_, ?_, ?_, ?_, ?_⟩
  · unfold Legitimacy.visitNode
    rw [atNode]
    dsimp only
    rw [parts.evaluates governanceNode _ drawn feed.distinct, evaluated, outgoingEdges_lookup]
    exact bind_eq_ok.2 ⟨decisions, rfl, bind_eq_ok.2 ⟨queued, followed, rfl⟩⟩
  · intro other outside
    have held := feeds other outside
    refine ⟨held.distinct, fun claim => ?_⟩
    rw [held.mem_iff claim, FlowNetwork.pending_append, Set.mem_union, Set.mem_ofPred_eq, Set.mem_ofPred_eq, forwardedIff claim]
    refine or_congr_right (and_congr_left fun _ => ⟨?_, ?_⟩)
    · rintro ⟨edge, member, rfl⟩
      obtain ⟨listed, source⟩ := List.mem_filter.1 member
      exact ⟨edge, listed, of_decide_eq_true source, rfl⟩
    · rintro ⟨edge, listed, source, rfl⟩
      exact ⟨edge, List.mem_filter.2 ⟨listed, decide_eq_true source⟩, rfl⟩
  · refine (inv.final.recordFinalDecisions decisions _).congr fun claimant decision => ?_
    rw [Set.mem_ofPred_eq, made.mem_iff claimant decision, hasOutgoing]
    constructor
    · rintro (⟨earlier, visited, found⟩ | ⟨⟨claim, sameId, decides⟩, counts⟩)
      · exact ⟨earlier, List.mem_append_left _ visited, found⟩
      · exact ⟨node, by simp, claim, sameId, decides, counts⟩
    · rintro ⟨visitedNode, visited, claim, sameId, decides, counts⟩
      rcases List.mem_append.1 visited with earlier | last
      · exact Or.inl ⟨visitedNode, earlier, claim, sameId, decides, counts⟩
      · obtain rfl : visitedNode = node := by simpa using last
        exact Or.inr ⟨⟨claim, sameId, decides⟩, counts⟩
  · intro captured grown other
    obtain ⟨before, held, rfl⟩ := Option.map_eq_some_iff.1 grown
    have earlier := inv.captured before held other
    rw [lookup_insert, List.mem_append, List.mem_singleton]
    by_cases same : other = node
    · subst same
      simpa using made
    · simpa [same] using earlier
  · intro other visited claim arrived
    rcases List.mem_append.1 visited with earlier | last
    · exact inv.evaluated other earlier claim arrived
    · obtain rfl : other = node := by simpa using last
      obtain ⟨index, inside, atIndex⟩ := List.getElem_of_mem ((feed.mem_iff claim).2 arrived)
      have bound : index < decisions.length := by
        rw [← decided.length_eq]
        exact inside
      have here := (List.forall₂_iff_get.1 decided).2 index inside bound
      simp only [List.get_eq_getElem, atIndex] at here
      exact ⟨_, (decides_iff atNode feed).2 ⟨(feed.mem_iff claim).2 arrived, here.1⟩⟩

theorem startState_invariant (batch : ValidBatch claims) (captureNodeDecisions : Bool) :
    RunInvariant regexes graph claims flow [] (startState graph claims captureNodeDecisions) := by
  have queued : ∀ (nodes : List NodeId) (start : BTreeMap NodeId (List GovernanceClaim)) (node : NodeId),
      (nodes.foldl (fun queued node => queued.insert node claims) start)[node]? = if node ∈ nodes then some claims else start[node]? := by
    intro nodes
    induction nodes with
    | nil => simp
    | cons first others ih =>
      intro start node
      rw [List.foldl_cons, ih, lookup_insert]
      by_cases later : node ∈ others
      · simp [later]
      · by_cases same : node = first
        · simp [same]
        · simp [later, same]
  refine ⟨fun node _ => ?_, ?_, ?_, ?_⟩
  · rw [FlowNetwork.pending_nothing]
    unfold startState
    simp only [queued]
    by_cases entry : node ∈ entryNodes graph
    · rw [if_pos entry, Option.getD_some]
      exact ⟨batch.distinct, fun claim => ⟨fun member => ⟨mem_entryNodes.1 entry, member⟩, fun member => member.2⟩⟩
    · rw [if_neg entry]
      exact ⟨by simp, fun claim => ⟨fun member => by simp at member, fun member => absurd (mem_entryNodes.2 member.1) entry⟩⟩
  · refine records_empty.congr fun claimant decision => ?_
    simp [decidedOn]
  · intro captured held node
    refine ⟨fun member => by simp at member, fun _ => ?_⟩
    unfold startState at held
    cases captureNodeDecisions with
    | true =>
      obtain rfl : ∅ = captured := by simpa using held
      simp
    | false => simp at held
  · simp

theorem run_sound (parts : LoopParts regexes claims evaluate merge) (legal : graph.LegalOrder order) (plain : graph.Plain)
    (isFlow : (claimNetwork regexes graph claims).IsFlow flow) (within : ∀ node, flow node ⊆ {claim | claim ∈ claims})
    (batch : ValidBatch claims) (captureNodeDecisions : Bool) {final : TraversalState}
    (run : order.foldlM (visitNode graph evaluate merge) (startState graph claims captureNodeDecisions) = .ok final) :
    RunInvariant regexes graph claims flow order final := by
  refine foldlM_invariant (RunInvariant regexes graph claims flow) (startState_invariant batch captureNodeDecisions) ?_ run
  intro done node rest state next split inv stepped
  have feed := inv.feedOf legal isFlow split
  have drawn : (state.queuedClaims[node]?).getD [] ⊆ claims := fun claim member => within node ((feed.mem_iff claim).1 member)
  cases atNode : graph.nodes[node]? with
  | none => simp [visitNode, atNode] at stepped
  | some governanceNode =>
    obtain ⟨decisions, evaluated⟩ : ∃ decisions, evaluate governanceNode ((state.queuedClaims[node]?).getD []) = .ok decisions := by
      unfold visitNode at stepped
      rw [atNode] at stepped
      obtain ⟨decisions, evaluated, -⟩ := bind_eq_ok.1 stepped
      exact ⟨decisions, evaluated⟩
    rw [parts.evaluates governanceNode _ drawn feed.distinct] at evaluated
    obtain ⟨other, moved, after⟩ := inv.visitNode parts legal isFlow within split atNode (plain node governanceNode atNode) evaluated
    obtain rfl : other = next := Except.ok.inj (moved.symm.trans stepped)
    exact after

theorem run_complete (parts : LoopParts regexes claims evaluate merge) (legal : graph.LegalOrder order) (plain : graph.Plain)
    (isFlow : (claimNetwork regexes graph claims).IsFlow flow) (within : ∀ node, flow node ⊆ {claim | claim ∈ claims})
    (batch : ValidBatch claims) (captureNodeDecisions : Bool)
    (evaluable : ∀ node ∈ graph.nodes, ∀ claim ∈ flow node, ∃ decision, Decides regexes graph node (flow node) claim decision) :
    ∃ final, order.foldlM (visitNode graph evaluate merge) (startState graph claims captureNodeDecisions) = .ok final ∧
      RunInvariant regexes graph claims flow order final := by
  refine foldlM_progress (RunInvariant regexes graph claims flow) (startState_invariant batch captureNodeDecisions) ?_
  intro done node rest state split inv
  have feed := inv.feedOf legal isFlow split
  have inGraph : node ∈ graph.nodes := (legal.complete node).1 (by simp [split])
  obtain ⟨governanceNode, atNode⟩ := mem_iff_lookup.1 inGraph
  obtain ⟨decisions, decided⟩ := @exists_decisions (claimDecision regexes governanceNode ((state.queuedClaims[node]?).getD []))
    ((state.queuedClaims[node]?).getD []) (by
      intro claim member
      obtain ⟨decision, decides⟩ := evaluable node inGraph claim ((feed.mem_iff claim).1 member)
      exact ⟨decision, ((decides_iff atNode feed).1 decides).2⟩)
  have evaluated := (evaluateNodeValidated_eq_ok (plain node governanceNode atNode)).2 decided
  exact inv.visitNode parts legal isFlow within split atNode (plain node governanceNode atNode) evaluated

end

end Legitimacy
