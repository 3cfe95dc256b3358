import Std.Data.String.ToNat
import Legitimacy.TraversalDecisions

namespace Legitimacy

open ExceptRun

theorem exists_free_id (graph : GovernanceGraph) {candidate : Nat → NodeId} (injective : Function.Injective candidate) :
    ∃ index < graph.nodes.size + 1, candidate index ∉ graph.nodes := by
  by_contra taken
  push Not at taken
  have tried : ((List.range (graph.nodes.size + 1)).map candidate).Nodup := List.Nodup.map injective List.nodup_range
  have allTaken : (List.range (graph.nodes.size + 1)).map candidate ⊆ graph.nodes.keys := by
    intro id listed
    obtain ⟨index, bound, rfl⟩ := List.mem_map.1 listed
    exact Std.ExtTreeMap.mem_keys.2 (taken index (List.mem_range.1 bound))
  have counted := (tried.subperm allTaken).length_le
  rw [List.length_map, List.length_range, Std.ExtTreeMap.length_keys] at counted
  omega

theorem exists_find_free (graph : GovernanceGraph) {candidate : Nat → NodeId} (injective : Function.Injective candidate) :
    ∃ node, ((List.range (graph.nodes.size + 1)).map candidate).find? (fun id => !graph.nodes.contains id) = some node ∧
      node ∉ graph.nodes := by
  obtain ⟨index, bound, free⟩ := exists_free_id graph injective
  have finds : (((List.range (graph.nodes.size + 1)).map candidate).find? fun id => !graph.nodes.contains id).isSome := by
    rw [List.find?_isSome]
    refine ⟨candidate index, List.mem_map_of_mem (List.mem_range.2 bound), ?_⟩
    rw [Bool.not_eq_true', ← Bool.not_eq_true, Std.ExtTreeMap.contains_iff_mem]
    exact free
  obtain ⟨node, found⟩ := Option.isSome_iff_exists.1 finds
  have unused := List.find?_some found
  rw [Bool.not_eq_true', ← Bool.not_eq_true, Std.ExtTreeMap.contains_iff_mem] at unused
  exact ⟨node, found, unused⟩

/-- Names that end in different numbers differ, and the base alone is none of them. -/
theorem suffixed_injective {base separator : String} (long : 0 < separator.length) {first second : Nat}
    (same : (if first = 0 then base else base ++ separator ++ toString first) = if second = 0 then base else base ++ separator ++ toString second) :
    first = second := by
  have longer : ∀ suffix : Nat, base ++ separator ++ toString suffix ≠ base := by
    intro suffix equal
    have lengths := congrArg String.length equal
    rw [String.length_append, String.length_append] at lengths
    omega
  split at same <;> split at same
  · omega
  · exact absurd same.symm (longer second)
  · exact absurd same (longer first)
  · exact Nat.repr_injective ((String.append_right_inj _).1 same)

theorem suffixed_nonBlank {base : String} (separator : String) (visible : isBlank base = false) (suffix : Nat) :
    isBlank (if suffix = 0 then base else base ++ separator ++ toString suffix) = false := by
  split
  · exact visible
  · unfold isBlank at visible ⊢
    rw [String.toList_append, String.toList_append, List.all_append, List.all_append, visible]
    rfl

theorem newNodeId_eq {value : String} (visible : isBlank value = false) : NodeId.new value = .ok ⟨value, visible⟩ := by
  unfold NodeId.new
  rw [dif_neg (by simp [visible])]

def GovernanceGraph.withStage (graph : GovernanceGraph) (exits : List NodeId) (stage : GovernanceNode) : GovernanceGraph where
  nodes := graph.nodes.insert (nodeId stage) stage
  edges := graph.edges ++ exits.map fun exit => ⟨exit, nodeId stage, .passThrough⟩

structure StageAfter (graph : GovernanceGraph) (exits : List NodeId) (stage : GovernanceNode) : Prop where
  known : ∀ exit ∈ exits, exit ∈ graph.nodes
  leaf : ∀ exit ∈ exits, ∀ next, ¬graph.Edge exit next
  inhabited : exits ≠ []
  fresh : nodeId stage ∉ graph.nodes
  plain : isProportional stage = false

section

variable {regexes : RegexEngine} {graph : GovernanceGraph} {exits : List NodeId} {stage : GovernanceNode} {node next : NodeId}

theorem staged_edge : (graph.withStage exits stage).Edge node next ↔ graph.Edge node next ∨ (next = nodeId stage ∧ node ∈ exits) := by
  constructor
  · rintro ⟨edge, listed, source, target⟩
    rcases List.mem_append.1 listed with old | added
    · exact Or.inl ⟨edge, old, source, target⟩
    · obtain ⟨exit, isExit, rfl⟩ := List.mem_map.1 added
      exact Or.inr ⟨target.symm, source ▸ isExit⟩
  · rintro (⟨edge, listed, source, target⟩ | ⟨rfl, isExit⟩)
    · exact ⟨edge, List.mem_append_left _ listed, source, target⟩
    · exact ⟨_, List.mem_append_right _ (List.mem_map_of_mem isExit), rfl, rfl⟩

theorem staged_node : node ∈ (graph.withStage exits stage).nodes ↔ node = nodeId stage ∨ node ∈ graph.nodes := by
  unfold GovernanceGraph.withStage
  rw [Std.ExtTreeMap.mem_insert, Std.LawfulEqCmp.compare_eq_iff_eq, eq_comm]

theorem staged_lookup (old : node ≠ nodeId stage) : (graph.withStage exits stage).nodes[node]? = graph.nodes[node]? := by
  unfold GovernanceGraph.withStage
  rw [lookup_insert, if_neg old]

theorem staged_stage : (graph.withStage exits stage).nodes[nodeId stage]? = some stage := by
  unfold GovernanceGraph.withStage
  rw [lookup_insert, if_pos rfl]

theorem staged_decides (old : node ≠ nodeId stage) {arrived : Set GovernanceClaim} {claim : GovernanceClaim} {decision : Decision} :
    Decides regexes (graph.withStage exits stage) node arrived claim decision ↔ Decides regexes graph node arrived claim decision := by
  unfold Decides
  rw [staged_lookup old]

namespace StageAfter

section

variable (after : StageAfter graph exits stage)

include after

theorem source_ne (closed : graph.Closed) (link : (graph.withStage exits stage).Edge node next) :
    node ≠ nodeId stage := by
  rintro rfl
  rcases staged_edge.1 link with old | ⟨-, isExit⟩
  · exact after.fresh (closed.ends old).1
  · exact after.fresh (after.known _ isExit)

theorem closed (closed : graph.Closed) : (graph.withStage exits stage).Closed := by
  intro edge listed
  have link : (graph.withStage exits stage).Edge edge.fromNode edge.toNode := ⟨edge, listed, rfl, rfl⟩
  rw [staged_node, staged_node]
  rcases staged_edge.1 link with old | ⟨isStage, isExit⟩
  · exact ⟨Or.inr (closed.ends old).1, Or.inr (closed.ends old).2⟩
  · exact ⟨Or.inr (after.known _ isExit), Or.inl isStage⟩

theorem acyclic (closed : graph.Closed) (acyclic : graph.Acyclic) :
    (graph.withStage exits stage).Acyclic := by
  have paths : ∀ {node next : NodeId}, Relation.TransGen (graph.withStage exits stage).Edge node next →
      node ≠ nodeId stage ∧ (next = nodeId stage ∨ Relation.TransGen graph.Edge node next) := by
    intro node next path
    induction path with
    | single link =>
      refine ⟨after.source_ne closed link, ?_⟩
      rcases staged_edge.1 link with old | ⟨isStage, -⟩
      · exact Or.inr (.single old)
      · exact Or.inl isStage
    | tail earlier link ih =>
      have onward := ih.2.resolve_left (after.source_ne closed link)
      refine ⟨ih.1, ?_⟩
      rcases staged_edge.1 link with old | ⟨isStage, -⟩
      · exact Or.inr (onward.tail old)
      · exact Or.inl isStage
  intro node path
  obtain ⟨notStage, reaches⟩ := paths path
  exact acyclic node (reaches.resolve_left notStage)

theorem plainGraph (plain : graph.Plain) : (graph.withStage exits stage).Plain := by
  intro node governanceNode atNode
  by_cases same : node = nodeId stage
  · rw [same, staged_stage] at atNode
    rw [← Option.some.inj atNode]
    exact after.plain
  · rw [staged_lookup same] at atNode
    exact plain node governanceNode atNode

theorem isEntry : (graph.withStage exits stage).IsEntry node ↔ graph.IsEntry node := by
  obtain ⟨exit, isExit⟩ := List.exists_mem_of_ne_nil _ after.inhabited
  unfold GovernanceGraph.IsEntry
  rw [staged_node]
  constructor
  · rintro ⟨known, first⟩
    have notStage : node ≠ nodeId stage := by
      rintro rfl
      exact first exit (staged_edge.2 (Or.inr ⟨rfl, isExit⟩))
    exact ⟨known.resolve_left notStage, fun previous link => first previous (staged_edge.2 (Or.inl link))⟩
  · rintro ⟨known, first⟩
    refine ⟨Or.inr known, fun previous link => ?_⟩
    rcases staged_edge.1 link with old | ⟨isStage, -⟩
    · exact first previous old
    · exact after.fresh (isStage ▸ known)

end

end StageAfter

end

section

variable {regexes : RegexEngine} {graph : GovernanceGraph} {claims : List GovernanceClaim} {exits : List NodeId} {stage : GovernanceNode}
  {flow : NodeId → Set GovernanceClaim}

def escalatedAt (regexes : RegexEngine) (graph : GovernanceGraph) (flow : NodeId → Set GovernanceClaim) (exits : List NodeId) :
    Set GovernanceClaim :=
  {claim | ∃ exit ∈ exits, claim ∈ flow exit ∧ Decides regexes graph exit (flow exit) claim .escalate}

/-- The old flow, with what the exits escalate at the stage. -/
def stagedFlow (regexes : RegexEngine) (graph : GovernanceGraph) (flow : NodeId → Set GovernanceClaim) (exits : List NodeId)
    (stage : GovernanceNode) (node : NodeId) : Set GovernanceClaim :=
  {claim | (node ≠ nodeId stage ∧ claim ∈ flow node) ∨ (node = nodeId stage ∧ claim ∈ escalatedAt regexes graph flow exits)}

theorem stagedFlow_old {node : NodeId} (old : node ≠ nodeId stage) : stagedFlow regexes graph flow exits stage node = flow node := by
  ext claim
  simp [stagedFlow, old]

theorem stagedFlow_stage : stagedFlow regexes graph flow exits stage (nodeId stage) = escalatedAt regexes graph flow exits := by
  ext claim
  simp [stagedFlow]

theorem isFlow_staged (after : StageAfter graph exits stage) (closed : graph.Closed)
    (isFlow : (claimNetwork regexes graph claims).IsFlow flow) :
    (claimNetwork regexes (graph.withStage exits stage) claims).IsFlow (stagedFlow regexes graph flow exits stage) := by
  have forwards : ∀ {previous : NodeId} {claim : GovernanceClaim}, previous ≠ nodeId stage →
      (claim ∈ (claimNetwork regexes (graph.withStage exits stage) claims).forward previous
          (stagedFlow regexes graph flow exits stage previous) ↔
        claim ∈ (claimNetwork regexes graph claims).forward previous (flow previous)) := by
    intro previous claim old
    rw [stagedFlow_old old]
    exact and_congr_right fun _ => staged_decides old
  intro node
  ext claim
  constructor
  · rintro (⟨old, arrived⟩ | ⟨rfl, exit, isExit, arrived, escalates⟩)
    · rw [isFlow node] at arrived
      rcases arrived with ⟨isEntry, supplied⟩ | ⟨previous, _, link, passed⟩
      · exact Or.inl ⟨after.isEntry.2 isEntry, supplied⟩
      · have source : previous ≠ nodeId stage := fun same => after.fresh (same ▸ (closed.ends link).1)
        exact Or.inr ⟨previous, trivial, staged_edge.2 (Or.inl link), (forwards source).2 passed⟩
    · have source : exit ≠ nodeId stage := fun same => after.fresh (same ▸ after.known _ isExit)
      exact Or.inr ⟨exit, trivial, staged_edge.2 (Or.inr ⟨rfl, isExit⟩), (forwards source).2 ⟨arrived, escalates⟩⟩
  · rintro (⟨isEntry, supplied⟩ | ⟨previous, _, link, passed⟩)
    · have entered := after.isEntry.1 isEntry
      refine Or.inl ⟨fun same => after.fresh (same ▸ entered.1), ?_⟩
      rw [isFlow node]
      exact Or.inl ⟨entered, supplied⟩
    · rw [forwards (after.source_ne closed link)] at passed
      rcases staged_edge.1 link with old | ⟨rfl, isExit⟩
      · refine Or.inl ⟨fun same => after.fresh (same ▸ (closed.ends old).2), ?_⟩
        rw [isFlow node]
        exact Or.inr ⟨previous, trivial, old, passed⟩
      · exact Or.inr ⟨rfl, previous, isExit, passed⟩

/-- The decisions of the old graph on a claimant, without the escalations that travel on to the stage. -/
def keptDecisions (regexes : RegexEngine) (graph : GovernanceGraph) (flow : NodeId → Set GovernanceClaim) (exits : List NodeId)
    (claimant : ClaimantId) : Set Decision :=
  {decision | ∃ node ∈ graph.nodes, ∃ claim, claim.claimantId = claimant ∧ Decides regexes graph node (flow node) claim decision ∧
    ¬(decision = .escalate ∧ ((∃ next, graph.Edge node next) ∨ node ∈ exits))}

theorem decidedOn_staged (after : StageAfter graph exits stage) (closed : graph.Closed) (claimant : ClaimantId) :
    decidedOn regexes (graph.withStage exits stage) (stagedFlow regexes graph flow exits stage)
        (· ∈ (graph.withStage exits stage).nodes) claimant =
      keptDecisions regexes graph flow exits claimant ∪ {decision | ∃ claim, claim.claimantId = claimant ∧
        Decides regexes (graph.withStage exits stage) (nodeId stage) (escalatedAt regexes graph flow exits) claim decision} := by
  ext decision
  constructor
  · rintro ⟨node, known, claim, sameId, decides, counts⟩
    by_cases isStage : node = nodeId stage
    · subst isStage
      rw [stagedFlow_stage] at decides
      exact Or.inr ⟨claim, sameId, decides⟩
    · rw [staged_decides isStage, stagedFlow_old isStage] at decides
      refine Or.inl ⟨node, (staged_node.1 known).resolve_left isStage, claim, sameId, decides, ?_⟩
      rintro ⟨escalated, ⟨next, link⟩ | isExit⟩
      · exact counts ⟨escalated, next, staged_edge.2 (Or.inl link)⟩
      · exact counts ⟨escalated, _, staged_edge.2 (Or.inr ⟨rfl, isExit⟩)⟩
  · rintro (⟨node, inGraph, claim, sameId, decides, counts⟩ | ⟨claim, sameId, decides⟩)
    · have old : node ≠ nodeId stage := fun same => after.fresh (same ▸ inGraph)
      refine ⟨node, staged_node.2 (Or.inr inGraph), claim, sameId, ?_, ?_⟩
      · rw [staged_decides old, stagedFlow_old old]
        exact decides
      · rintro ⟨escalated, next, link⟩
        refine counts ⟨escalated, (staged_edge.1 link).imp ?_ ?_⟩
        · exact fun oldLink => ⟨next, oldLink⟩
        · exact fun toStage => toStage.2
    · refine ⟨nodeId stage, staged_node.2 (Or.inl rfl), claim, sameId, stagedFlow_stage.symm ▸ decides, ?_⟩
      rintro ⟨-, next, link⟩
      exact after.source_ne closed link rfl

theorem plain_of_traversal (closed : graph.Closed) (acyclic : graph.Acyclic) {decisions : BTreeMap ClaimantId Decision}
    (run : traverseFinalDecisions regexes graph claims = .ok decisions) : graph.Plain := by
  obtain ⟨entries, final, traversed, -⟩ := traverseFinalDecisions_eq_ok.1 run
  obtain ⟨-, -, order, legal, looped⟩ := traverseClaims_run closed acyclic traversed
  have visited : ∀ node ∈ order, ∀ governanceNode, graph.nodes[node]? = some governanceNode → isProportional governanceNode = false := by
    refine foldlM_invariant (fun done _ => ∀ node ∈ done, ∀ governanceNode, graph.nodes[node]? = some governanceNode →
      isProportional governanceNode = false) (fun node impossible => nomatch impossible) ?_ looped
    intro done node rest state next _ kept stepped other member governanceNode atNode
    rcases List.mem_append.1 member with earlier | last
    · exact kept other earlier governanceNode atNode
    · rw [List.mem_singleton.1 last] at atNode
      unfold visitNode at stepped
      rw [atNode] at stepped
      obtain ⟨made, evaluated, -⟩ := bind_eq_ok.1 stepped
      cases governanceNode with
      | binary => rfl
      | threshold => rfl
      | proportional => cases evaluated
  intro node governanceNode atNode
  exact visited node ((legal.complete node).2 (mem_iff_lookup.2 ⟨governanceNode, atNode⟩)) governanceNode atNode

/-- A stage that decides every cohort of the batch lets the traversal succeed as before; what counts is what the exits and the stage leave. -/
theorem traverseFinalDecisions_staged (after : StageAfter graph exits stage) (closed : graph.Closed) (acyclic : graph.Acyclic)
    (decides : ∀ cohort ⊆ claims, ∀ claim ∈ cohort, ∃ decision, claimDecision regexes stage cohort claim = .ok decision)
    {decisions : BTreeMap ClaimantId Decision} (run : traverseFinalDecisions regexes graph claims = .ok decisions) :
    ∃ flow perturbed, (claimNetwork regexes graph claims).IsFlow flow ∧
      (∃ cohort, cohort ⊆ claims ∧ FeedOf cohort (escalatedAt regexes graph flow exits)) ∧
      Records decisions (decidedOn regexes graph flow (· ∈ graph.nodes)) ∧
      traverseFinalDecisions regexes (graph.withStage exits stage) claims = .ok perturbed ∧
      Records perturbed fun claimant => keptDecisions regexes graph flow exits claimant ∪ {decision | ∃ claim, claim.claimantId = claimant ∧
        Decides regexes (graph.withStage exits stage) (nodeId stage) (escalatedAt regexes graph flow exits) claim decision} := by
  obtain ⟨batch, nonempty, flow, isFlow, evaluable, records⟩ :=
    determined_of_traversal closed acyclic (plain_of_traversal closed acyclic run) run
  have newFlow := isFlow_staged after closed isFlow
  have newAcyclic := after.acyclic closed acyclic
  have within := claimNetwork_within newAcyclic newFlow
  obtain ⟨reached, feeds⟩ := exists_cohorts batch within
  have drawn : reached (nodeId stage) ⊆ claims := fun claim member => within _ (((feeds _).mem_iff claim).1 member)
  have newEvaluable : Evaluable regexes (graph.withStage exits stage) (stagedFlow regexes graph flow exits stage) := by
    intro node known claim arrived
    by_cases isStage : node = nodeId stage
    · subst isStage
      have member := ((feeds _).mem_iff claim).2 arrived
      obtain ⟨decision, made⟩ := decides _ drawn claim member
      exact ⟨decision, (decides_iff staged_stage (feeds _)).2 ⟨member, made⟩⟩
    · rw [stagedFlow_old isStage] at arrived ⊢
      obtain ⟨decision, decides⟩ := evaluable node ((staged_node.1 known).resolve_left isStage) claim arrived
      exact ⟨decision, (staged_decides isStage).2 decides⟩
  have newNonempty : (graph.withStage exits stage).nodes.isEmpty = false := by
    rw [Std.ExtTreeMap.isEmpty_eq_false_iff]
    exact Std.ExtTreeMap.insert_ne_empty
  obtain ⟨perturbed, traversed, newRecords⟩ := traverseFinalDecisions_of_evaluable (after.closed closed) newAcyclic
    (after.plainGraph (plain_of_traversal closed acyclic run)) newNonempty batch newFlow newEvaluable
  refine ⟨flow, perturbed, isFlow, ⟨reached (nodeId stage), drawn, stagedFlow_stage ▸ feeds _⟩, records, traversed, ?_⟩
  exact newRecords.congr fun claimant decision => by rw [decidedOn_staged after closed]

end

end Legitimacy
