import Legitimacy.AppendedStage
import Legitimacy.SupervisedOverlays

namespace Legitimacy.Protocol

open ExceptRun

/-- The overlay has the fresh node of a reroute as its one entry, behind it exactly the chosen targets, and beside it the nodes of the
graph that were no entries. The fresh node may bear the name of an entry that is gone. -/
structure OneWayIn (regexes : RegexEngine) (graph overlay : GovernanceGraph) (targets : List NodeId) (fresh : NodeId) : Prop where
  acyclic : overlay.Acyclic
  valid : validateGovernanceGraph regexes overlay = .ok ()
  source : overlay.nodes[fresh]? = some (rerouteNode fresh)
  unused : fresh ∈ graph.nodes → graph.IsEntry fresh
  others : ∀ key governanceNode, key ≠ fresh →
    (overlay.nodes[key]? = some governanceNode ↔ graph.nodes[key]? = some governanceNode ∧ ¬graph.IsEntry key)
  entry : ∀ node, overlay.IsEntry node ↔ node = fresh
  behind : ∀ next, overlay.Edge fresh next ↔ next ∈ targets

/-- A node that only entries lead to is named as a target, unless no inner node is named. -/
def NamesStranded (graph : GovernanceGraph) (directive : SupervisoryDirective) : Prop :=
  ∀ node ∈ graph.nodes, ¬graph.IsEntry node → OnlyBehindEntries graph node →
    node.asStr ∈ directive.rerouteTo ∨ ∀ other ∈ graph.nodes, other.asStr ∈ directive.rerouteTo → graph.IsEntry other

variable {regexes : RegexEngine} {graph overlay : GovernanceGraph} {directive : SupervisoryDirective} {requested : BTreeSet NodeId}

theorem parseExistingNodeIds_ok {field : String} {rawIds : List String} (exist : ∀ raw ∈ rawIds, ∃ node ∈ graph.nodes, node.asStr = raw) :
    ∃ requested, parseExistingNodeIds graph field rawIds = .ok requested := by
  have each : ∀ raw ∈ rawIds, ∃ node, parseExistingNodeId graph field raw = .ok node := by
    intro raw listed
    obtain ⟨node, inGraph, rfl⟩ := exist raw listed
    refine ⟨node, ?_⟩
    rw [parseExistingNodeId, newNodeId_eq node.nonBlank]
    exact if_pos (Std.ExtTreeMap.contains_iff_mem.2 inGraph)
  obtain ⟨nodeIds, named⟩ := exists_mapM each
  exact ⟨_, bind_eq_ok.2 ⟨nodeIds, named, rfl⟩⟩

theorem nextAvailableNodeId_ok (graph : GovernanceGraph) : ∃ node, nextAvailableNodeId graph rerouteNodeId = .ok node := by
  have visible : isBlank rerouteNodeId = false := by decide
  let candidate (suffix : Nat) : NodeId :=
    ⟨if suffix = 0 then rerouteNodeId else rerouteNodeId ++ "_" ++ toString suffix, suffixed_nonBlank "_" visible suffix⟩
  have injective : Function.Injective candidate := fun first second same =>
    suffixed_injective (by decide : 0 < "_".length) (congrArg NodeId.asStr same)
  obtain ⟨node, found, -⟩ := exists_find_free graph injective
  have candidates : (List.range (graph.nodes.size + 1)).mapM (fun suffix =>
      NodeId.new (if suffix = 0 then rerouteNodeId else rerouteNodeId ++ "_" ++ toString suffix)) =
      .ok ((List.range (graph.nodes.size + 1)).map candidate) := by
    rw [mapM_eq_ok, List.forall₂_map_right_iff, List.forall₂_same]
    exact fun suffix _ => newNodeId_eq (suffixed_nonBlank "_" visible suffix)
  refine ⟨node, bind_eq_ok.2 ⟨_, candidates, ?_⟩⟩
  rw [found]

theorem mem_inner {node : NodeId} : node ∉ sorted (entryNodes graph) ↔ ¬graph.IsEntry node := by
  rw [mem_sorted, mem_entryNodes]

theorem rerouteTargets_ne_nil (inner : ∃ node ∈ graph.nodes, ¬graph.IsEntry node) :
    rerouteTargets graph (sorted (entryNodes graph)) requested ≠ [] := by
  obtain ⟨node, inGraph, notEntry⟩ := inner
  have left : node ∈ graph.nodes.keys.filter (· ∉ sorted (entryNodes graph)) :=
    List.mem_filter.2 ⟨Std.ExtTreeMap.mem_keys.2 inGraph, decide_eq_true (mem_inner.2 notEntry)⟩
  unfold rerouteTargets
  dsimp only
  split
  · assumption
  · split
    · assumption
    · exact List.ne_nil_of_mem left

/-- Of the nodes that only entries lead to, the targets are those that are named, or all when no inner node is named. -/
theorem mem_rerouteTargets_stranded (parsed : parseExistingNodeIds graph "reroute_to" directive.rerouteTo = .ok requested) {node : NodeId}
    (inGraph : node ∈ graph.nodes) (notEntry : ¬graph.IsEntry node) (stranded : OnlyBehindEntries graph node) :
    node ∈ rerouteTargets graph (sorted (entryNodes graph)) requested ↔
      node.asStr ∈ directive.rerouteTo ∨ ∀ other ∈ graph.nodes, other.asStr ∈ directive.rerouteTo → graph.IsEntry other := by
  have named : ∀ other, other ∈ requested.toList.filter (· ∉ sorted (entryNodes graph)) ↔
      other.asStr ∈ directive.rerouteTo ∧ ¬graph.IsEntry other := by
    intro other
    rw [List.mem_filter, Std.ExtTreeSet.mem_toList, Std.ExtTreeSet.mem_iff_contains, parseExistingNodeIds_eq_ok parsed, decide_eq_true_iff,
      mem_inner]
  unfold rerouteTargets
  dsimp only
  split
  · rename_i chosen
    obtain ⟨other, listed⟩ := List.exists_mem_of_ne_nil _ chosen
    obtain ⟨raw, inner⟩ := (named other).1 listed
    have known := parseExistingNodeIds_subset parsed ((parseExistingNodeIds_eq_ok parsed other).2 raw)
    rw [named]
    exact ⟨fun member => .inl member.1, fun either => ⟨either.resolve_right fun all => inner (all other known raw), notEntry⟩⟩
  · rename_i chosen
    have all : ∀ other ∈ graph.nodes, other.asStr ∈ directive.rerouteTo → graph.IsEntry other := by
      intro other _ raw
      by_contra inner
      exact chosen (List.ne_nil_of_mem ((named other).2 ⟨raw, inner⟩))
    obtain ⟨previous, link⟩ : ∃ previous, graph.Edge previous node := by
      by_contra nothing
      exact notEntry ⟨inGraph, fun previous link => nothing ⟨previous, link⟩⟩
    have downstream := mem_downstreamTargets.2 ⟨previous, stranded previous link, link⟩
    rw [if_pos (List.ne_nil_of_mem downstream)]
    exact iff_of_true downstream (.inr all)

theorem Rerouted.isEntry_iff {rerouteId node : NodeId} {targets : List NodeId} (rerouted : Rerouted graph overlay rerouteId targets)
    (closed : graph.Closed) : overlay.IsEntry node ↔
      node = rerouteId ∨ (node ∈ graph.nodes ∧ ¬graph.IsEntry node ∧ OnlyBehindEntries graph node ∧ node ∉ targets) := by
  constructor
  · rintro ⟨inOverlay, unreached⟩
    by_cases same : node = rerouteId
    · exact .inl same
    · obtain ⟨governanceNode, found⟩ := mem_iff_lookup.1 inOverlay
      obtain ⟨original, notEntry⟩ := (rerouted.kept node governanceNode same).1 found
      refine .inr ⟨mem_iff_lookup.2 ⟨_, original⟩, notEntry, fun previous link => ?_, fun chosen => ?_⟩
      · by_contra inner
        exact unreached previous ((rerouted.edge previous node).2 (.inr ⟨link, inner, notEntry⟩))
      · exact unreached rerouteId ((rerouted.edge rerouteId node).2 (.inl ⟨rfl, chosen⟩))
  · rintro (rfl | ⟨inGraph, notEntry, stranded, unchosen⟩)
    · exact rerouted.isEntry closed
    · refine ⟨rerouted.mem_of_inner inGraph notEntry, fun previous link => ?_⟩
      rcases (rerouted.edge previous node).1 link with ⟨-, chosen⟩ | ⟨original, inner, -⟩
      · exact unchosen chosen
      · exact inner (stranded previous original)

/-- A reroute of a graph with an inner node succeeds, and it leaves one way in exactly when it names the nodes that it strands. -/
theorem reroute_one_way_in (sound : graph.Sound regexes) (inner : ∃ node ∈ graph.nodes, ¬graph.IsEntry node)
    (exist : ∀ raw ∈ directive.rerouteTo, ∃ node ∈ graph.nodes, node.asStr = raw) :
    ∃ overlay requested, rerouteGraph graph directive = .ok overlay ∧
      parseExistingNodeIds graph "reroute_to" directive.rerouteTo = .ok requested ∧
      ((∃ fresh, OneWayIn regexes graph overlay (rerouteTargets graph (sorted (entryNodes graph)) requested) fresh) ↔
        NamesStranded graph directive) := by
  have closed := (validateGovernanceGraph_iff.1 sound.valid).2.1
  obtain ⟨requested, parsed⟩ := @parseExistingNodeIds_ok graph "reroute_to" _ exist
  have targets := @rerouteTargets_ne_nil graph requested inner
  obtain ⟨rerouteId, free⟩ := nextAvailableNodeId_ok (restrict graph fun nodeId => nodeId ∉ sorted (entryNodes graph))
  obtain ⟨overlay, rerouted⟩ : ∃ overlay, rerouteGraph graph directive = .ok overlay := by
    unfold rerouteGraph
    rw [parsed]
    simp only [bind, Except.bind]
    rw [if_neg targets, lift_eq_ok.2 free]
    exact ⟨_, rfl⟩
  refine ⟨overlay, requested, rerouted, parsed, ?_⟩
  obtain ⟨other, parsed', shape⟩ := rerouteGraph_parts closed rerouted
  obtain rfl := Except.ok.inj (parsed.symm.trans parsed')
  obtain ⟨fresh, shape⟩ := shape.resolve_left fun constant => targets constant.1
  have overlaid := rerouteGraph_sound sound rerouted
  constructor
  · rintro ⟨other, oneWay⟩ node inGraph notEntry stranded
    by_contra unnamed
    rw [← mem_rerouteTargets_stranded parsed inGraph notEntry stranded] at unnamed
    have first : fresh = other := (oneWay.entry fresh).1 (shape.isEntry closed)
    have second : node = other := (oneWay.entry node).1 ((shape.isEntry_iff closed).2 (.inr ⟨inGraph, notEntry, stranded, unnamed⟩))
    exact shape.ne_of_inner inGraph notEntry (second.trans first.symm)
  · intro names
    refine ⟨fresh, overlaid.acyclic, overlaid.valid, shape.source, shape.fresh, shape.kept, fun node => ?_, fun next => ?_⟩
    · rw [shape.isEntry_iff closed]
      refine or_iff_left fun stranded => ?_
      obtain ⟨inGraph, notEntry, behind, unchosen⟩ := stranded
      exact unchosen ((mem_rerouteTargets_stranded parsed inGraph notEntry behind).2 (names node inGraph notEntry behind))
    · rw [shape.edge]
      constructor
      · rintro (⟨-, chosen⟩ | ⟨link, notEntry, -⟩)
        · exact chosen
        · exact absurd (shape.fresh (closed.ends link).1) notEntry
      · exact fun chosen => .inl ⟨rfl, chosen⟩

def rerouteTo (names : List String) : SupervisoryDirective := { defaultDirective with rerouteTo := names }

theorem forkGraph_sound : forkGraph.Sound .error where
  nonempty := by decide +kernel
  acyclic := acyclic_of_ascending (by decide)
  valid := by decide +kernel

theorem reroute_one_way_in_fork : ∃ overlay requested, rerouteGraph forkGraph (rerouteTo []) = .ok overlay ∧
    parseExistingNodeIds forkGraph "reroute_to" (rerouteTo []).rerouteTo = .ok requested ∧
    ((∃ fresh, OneWayIn .error forkGraph overlay (rerouteTargets forkGraph (sorted (entryNodes forkGraph)) requested) fresh) ↔
      NamesStranded forkGraph (rerouteTo [])) :=
  reroute_one_way_in forkGraph_sound
    ⟨⟨"left", by decide⟩, by decide +kernel, fun entry => absurd (mem_entryNodes.2 entry) (by decide +kernel)⟩ (by simp [rerouteTo])

/-- A reroute to the left strands the node on the right, which becomes a second way in. -/
theorem reroute_second_way_in : ∃ overlay, rerouteGraph forkGraph (rerouteTo ["left"]) = .ok overlay ∧
    overlay.IsEntry ⟨"right", by decide⟩ ∧ overlay.IsEntry ⟨rerouteNodeId, by decide⟩ := by
  obtain ⟨overlay, rerouted⟩ := @exists_of_toBool _ _ (rerouteGraph forkGraph (rerouteTo ["left"])) (by decide +kernel)
  refine ⟨overlay, rerouted, ?_⟩
  have entries : (rerouteGraph forkGraph (rerouteTo ["left"])).toOption.map entryNodes =
      some [⟨rerouteNodeId, by decide⟩, ⟨"right", by decide⟩] := by decide +kernel
  rw [rerouted] at entries
  have entries := Option.some.inj entries
  exact ⟨mem_entryNodes.1 (by simp [entries]), mem_entryNodes.1 (by simp [entries])⟩

end Legitimacy.Protocol
