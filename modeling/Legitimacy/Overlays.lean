import Legitimacy.GraphShape
import Legitimacy.ProtocolState

namespace Legitimacy.Protocol

def defaultDegradationFactor : Float := 1.5

def rerouteNodeId : String := "__supervision_reroute__"

def defaultDirective : SupervisoryDirective := ⟨[], none, []⟩

/-- A reason that starts with an opening brace is read as a directive. -/
def parseDirective (host : ProtocolHost) : Option String → Except ProtocolError SupervisoryDirective
  | none => .ok defaultDirective
  | some value =>
    if (value.toList.dropWhile isWhitespace).head? = some '\x7b' then
      match host.parseJson value with
      | .ok directive => .ok directive
      | .error reason => .error (.malformedSupervisoryDirectiveJson reason)
    else .ok defaultDirective

def nodeName : GovernanceNode → String
  | .binary _ name .. => name
  | .proportional _ name .. => name
  | .threshold _ name .. => name

def constantNode (decision : Decision) (node : GovernanceNode) : GovernanceNode :=
  .binary (nodeId node) (nodeName node) [] decision .firstMatch

def rewriteAsConstant (graph : GovernanceGraph) (decision : Decision) : GovernanceGraph :=
  { graph with nodes := graph.nodes.map fun _ node => constantNode decision node }

def parseExistingNodeId (graph : GovernanceGraph) (field raw : String) : Except ProtocolError NodeId :=
  match NodeId.new raw with
  | .error reason => .error (.malformedSupervisoryDirectiveNodeId field raw reason)
  | .ok nodeId =>
    if graph.nodes.contains nodeId then .ok nodeId else .error (.unknownSupervisoryDirectiveNodeId field nodeId.asStr)

def nodeSet (nodeIds : List NodeId) : BTreeSet NodeId := nodeIds.foldl (fun nodes node => nodes.insert node) ∅

def parseExistingNodeIds (graph : GovernanceGraph) (field : String) (rawIds : List String) : Except ProtocolError (BTreeSet NodeId) := do
  let nodeIds ← rawIds.mapM (parseExistingNodeId graph field)
  .ok (nodeSet nodeIds)

def restrict (graph : GovernanceGraph) (keep : NodeId → Bool) : GovernanceGraph where
  nodes := retain graph.nodes keep
  edges := graph.edges.filter fun edge => keep edge.fromNode && keep edge.toNode

theorem restrict_lookup {graph : GovernanceGraph} {keep : NodeId → Bool} {key : NodeId} {governanceNode : GovernanceNode} :
    (restrict graph keep).nodes[key]? = some governanceNode ↔ graph.nodes[key]? = some governanceNode ∧ keep key = true :=
  lookup_retain

def sandboxGraph (graph : GovernanceGraph) (directive : SupervisoryDirective) : Except ProtocolError GovernanceGraph := do
  let requested ← parseExistingNodeIds graph "sandbox_nodes" directive.sandboxNodes
  let allowed := if requested.isEmpty then nodeSet (entryNodes graph) else requested
  .ok (restrict graph fun nodeId => allowed.contains nodeId)

def degradationFactor (directive : SupervisoryDirective) : Float :=
  match directive.degradationFactor with
  | some factor => if factor.isFinite ∧ 0 < factor then factor else defaultDegradationFactor
  | none => defaultDegradationFactor

def degradeGate (factor : Float) : Gate → Gate
  | .thresholdGate field min decision => .thresholdGate field (min * factor) decision
  | gate => gate

def degradeNode (factor : Float) : GovernanceNode → GovernanceNode
  | .binary id name gates default combination => .binary id name (gates.map (degradeGate factor)) default combination
  | .threshold id name threshold field => .threshold id name (threshold * factor) field
  | node => node

def degradeGraph (graph : GovernanceGraph) (directive : SupervisoryDirective) : GovernanceGraph :=
  { graph with nodes := graph.nodes.map fun _ node => degradeNode (degradationFactor directive) node }

def downstreamTargets (graph : GovernanceGraph) (entries : List NodeId) : BTreeSet NodeId :=
  nodeSet ((graph.edges.filter fun edge => edge.fromNode ∈ entries ∧ edge.toNode ∉ entries).map (·.toNode))

/-- The candidate names are tried in turn; among one more than the nodes of the graph one is free. -/
def nextAvailableNodeId (graph : GovernanceGraph) (base : String) : Except LegitimacyError NodeId := do
  let candidates ← (List.range (graph.nodes.size + 1)).mapM fun suffix =>
    NodeId.new (if suffix = 0 then base else base ++ "_" ++ toString suffix)
  match candidates.find? fun candidate => !graph.nodes.contains candidate with
  | some candidate => .ok candidate
  | none => .error (.invalidInput "unbounded reroute id search should always terminate")

/-- The named targets outside the entries, else the nodes behind the entries, else all other nodes. -/
def rerouteTargets (graph : GovernanceGraph) (entries : List NodeId) (requested : BTreeSet NodeId) : List NodeId :=
  let named := requested.toList.filter (· ∉ entries)
  if named ≠ [] then named
  else
    let downstream := (downstreamTargets graph entries).toList
    if downstream ≠ [] then downstream else graph.nodes.keys.filter (· ∉ entries)

def rerouteNode (id : NodeId) : GovernanceNode := .binary id "supervision-reroute" [] .escalate .firstMatch

def rerouteGraph (graph : GovernanceGraph) (directive : SupervisoryDirective) : Except ProtocolError GovernanceGraph := do
  let entries := sorted (entryNodes graph)
  let requested ← parseExistingNodeIds graph "reroute_to" directive.rerouteTo
  let targets := rerouteTargets graph entries requested
  if targets = [] then .ok (rewriteAsConstant graph .deny)
  else do
    let kept := restrict graph fun nodeId => nodeId ∉ entries
    let rerouteId ← lift (nextAvailableNodeId kept rerouteNodeId)
    .ok {
      nodes := kept.nodes.insert rerouteId (rerouteNode rerouteId)
      edges := kept.edges ++ targets.map fun target => ⟨rerouteId, target, .passThrough⟩ }

def applySupervisoryAction (graph : GovernanceGraph) (declaration : GovernanceDeclaration) (action : SupervisoryAction)
    (directive : SupervisoryDirective) : Except ProtocolError GovernanceGraph :=
  match action with
  | .pause => .ok (rewriteAsConstant graph .escalate)
  | .deny | .stop => .ok (rewriteAsConstant graph .deny)
  | .sandbox => sandboxGraph graph directive
  | .degrade => .ok (degradeGraph graph directive)
  | .rollback => .ok declaration.graph
  | .reroute => rerouteGraph graph directive

/-- The graph that an action rewrites: the overlay in force, at first the compiled graph. -/
def activeOverlay : ProtocolState → Except ProtocolError (GovernanceGraph × MonitorSession × ProtocolLedger × GovernanceDeclaration)
  | .live monitorSession ledger declaration => .ok (monitorSession.compiledGraph.graph, monitorSession, ledger, declaration)
  | .supervised intervention monitorSession ledger declaration =>
    .ok (intervention.overlayGraph, monitorSession, ledger, declaration)
  | other => .error (.invalidStateTransition "live|supervised" other.name)

def supervise (host : ProtocolHost) (live : ProtocolState) (action : SupervisoryAction) (reason : Option String)
    (now : Except LegitimacyError String) : Except ProtocolError ProtocolState := do
  live.validate host
  let (graph, monitorSession, ledger, declaration) ← activeOverlay live
  let directive ← parseDirective host reason
  let overlayGraph ← applySupervisoryAction graph declaration action directive
  let issuedAt ← lift now
  let state : ProtocolState := .supervised {
    action := action
    postcondition := action.postcondition
    issuedAt := issuedAt
    overlayGraph := overlayGraph
    overlayGraphHash := canonicalGraphHash host overlayGraph
    reason := reason } monitorSession ledger declaration
  state.validate host
  .ok state

end Legitimacy.Protocol

namespace Legitimacy

theorem GovernanceGraph.Acyclic.mono {graph part : GovernanceGraph} (acyclic : graph.Acyclic)
    (within : ∀ node next, part.Edge node next → graph.Edge node next) : part.Acyclic := by
  intro node path
  exact acyclic node (Relation.TransGen.mono within _ _ path)

theorem not_isEntry_of_edge {graph : GovernanceGraph} {node next : NodeId} (link : graph.Edge node next) : ¬graph.IsEntry next :=
  fun entry => entry.2 node link

namespace Protocol

open ExceptRun

section

variable {graph : GovernanceGraph} {field : String}

theorem parseExistingNodeId_eq_ok {raw : String} {node : NodeId} (parsed : parseExistingNodeId graph field raw = .ok node) :
    node.asStr = raw ∧ node ∈ graph.nodes := by
  unfold parseExistingNodeId NodeId.new at parsed
  split at parsed
  · cases parsed
  · rename_i fresh made
    split at made
    · cases made
    · obtain rfl := Except.ok.inj made
      split at parsed
      · obtain rfl := Except.ok.inj parsed
        exact ⟨rfl, Std.ExtTreeMap.mem_iff_contains.2 ‹_›⟩
      · cases parsed

theorem NodeId.ext_asStr {left right : NodeId} (same : left.asStr = right.asStr) : left = right := by
  cases left
  cases right
  exact NodeId.mk.injEq .. ▸ same

theorem nodeSet_contains {nodes : List NodeId} {node : NodeId} : (nodeSet nodes).contains node = true ↔ node ∈ nodes := by
  unfold nodeSet
  have inserted := @contains_foldl_insert NodeId NodeId _ _ _ id nodes ∅ node
  simpa using inserted

theorem parseExistingNodeIds_eq_ok {rawIds : List String} {nodes : BTreeSet NodeId}
    (parsed : parseExistingNodeIds graph field rawIds = .ok nodes) (node : NodeId) :
    nodes.contains node = true ↔ node.asStr ∈ rawIds := by
  obtain ⟨nodeIds, named, made⟩ := bind_eq_ok.1 parsed
  obtain rfl := Except.ok.inj made
  rw [nodeSet_contains]
  have each := mapM_eq_ok.1 named
  clear named parsed made
  induction each with
  | nil => simp
  | @cons raw id rawRest idRest first _ ih =>
    have sameId := (parseExistingNodeId_eq_ok first).1
    rw [List.mem_cons, List.mem_cons]
    refine or_congr ⟨?_, ?_⟩ ih
    · rintro rfl
      exact sameId
    · intro same
      exact NodeId.ext_asStr (same.trans sameId.symm)

theorem parseExistingNodeIds_subset {rawIds : List String} {nodes : BTreeSet NodeId}
    (parsed : parseExistingNodeIds graph field rawIds = .ok nodes) {node : NodeId} (contained : nodes.contains node = true) :
    node ∈ graph.nodes := by
  obtain ⟨nodeIds, named, made⟩ := bind_eq_ok.1 parsed
  obtain rfl := Except.ok.inj made
  rw [nodeSet_contains] at contained
  have each := mapM_eq_ok.1 named
  obtain ⟨index, inside, atIndex⟩ := List.getElem_of_mem contained
  have here := (List.forall₂_iff_get.1 each).2 index (each.length_eq ▸ inside) inside
  simp only [List.get_eq_getElem, atIndex] at here
  exact (parseExistingNodeId_eq_ok here).2

end

section

variable {graph : GovernanceGraph} {keep : NodeId → Bool}

theorem restrict_edge {node next : NodeId} :
    (restrict graph keep).Edge node next ↔ graph.Edge node next ∧ keep node = true ∧ keep next = true := by
  constructor
  · rintro ⟨edge, listed, rfl, rfl⟩
    obtain ⟨inGraph, kept⟩ := List.mem_filter.1 listed
    rw [Bool.and_eq_true] at kept
    exact ⟨⟨edge, inGraph, rfl, rfl⟩, kept⟩
  · rintro ⟨⟨edge, inGraph, rfl, rfl⟩, kept⟩
    exact ⟨edge, List.mem_filter.2 ⟨inGraph, Bool.and_eq_true _ _ ▸ kept⟩, rfl, rfl⟩

theorem mem_restrict {node : NodeId} : node ∈ (restrict graph keep).nodes ↔ node ∈ graph.nodes ∧ keep node = true := by
  rw [mem_iff_lookup, mem_iff_lookup]
  simp only [restrict_lookup, exists_and_right]

theorem restrict_closed (closed : graph.Closed) : (restrict graph keep).Closed := by
  intro edge listed
  obtain ⟨inGraph, kept⟩ := List.mem_filter.1 listed
  rw [Bool.and_eq_true] at kept
  obtain ⟨source, target⟩ := closed edge inGraph
  exact ⟨mem_restrict.2 ⟨source, kept.1⟩, mem_restrict.2 ⟨target, kept.2⟩⟩

theorem restrict_acyclic (acyclic : graph.Acyclic) : (restrict graph keep).Acyclic :=
  acyclic.mono fun _ _ link => (restrict_edge.1 link).1

def Kept (graph : GovernanceGraph) (directive : SupervisoryDirective) (node : NodeId) : Prop :=
  if directive.sandboxNodes = [] then graph.IsEntry node else node.asStr ∈ directive.sandboxNodes

theorem sandboxGraph_eq_ok {directive : SupervisoryDirective} {overlay : GovernanceGraph}
    (sandboxed : sandboxGraph graph directive = .ok overlay) :
    ∃ keep, overlay = restrict graph keep ∧ ∀ node, keep node = true ↔ Kept graph directive node := by
  obtain ⟨requested, parsed, made⟩ := bind_eq_ok.1 sandboxed
  obtain rfl := Except.ok.inj made
  refine ⟨_, rfl, fun node => ?_⟩
  have named := parseExistingNodeIds_eq_ok parsed
  unfold Kept
  cases raw : directive.sandboxNodes with
  | nil =>
    have empty : requested.isEmpty = true := by
      rw [raw] at parsed
      obtain rfl := Except.ok.inj parsed
      rfl
    simp only [empty, if_true, nodeSet_contains]
    exact mem_entryNodes
  | cons first rest =>
    have inhabited : requested.isEmpty = false := by
      obtain ⟨nodeIds, each, made⟩ := bind_eq_ok.1 parsed
      obtain ⟨node, atFirst⟩ : ∃ node : NodeId, node.asStr = first := by
        have pairs := mapM_eq_ok.1 each
        rw [raw] at pairs
        obtain ⟨node, others, atFirst, -, -⟩ := List.forall₂_cons_left_iff.1 pairs
        exact ⟨node, (parseExistingNodeId_eq_ok atFirst).1⟩
      have contained := (named node).2 (by rw [raw, atFirst]; exact List.mem_cons_self)
      refine Std.ExtTreeSet.isEmpty_eq_false_iff.2 fun empty => ?_
      rw [empty] at contained
      simp at contained
    rw [raw] at named
    simp only [inhabited, Bool.false_eq_true, if_false, reduceCtorEq]
    exact named node

end

section

variable {graph : GovernanceGraph} {directive : SupervisoryDirective}

theorem degradeGraph_lookup {key : NodeId} :
    (degradeGraph graph directive).nodes[key]? = (graph.nodes[key]?).map (degradeNode (degradationFactor directive)) := by
  simp only [degradeGraph, Std.ExtTreeMap.getElem?_map]

theorem mem_degradeGraph {node : NodeId} : node ∈ (degradeGraph graph directive).nodes ↔ node ∈ graph.nodes := by
  rw [mem_iff_lookup, mem_iff_lookup, degradeGraph_lookup]
  simp

theorem degradeGraph_closed (closed : graph.Closed) : (degradeGraph graph directive).Closed := by
  intro edge listed
  rw [mem_degradeGraph, mem_degradeGraph]
  exact closed edge listed

theorem degradeGraph_isEntry {node : NodeId} : (degradeGraph graph directive).IsEntry node ↔ graph.IsEntry node :=
  and_congr_left fun _ => mem_degradeGraph

end

section

variable {graph overlay : GovernanceGraph} {directive : SupervisoryDirective}

theorem nextAvailableNodeId_fresh {base : String} {node : NodeId} (found : nextAvailableNodeId graph base = .ok node) :
    node ∉ graph.nodes := by
  obtain ⟨candidates, -, chosen⟩ := bind_eq_ok.1 found
  split at chosen
  · rename_i candidate first
    obtain rfl := Except.ok.inj chosen
    have free := List.find?_some first
    intro inGraph
    rw [Std.ExtTreeMap.mem_iff_contains.1 inGraph] at free
    cases free
  · cases chosen

/-- The overlay of a reroute: one escalating entry in front of `targets` takes the place of all entries. -/
structure Rerouted (graph overlay : GovernanceGraph) (rerouteId : NodeId) (targets : List NodeId) : Prop where
  source : overlay.nodes[rerouteId]? = some (rerouteNode rerouteId)
  kept : ∀ key governanceNode, key ≠ rerouteId →
    (overlay.nodes[key]? = some governanceNode ↔ graph.nodes[key]? = some governanceNode ∧ ¬graph.IsEntry key)
  fresh : rerouteId ∈ graph.nodes → graph.IsEntry rerouteId
  edge : ∀ node next, overlay.Edge node next ↔
    (node = rerouteId ∧ next ∈ targets) ∨ (graph.Edge node next ∧ ¬graph.IsEntry node ∧ ¬graph.IsEntry next)
  inner : ∀ target ∈ targets, target ∈ graph.nodes ∧ ¬graph.IsEntry target

theorem mem_downstreamTargets {node : NodeId} :
    node ∈ (downstreamTargets graph (sorted (entryNodes graph))).toList ↔ ∃ entry, graph.IsEntry entry ∧ graph.Edge entry node := by
  rw [Std.ExtTreeSet.mem_toList, Std.ExtTreeSet.mem_iff_contains, downstreamTargets, nodeSet_contains, List.mem_map]
  constructor
  · rintro ⟨edge, listed, rfl⟩
    obtain ⟨inGraph, between⟩ := List.mem_filter.1 listed
    have between := of_decide_eq_true between
    exact ⟨edge.fromNode, mem_entryNodes.1 (mem_sorted.1 between.1), edge, inGraph, rfl, rfl⟩
  · rintro ⟨entry, isEntry, link⟩
    obtain ⟨edge, inGraph, rfl, rfl⟩ := id link
    refine ⟨edge, List.mem_filter.2 ⟨inGraph, decide_eq_true ⟨mem_sorted.2 (mem_entryNodes.2 isEntry), fun member => ?_⟩⟩, rfl⟩
    exact not_isEntry_of_edge link (mem_entryNodes.1 (mem_sorted.1 member))

/-- Only entries lead to the node, so that it becomes an entry itself when they go. -/
def OnlyBehindEntries (graph : GovernanceGraph) (node : NodeId) : Prop := ∀ previous, graph.Edge previous node → graph.IsEntry previous

/-- Every successor of an entry that others lead to as well is named, unless only entries are named. -/
def NamesSuccessors (graph : GovernanceGraph) (directive : SupervisoryDirective) : Prop :=
  (∀ raw ∈ directive.rerouteTo, ∃ entry : NodeId, entry.asStr = raw ∧ graph.IsEntry entry) ∨
    ∀ entry next : NodeId, graph.IsEntry entry → graph.Edge entry next →
      next.asStr ∈ directive.rerouteTo ∨ OnlyBehindEntries graph next

theorem rerouteTargets_inner (closed : graph.Closed) {requested : BTreeSet NodeId}
    (within : ∀ node, requested.contains node = true → node ∈ graph.nodes) {target : NodeId}
    (chosen : target ∈ rerouteTargets graph (sorted (entryNodes graph)) requested) :
    target ∈ graph.nodes ∧ ¬graph.IsEntry target := by
  unfold rerouteTargets at chosen
  have outside : ∀ {node : NodeId}, node ∉ sorted (entryNodes graph) → ¬graph.IsEntry node := fun absent entry =>
    absent (mem_sorted.2 (mem_entryNodes.2 entry))
  dsimp only at chosen
  split at chosen
  · obtain ⟨listed, notEntry⟩ := List.mem_filter.1 chosen
    refine ⟨within target (Std.ExtTreeSet.mem_iff_contains.1 (Std.ExtTreeSet.mem_toList.1 listed)), outside ?_⟩
    exact of_decide_eq_true notEntry
  · split at chosen
    · obtain ⟨entry, -, link⟩ := mem_downstreamTargets.1 chosen
      exact ⟨(closed.ends link).2, not_isEntry_of_edge link⟩
    · obtain ⟨listed, notEntry⟩ := List.mem_filter.1 chosen
      exact ⟨Std.ExtTreeMap.mem_keys.1 listed, outside (of_decide_eq_true notEntry)⟩

theorem rerouteTargets_cover {requested : BTreeSet NodeId}
    (named : ∀ node, requested.contains node = true ↔ node.asStr ∈ directive.rerouteTo) (names : NamesSuccessors graph directive)
    {entry next : NodeId} (isEntry : graph.IsEntry entry) (link : graph.Edge entry next) :
    next ∈ rerouteTargets graph (sorted (entryNodes graph)) requested ∨ OnlyBehindEntries graph next := by
  have downstream := mem_downstreamTargets.2 ⟨entry, isEntry, link⟩
  unfold rerouteTargets
  dsimp only
  split
  · rename_i chosen
    rcases names with onlyEntries | successors
    · refine absurd (List.filter_eq_nil_iff.2 fun node listed => ?_) chosen
      have contained := Std.ExtTreeSet.mem_iff_contains.1 (Std.ExtTreeSet.mem_toList.1 listed)
      obtain ⟨other, sameId, isOther⟩ := onlyEntries node.asStr ((named node).1 contained)
      obtain rfl := NodeId.ext_asStr sameId
      simpa using mem_sorted.2 (mem_entryNodes.2 isOther)
    · refine (successors entry next isEntry link).imp_left fun listed => ?_
      have contained := (named next).2 listed
      refine List.mem_filter.2 ⟨Std.ExtTreeSet.mem_toList.2 (Std.ExtTreeSet.mem_iff_contains.2 contained), decide_eq_true fun member => ?_⟩
      exact not_isEntry_of_edge link (mem_entryNodes.1 (mem_sorted.1 member))
  · rw [if_pos (List.ne_nil_of_mem downstream)]
    exact Or.inl downstream

theorem rerouteGraph_parts (closed : graph.Closed) (rerouted : rerouteGraph graph directive = .ok overlay) :
    ∃ requested, parseExistingNodeIds graph "reroute_to" directive.rerouteTo = .ok requested ∧
      (rerouteTargets graph (sorted (entryNodes graph)) requested = [] ∧ overlay = rewriteAsConstant graph .deny ∨
        ∃ rerouteId, Rerouted graph overlay rerouteId (rerouteTargets graph (sorted (entryNodes graph)) requested)) := by
  obtain ⟨requested, parsed, rerouted⟩ := bind_eq_ok.1 rerouted
  refine ⟨requested, parsed, ?_⟩
  dsimp only at rerouted
  split at rerouted
  · exact Or.inl ⟨‹_›, (Except.ok.inj rerouted).symm⟩
  · obtain ⟨rerouteId, free, made⟩ := bind_eq_ok.1 rerouted
    have fresh := nextAvailableNodeId_fresh (lift_eq_ok.1 free)
    obtain rfl := Except.ok.inj made
    have inside : ∀ {key : NodeId}, decide (key ∉ sorted (entryNodes graph)) = true ↔ ¬graph.IsEntry key := by
      intro key
      rw [decide_eq_true_iff, mem_sorted, mem_entryNodes]
    refine Or.inr ⟨rerouteId, ?_, ?_, ?_, ?_, ?_⟩
    · rw [lookup_insert, if_pos rfl]
    · intro key governanceNode different
      rw [lookup_insert, if_neg different, restrict_lookup, inside]
    · intro inGraph
      by_contra notEntry
      exact fresh (mem_restrict.2 ⟨inGraph, inside.2 notEntry⟩)
    · intro node next
      constructor
      · rintro ⟨edge, listed, rfl, rfl⟩
        rcases List.mem_append.1 listed with earlier | added
        · obtain ⟨link, source, target⟩ := restrict_edge.1 ⟨edge, earlier, rfl, rfl⟩
          exact Or.inr ⟨link, inside.1 source, inside.1 target⟩
        · obtain ⟨target, chosen, rfl⟩ := List.mem_map.1 added
          exact Or.inl ⟨rfl, chosen⟩
      · rintro (⟨rfl, chosen⟩ | ⟨link, source, target⟩)
        · exact ⟨_, List.mem_append_right _ (List.mem_map.2 ⟨next, chosen, rfl⟩), rfl, rfl⟩
        · obtain ⟨edge, listed, leaves, enters⟩ := (@restrict_edge graph (fun key => decide (key ∉ sorted (entryNodes graph))) node next).2
            ⟨link, inside.2 source, inside.2 target⟩
          exact ⟨edge, List.mem_append_left _ listed, leaves, enters⟩
    · exact fun target chosen => rerouteTargets_inner closed (fun node contained => parseExistingNodeIds_subset parsed contained) chosen

theorem rerouteGraph_eq_ok (closed : graph.Closed) (rerouted : rerouteGraph graph directive = .ok overlay) :
    overlay = rewriteAsConstant graph .deny ∨ ∃ rerouteId targets, Rerouted graph overlay rerouteId targets ∧
      (NamesSuccessors graph directive → ∀ entry next, graph.IsEntry entry → graph.Edge entry next →
        next ∈ targets ∨ OnlyBehindEntries graph next) := by
  obtain ⟨requested, parsed, ⟨-, constant⟩ | ⟨rerouteId, shape⟩⟩ := rerouteGraph_parts closed rerouted
  · exact Or.inl constant
  · exact Or.inr ⟨rerouteId, _, shape, fun names entry next isEntry link =>
      rerouteTargets_cover (parseExistingNodeIds_eq_ok parsed) names isEntry link⟩

namespace Rerouted

variable {rerouteId : NodeId} {targets : List NodeId}

section

variable (rerouted : Rerouted graph overlay rerouteId targets)

include rerouted

theorem unreached (closed : graph.Closed) {node : NodeId} :
    ¬overlay.Edge node rerouteId := by
  intro link
  rcases (rerouted.edge node rerouteId).1 link with ⟨-, chosen⟩ | ⟨original, -, notEntry⟩
  · obtain ⟨inGraph, notEntry⟩ := rerouted.inner rerouteId chosen
    exact notEntry (rerouted.fresh inGraph)
  · exact notEntry (rerouted.fresh (closed.ends original).2)

theorem ne_of_inner {node : NodeId} (inGraph : node ∈ graph.nodes) (notEntry : ¬graph.IsEntry node) : node ≠ rerouteId := by
  rintro rfl
  exact notEntry (rerouted.fresh inGraph)

theorem mem_of_inner {node : NodeId} (inGraph : node ∈ graph.nodes) (notEntry : ¬graph.IsEntry node) : node ∈ overlay.nodes := by
  obtain ⟨governanceNode, atNode⟩ := mem_iff_lookup.1 inGraph
  exact mem_iff_lookup.2 ⟨governanceNode, (rerouted.kept node governanceNode (rerouted.ne_of_inner inGraph notEntry)).2
    ⟨atNode, notEntry⟩⟩

theorem isEntry (closed : graph.Closed) : overlay.IsEntry rerouteId :=
  ⟨mem_iff_lookup.2 ⟨_, rerouted.source⟩, fun _ => rerouted.unreached closed⟩

theorem closed (isClosed : graph.Closed) : overlay.Closed := by
  intro edge listed
  rcases (rerouted.edge edge.fromNode edge.toNode).1 ⟨edge, listed, rfl, rfl⟩ with ⟨source, chosen⟩ | ⟨link, notEntry, beyond⟩
  · rw [source]
    obtain ⟨inGraph, notEntry⟩ := rerouted.inner _ chosen
    exact ⟨mem_iff_lookup.2 ⟨_, rerouted.source⟩, rerouted.mem_of_inner inGraph notEntry⟩
  · obtain ⟨source, target⟩ := isClosed.ends link
    exact ⟨rerouted.mem_of_inner source notEntry, rerouted.mem_of_inner target beyond⟩

theorem acyclic (isClosed : graph.Closed) (isAcyclic : graph.Acyclic) :
    overlay.Acyclic := by
  -- the new entry is on no cycle, since nothing leads back to it
  have original : ∀ {node next : NodeId}, Relation.TransGen overlay.Edge node next → node ≠ rerouteId →
      Relation.TransGen graph.Edge node next := by
    intro node next path elsewhere
    have step : ∀ {source target : NodeId}, overlay.Edge source target → source ≠ rerouteId → graph.Edge source target := by
      intro source target link different
      rcases (rerouted.edge source target).1 link with ⟨same, -⟩ | ⟨original, -⟩
      · exact absurd same different
      · exact original
    induction path with
    | single link => exact .single (step link elsewhere)
    | @tail middle next earlier link ih =>
      refine .tail ih (step link ?_)
      rintro rfl
      obtain ⟨before, -, into⟩ := Relation.TransGen.tail'_iff.1 earlier
      exact rerouted.unreached isClosed into
  intro node path
  refine isAcyclic node (original path ?_)
  rintro rfl
  obtain ⟨before, -, into⟩ := Relation.TransGen.tail'_iff.1 path
  exact rerouted.unreached isClosed into

end

end Rerouted

end

theorem rewriteAsConstant_closed {graph : GovernanceGraph} {decision : Decision} (closed : graph.Closed) :
    (rewriteAsConstant graph decision).Closed := by
  intro edge listed
  have same : ∀ {node : NodeId}, node ∈ (rewriteAsConstant graph decision).nodes ↔ node ∈ graph.nodes := by
    intro node
    rw [mem_iff_lookup, mem_iff_lookup]
    simp [rewriteAsConstant, Std.ExtTreeMap.getElem?_map]
  exact (closed edge listed).imp same.2 same.2

theorem applySupervisoryAction_closed {graph overlay : GovernanceGraph} {declaration : GovernanceDeclaration} {action : SupervisoryAction}
    {directive : SupervisoryDirective} (closed : graph.Closed) (declared : declaration.graph.Closed)
    (applied : applySupervisoryAction graph declaration action directive = .ok overlay) : overlay.Closed := by
  cases action with
  | pause => exact Except.ok.inj applied ▸ rewriteAsConstant_closed closed
  | deny => exact Except.ok.inj applied ▸ rewriteAsConstant_closed closed
  | stop => exact Except.ok.inj applied ▸ rewriteAsConstant_closed closed
  | sandbox =>
    obtain ⟨keep, rfl, -⟩ := sandboxGraph_eq_ok applied
    exact restrict_closed closed
  | degrade => exact Except.ok.inj applied ▸ degradeGraph_closed closed
  | rollback => exact Except.ok.inj applied ▸ declared
  | reroute =>
    rcases rerouteGraph_eq_ok closed applied with rfl | ⟨rerouteId, targets, rerouted, -⟩
    · exact rewriteAsConstant_closed closed
    · exact rerouted.closed closed

end Protocol

end Legitimacy
