import Legitimacy.FlowNetwork
import Legitimacy.Traverse

namespace Legitimacy

def GovernanceGraph.Edge (graph : GovernanceGraph) (node next : NodeId) : Prop :=
  ∃ edge ∈ graph.edges, edge.fromNode = node ∧ edge.toNode = next

def GovernanceGraph.Acyclic (graph : GovernanceGraph) : Prop := ∀ node, ¬Relation.TransGen graph.Edge node node

def GovernanceGraph.Closed (graph : GovernanceGraph) : Prop :=
  ∀ edge ∈ graph.edges, edge.fromNode ∈ graph.nodes ∧ edge.toNode ∈ graph.nodes

def GovernanceGraph.Plain (graph : GovernanceGraph) : Prop :=
  ∀ (key : NodeId) (governanceNode : GovernanceNode), graph.nodes[key]? = some governanceNode → isProportional governanceNode = false

def GovernanceGraph.LegalOrder (graph : GovernanceGraph) (order : List NodeId) : Prop :=
  FlowNetwork.LegalOrder graph.Edge (· ∈ graph.nodes) order

def GovernanceGraph.IsEntry (graph : GovernanceGraph) (node : NodeId) : Prop :=
  node ∈ graph.nodes ∧ ∀ previous, ¬graph.Edge previous node

variable {graph : GovernanceGraph}

theorem closed_of_valid {regexes : RegexEngine} (valid : validateGovernanceGraph regexes graph = .ok ()) :
    graph.Closed := fun _ member => edge_endpoints_of_valid valid member

theorem GovernanceGraph.Closed.ends (closed : graph.Closed) {node next : NodeId} (link : graph.Edge node next) :
    node ∈ graph.nodes ∧ next ∈ graph.nodes := by
  obtain ⟨edge, listed, rfl, rfl⟩ := link
  exact closed edge listed

theorem GovernanceGraph.Acyclic.wellFounded (acyclic : graph.Acyclic) : WellFounded graph.Edge := by
  refine FlowNetwork.wellFounded_of_acyclic (graph.edges.map (·.fromNode)).toFinset ?_ acyclic
  rintro node next ⟨edge, member, rfl, -⟩
  exact List.mem_toFinset.2 (List.mem_map_of_mem member)

theorem GovernanceGraph.Acyclic.reverseWellFounded (acyclic : graph.Acyclic) :
    WellFounded fun next node => graph.Edge node next := by
  refine FlowNetwork.wellFounded_of_acyclic (graph.edges.map (·.toNode)).toFinset ?_ ?_
  · rintro next node ⟨edge, member, -, rfl⟩
    exact List.mem_toFinset.2 (List.mem_map_of_mem member)
  · intro node path
    exact acyclic node (Relation.transGen_swap.1 path)

def countInto (edges : List GovernanceEdge) (node : NodeId) : Nat := edges.countP fun edge => edge.toNode = node

theorem countInto_cons (edge : GovernanceEdge) (edges : List GovernanceEdge) (node : NodeId) :
    countInto (edge :: edges) node = countInto edges node + if edge.toNode = node then 1 else 0 := by
  simp [countInto, List.countP_cons]

theorem countInto_eq_zero {edges : List GovernanceEdge} {node : NodeId} :
    countInto edges node = 0 ↔ ∀ edge ∈ edges, edge.toNode ≠ node := by
  simp [countInto, List.countP_eq_zero]

theorem fold_zero_lookup (nodes : List NodeId) (counts : BTreeMap NodeId Nat) (node : NodeId) :
    (nodes.foldl (fun counts node => counts.insert node 0) counts)[node]? = if node ∈ nodes then some 0 else counts[node]? := by
  induction nodes generalizing counts with
  | nil => simp
  | cons first rest ih =>
    rw [List.foldl_cons, ih, lookup_insert]
    by_cases later : node ∈ rest
    · simp [later]
    · by_cases same : node = first
      · simp [same]
      · simp [later, same]

theorem fold_count_lookup (edges : List GovernanceEdge) (counts : BTreeMap NodeId Nat) (node : NodeId) :
    (edges.foldl (fun counts edge => counts.insert edge.toNode ((counts[edge.toNode]?).getD 0 + 1)) counts)[node]? =
      if countInto edges node = 0 then counts[node]? else some ((counts[node]?).getD 0 + countInto edges node) := by
  induction edges generalizing counts with
  | nil => simp [countInto]
  | cons edge rest ih =>
    rw [List.foldl_cons, ih, lookup_insert, countInto_cons]
    by_cases hit : edge.toNode = node
    · subst hit
      simp only [if_true, Option.getD_some, Nat.add_eq_zero_iff, Nat.one_ne_zero, and_false, if_false]
      split
      · rename_i none
        simp [none]
      · congr 1
        omega
    · simp [hit, Ne.symm hit]

theorem incomingCounts_lookup {node : NodeId} (member : node ∈ graph.nodes) :
    (incomingCounts graph)[node]? = some (countInto graph.edges node) := by
  unfold incomingCounts
  simp only [fold_count_lookup, fold_zero_lookup]
  have listed : node ∈ graph.nodes.keys := Std.ExtTreeMap.mem_keys.2 member
  simp only [listed, if_true, Option.getD_some, Nat.zero_add]
  split
  · rename_i zero
    rw [zero]
  · rfl

theorem outgoingEdges_lookup (graph : GovernanceGraph) (node : NodeId) :
    ((outgoingEdges graph)[node]?).getD [] = graph.edges.filter fun edge => edge.fromNode = node := by
  suffices general : ∀ (edges : List GovernanceEdge) (outgoing : BTreeMap NodeId (List GovernanceEdge)),
      ((edges.foldl (fun outgoing edge => outgoing.insert edge.fromNode ((outgoing[edge.fromNode]?).getD [] ++ [edge])) outgoing)[node]?).getD [] =
        (outgoing[node]?).getD [] ++ edges.filter fun edge => edge.fromNode = node by
    simpa [outgoingEdges] using general graph.edges ∅
  intro edges
  induction edges with
  | nil => simp
  | cons edge rest ih =>
    intro outgoing
    rw [List.foldl_cons, ih, lookup_insert]
    by_cases same : node = edge.fromNode
    · subst same
      simp
    · simp [same, Ne.symm same]

theorem mem_entryNodes {node : NodeId} : node ∈ entryNodes graph ↔ graph.IsEntry node := by
  unfold entryNodes GovernanceGraph.IsEntry
  rw [List.mem_filter, Std.ExtTreeMap.mem_keys]
  refine and_congr_right fun member => ?_
  rw [incomingCounts_lookup member, Option.getD_some, decide_eq_true_iff, countInto_eq_zero]
  constructor
  · rintro none previous ⟨edge, listed, -, into⟩
    exact none edge listed into
  · intro none edge listed into
    exact none edge.fromNode ⟨edge, listed, rfl, into⟩

theorem acyclic_of_ascending (ascending : ∀ edge ∈ graph.edges, compare edge.fromNode edge.toNode = .lt) :
    graph.Acyclic := by
  have climbs : ∀ {node next : NodeId}, Relation.TransGen graph.Edge node next → compare node next = .lt := by
    intro node next path
    induction path with
    | single link =>
      obtain ⟨edge, listed, rfl, rfl⟩ := link
      exact ascending edge listed
    | tail _ link ih =>
      obtain ⟨edge, listed, rfl, rfl⟩ := link
      exact Std.TransCmp.lt_trans ih (ascending edge listed)
  intro node path
  have same : compare node node = .eq := Std.ReflCmp.compare_self
  have impossible := same.symm.trans (climbs path)
  cases impossible

theorem plain_of_toList (plain : ∀ entry ∈ graph.nodes.toList, isProportional entry.2 = false) :
    graph.Plain :=
  fun key governanceNode found => plain (key, governanceNode) (Std.ExtTreeMap.mem_toList_iff_getElem?_eq_some.2 found)

end Legitimacy
