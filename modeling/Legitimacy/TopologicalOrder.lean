import Legitimacy.GraphShape

namespace Legitimacy

open ExceptRun

theorem releaseSuccessors_spec (edges : List GovernanceEdge) (counts : BTreeMap NodeId Nat) (queue : BTreeSet NodeId)
    (counted : ∀ edge ∈ edges, ∃ count, counts[edge.toNode]? = some count ∧ countInto edges edge.toNode ≤ count) :
    ∃ after ready, releaseSuccessors edges counts queue = .ok (after, ready) ∧
      (∀ node count, counts[node]? = some count → after[node]? = some (count - countInto edges node)) ∧
      ∀ node, node ∈ ready ↔ node ∈ queue ∨ (0 < countInto edges node ∧ counts[node]? = some (countInto edges node)) := by
  induction edges generalizing counts queue with
  | nil => exact ⟨counts, queue, rfl, by simp [countInto], by simp [countInto]⟩
  | cons edge rest ih =>
    obtain ⟨count, atTarget, enough⟩ := counted edge List.mem_cons_self
    rw [countInto_cons, if_pos rfl] at enough
    obtain ⟨after, ready, run, lowered, readied⟩ := ih (counts.insert edge.toNode (count - 1))
      (if count - 1 = 0 then queue.insert edge.toNode else queue) (by
        intro other member
        obtain ⟨otherCount, atOther, otherEnough⟩ := counted other (List.mem_cons_of_mem edge member)
        rw [countInto_cons] at otherEnough
        by_cases same : other.toNode = edge.toNode
        · refine ⟨count - 1, by simp [same], ?_⟩
          rw [same]
          omega
        · exact ⟨otherCount, by simp [same, atOther], by simpa [Ne.symm same] using otherEnough⟩)
    refine ⟨after, ready, ?_, ?_, ?_⟩
    · unfold releaseSuccessors at run ⊢
      rw [List.foldlM_cons, bind_eq_ok]
      exact ⟨_, by simp only [atTarget], run⟩
    · intro node nodeCount atNode
      by_cases same : node = edge.toNode
      · subst same
        obtain rfl : count = nodeCount := Option.some.inj (atTarget.symm.trans atNode)
        rw [lowered edge.toNode (count - 1) (by simp), countInto_cons, if_pos rfl]
        congr 1
        omega
      · rw [lowered node nodeCount (by simp [same, atNode]), countInto_cons, if_neg (Ne.symm same), Nat.add_zero]
    · intro node
      rw [readied node, countInto_cons, lookup_insert]
      by_cases same : node = edge.toNode
      · subst same
        simp only [if_true, atTarget, Option.some.injEq]
        by_cases zero : count - 1 = 0
        · simp only [zero, if_true, Std.ExtTreeSet.mem_insert]
          have none : countInto rest edge.toNode = 0 := by omega
          have exact' : count = countInto rest edge.toNode + 1 := by omega
          simp [none, exact']
        · simp only [zero, if_false]
          have equivalent : (0 < countInto rest edge.toNode ∧ count - 1 = countInto rest edge.toNode) ↔
              (0 < countInto rest edge.toNode + 1 ∧ count = countInto rest edge.toNode + 1) := by omega
          rw [equivalent]
      · have outside : (node ∈ if count - 1 = 0 then queue.insert edge.toNode else queue) ↔ node ∈ queue := by
          split
          · rw [Std.ExtTreeSet.mem_insert]
            simp [Ne.symm same]
          · rfl
        rw [outside]
        simp [same, Ne.symm same]

/-- The edges into a node whose source is not ordered yet. -/
def unreleased (graph : GovernanceGraph) (order : List NodeId) (node : NodeId) : Nat :=
  countInto (graph.edges.filter fun edge => edge.fromNode ∉ order) node

theorem unreleased_nil (graph : GovernanceGraph) (node : NodeId) : unreleased graph [] node = countInto graph.edges node := by
  simp [unreleased]

variable {graph : GovernanceGraph} {order : List NodeId}

theorem unreleased_eq_zero {node : NodeId} :
    unreleased graph order node = 0 ↔ ∀ previous, graph.Edge previous node → previous ∈ order := by
  unfold unreleased
  rw [countInto_eq_zero]
  constructor
  · rintro none previous ⟨edge, member, rfl, into⟩
    by_contra outside
    exact none edge (List.mem_filter.2 ⟨member, by simpa using outside⟩) into
  · intro ordered edge member into
    obtain ⟨listed, outside⟩ := List.mem_filter.1 member
    exact of_decide_eq_true outside (ordered edge.fromNode ⟨edge, listed, rfl, into⟩)

theorem unreleased_append {last : NodeId} (fresh : last ∉ order) (node : NodeId) :
    unreleased graph order node =
      unreleased graph (order ++ [last]) node + countInto (graph.edges.filter fun edge => edge.fromNode = last) node := by
  unfold unreleased
  induction graph.edges with
  | nil => simp [countInto]
  | cons edge rest ih =>
    by_cases isLast : edge.fromNode = last
    · simp only [List.filter_cons, isLast, List.mem_append, List.mem_singleton, or_true, not_true_eq_false, not_false_eq_true,
        decide_true, decide_false, if_true, Bool.false_eq_true, if_false, countInto_cons, ih, fresh]
      omega
    · by_cases done : edge.fromNode ∈ order
      · simpa [List.filter_cons, isLast, done] using ih
      · simp only [List.filter_cons, isLast, done, List.mem_append, List.mem_singleton, or_false, not_false_eq_true, decide_true,
          decide_false, if_true, Bool.false_eq_true, if_false, countInto_cons, ih]
        omega

structure OrderInvariant (graph : GovernanceGraph) (counts : BTreeMap NodeId Nat) (queue : BTreeSet NodeId) (order : List NodeId) : Prop where
  nodup : order.Nodup
  known : ∀ node ∈ order, node ∈ graph.nodes
  counted : ∀ node ∈ graph.nodes, counts[node]? = some (unreleased graph order node)
  ready : ∀ node, node ∈ queue ↔ node ∈ graph.nodes ∧ node ∉ order ∧ unreleased graph order node = 0
  legal : ∀ done node rest, order = done ++ node :: rest → ∀ previous, graph.Edge previous node → previous ∈ done

variable {counts : BTreeMap NodeId Nat} {queue : BTreeSet NodeId}

theorem OrderInvariant.ordered_closed
    (inv : OrderInvariant graph counts queue order) {previous node : NodeId} (link : graph.Edge previous node)
    (member : node ∈ order) : previous ∈ order := by
  obtain ⟨done, rest, split⟩ := List.append_of_mem member
  rw [split]
  exact List.mem_append_left _ (inv.legal done node rest split previous link)

theorem OrderInvariant.enough (closed : graph.Closed)
    (inv : OrderInvariant graph counts queue order) {node : NodeId} (taken : node ∈ queue) :
    ∀ edge ∈ graph.edges.filter fun edge => edge.fromNode = node, ∃ count, counts[edge.toNode]? = some count ∧
      countInto (graph.edges.filter fun edge => edge.fromNode = node) edge.toNode ≤ count := by
  intro edge member
  have listed := (List.mem_filter.1 member).1
  have split := @unreleased_append graph order node ((inv.ready node).1 taken).2.1 edge.toNode
  exact ⟨_, inv.counted edge.toNode (closed edge listed).2, by rw [split]; omega⟩

theorem OrderInvariant.step (closed : graph.Closed)
    (inv : OrderInvariant graph counts queue order) {node : NodeId} (taken : node ∈ queue) :
    ∃ after ready, releaseSuccessors (graph.edges.filter fun edge => edge.fromNode = node) counts (queue.erase node) = .ok (after, ready) ∧
      OrderInvariant graph after ready (order ++ [node]) := by
  obtain ⟨inGraph, fresh, free⟩ := (inv.ready node).1 taken
  have split := @unreleased_append graph order node fresh
  obtain ⟨after, ready, run, lowered, readied⟩ := releaseSuccessors_spec (graph.edges.filter fun edge => edge.fromNode = node)
    counts (queue.erase node) (inv.enough closed taken)
  refine ⟨after, ready, run, ?_, ?_, ?_, ?_, ?_⟩
  · exact List.nodup_append.2 ⟨inv.nodup, List.nodup_singleton node, by
      rintro member inOrder _ last rfl
      exact fresh (List.mem_singleton.1 last ▸ inOrder)⟩
  · intro other member
    rcases List.mem_append.1 member with earlier | last
    · exact inv.known other earlier
    · exact List.mem_singleton.1 last ▸ inGraph
  · intro other otherIn
    rw [lowered other _ (inv.counted other otherIn), split other]
    congr 1
    omega
  · intro other
    rw [readied other, Std.ExtTreeSet.mem_erase, inv.ready other, List.mem_append, List.mem_singleton]
    have atOther := split other
    constructor
    · rintro (⟨different, otherIn, outside, none⟩ | ⟨some, all⟩)
      · have notNode : other ≠ node := fun same => different (by simp [same])
        exact ⟨otherIn, fun listed => listed.elim outside notNode, by omega⟩
      · obtain ⟨edge, member, into⟩ := List.countP_pos_iff.1 some
        obtain ⟨listed, source⟩ := List.mem_filter.1 member
        have link : graph.Edge node other := ⟨edge, listed, of_decide_eq_true source, of_decide_eq_true into⟩
        have otherIn : other ∈ graph.nodes := of_decide_eq_true into ▸ (closed edge listed).2
        have exhausted := Option.some.inj (all.symm.trans (inv.counted other otherIn))
        refine ⟨otherIn, ?_, by omega⟩
        rintro (ordered | same)
        · exact fresh (inv.ordered_closed link ordered)
        · subst same
          exact fresh (unreleased_eq_zero.1 free other link)
    · rintro ⟨otherIn, outside, none⟩
      by_cases untouched : countInto (graph.edges.filter fun edge => edge.fromNode = node) other = 0
      · exact Or.inl ⟨fun same => outside (Or.inr (Std.LawfulEqCmp.eq_of_compare same).symm), otherIn, fun listed => outside (Or.inl listed), by omega⟩
      · refine Or.inr ⟨by omega, ?_⟩
        rw [inv.counted other otherIn]
        congr 1
        omega
  · intro done other rest ordered previous link
    rcases List.eq_nil_or_concat rest with empty | ⟨front, last, whole⟩
    · subst empty
      obtain ⟨same, one⟩ := List.append_inj' ordered rfl
      obtain rfl : node = other := by simpa using one
      subst same
      exact unreleased_eq_zero.1 free previous link
    · subst whole
      have shifted : order ++ [node] = (done ++ other :: front) ++ [last] := by simpa using ordered
      exact inv.legal done other front (List.append_inj' shifted rfl).1 previous link

theorem OrderInvariant.complete (closed : graph.Closed) (acyclic : graph.Acyclic)
    (inv : OrderInvariant graph counts queue order)
    (exhausted : ∀ node, node ∉ queue) : ∀ node ∈ graph.nodes, node ∈ order := by
  intro node
  induction node using acyclic.wellFounded.induction with
  | _ node ih =>
    intro member
    by_contra outside
    refine exhausted node ((inv.ready node).2 ⟨member, outside, unreleased_eq_zero.2 ?_⟩)
    rintro previous ⟨edge, listed, rfl, into⟩
    exact ih edge.fromNode ⟨edge, listed, rfl, into⟩ (closed edge listed).1

theorem OrderInvariant.legal_of_complete
    (inv : OrderInvariant graph counts queue order) (all : ∀ node ∈ graph.nodes, node ∈ order) :
    graph.LegalOrder order := ⟨inv.nodup, fun node => ⟨inv.known node, all node⟩, inv.legal⟩

theorem topologicalLoop_ordered (closed : graph.Closed) (fuel : Nat) (counts : BTreeMap NodeId Nat)
    (queue : BTreeSet NodeId) (order : List NodeId) (inv : OrderInvariant graph counts queue order)
    (enough : graph.nodes.size ≤ order.length + fuel) :
    ∃ final after ready, topologicalLoop graph fuel counts queue order = .ok final ∧ OrderInvariant graph after ready final ∧
      ∀ node, node ∉ ready := by
  induction fuel generalizing counts queue order with
  | zero =>
    refine ⟨order, counts, queue, rfl, inv, fun node member => ?_⟩
    have perm : order.Perm graph.nodes.keys :=
      (List.subperm_of_subset inv.nodup fun node member => Std.ExtTreeMap.mem_keys.2 (inv.known node member)).perm_of_length_le
        (by rw [Std.ExtTreeMap.length_keys]; omega)
    obtain ⟨inGraph, outside, -⟩ := (inv.ready node).1 member
    exact outside (perm.mem_iff.2 (Std.ExtTreeMap.mem_keys.2 inGraph))
  | succ fuel ih =>
    unfold topologicalLoop
    cases least : queue.toList.head? with
    | none =>
      have empty : queue.toList = [] := List.head?_eq_none_iff.1 least
      refine ⟨order, counts, queue, rfl, inv, fun node member => ?_⟩
      have listed := Std.ExtTreeSet.mem_toList.2 member
      simp [empty] at listed
    | some node =>
      have taken : node ∈ queue := Std.ExtTreeSet.mem_toList.1 (List.mem_of_head? least)
      obtain ⟨after, ready, run, next⟩ := inv.step closed taken
      obtain ⟨final, last, left, rest, ordered, exhausted⟩ := ih after ready (order ++ [node]) next (by simp; omega)
      exact ⟨final, last, left, bind_eq_ok.2 ⟨(after, ready), run, rest⟩, ordered, exhausted⟩

theorem mem_fold_insert (nodes : List NodeId) (queue : BTreeSet NodeId) (node : NodeId) :
    node ∈ nodes.foldl (fun queue node => queue.insert node) queue ↔ node ∈ queue ∨ node ∈ nodes := by
  induction nodes generalizing queue with
  | nil => simp
  | cons first rest ih =>
    rw [List.foldl_cons, ih, Std.ExtTreeSet.mem_insert, List.mem_cons, Std.LawfulEqCmp.compare_eq_iff_eq]
    tauto

theorem orderInvariant_initial (graph : GovernanceGraph) :
    OrderInvariant graph (incomingCounts graph) ((entryNodes graph).foldl (fun queue node => queue.insert node) ∅) [] := by
  refine ⟨List.nodup_nil, by simp, ?_, ?_, by simp⟩
  · intro node member
    rw [incomingCounts_lookup member, unreleased_nil]
  · intro node
    rw [mem_fold_insert, mem_entryNodes, unreleased_eq_zero]
    simp [GovernanceGraph.IsEntry]

theorem length_of_legalOrder (legal : graph.LegalOrder order) :
    order.length = graph.nodes.size := by
  rw [← Std.ExtTreeMap.length_keys]
  refine List.Perm.length_eq ((List.perm_ext_iff_of_nodup legal.nodup Std.ExtTreeMap.nodup_keys).2 fun node => ?_)
  rw [legal.complete, Std.ExtTreeMap.mem_keys]

theorem topologicalOrder_legal (closed : graph.Closed) (acyclic : graph.Acyclic) :
    ∃ order, topologicalOrder graph (incomingCounts graph) = .ok order ∧ graph.LegalOrder order := by
  obtain ⟨order, counts, ready, run, inv, exhausted⟩ :=
    topologicalLoop_ordered closed (graph.nodes.size + graph.edges.length) _ _ [] (orderInvariant_initial graph) (by simp)
  have legal := inv.legal_of_complete (inv.complete closed acyclic exhausted)
  refine ⟨order, ?_, legal⟩
  unfold topologicalOrder
  exact bind_eq_ok.2 ⟨order, run, by simp [length_of_legalOrder legal]⟩

theorem legal_of_topologicalOrder_complete (closed : graph.Closed)
    (run : topologicalOrder graph (incomingCounts graph) = .ok order) (complete : ∀ node ∈ graph.nodes, node ∈ order) :
    graph.LegalOrder order := by
  obtain ⟨looped, counts, ready, loop, inv, -⟩ :=
    topologicalLoop_ordered closed (graph.nodes.size + graph.edges.length) _ _ [] (orderInvariant_initial graph) (by simp)
  obtain ⟨found, foundRun, returned⟩ := bind_eq_ok.1 run
  obtain rfl : looped = found := Except.ok.inj (loop.symm.trans foundRun)
  have same : looped = order := by
    split at returned
    · obtain ⟨cycles, -, picked⟩ := bind_eq_ok.1 returned
      cases cycles with
      | nil => exact Except.ok.inj picked
      | cons cycle rest => cases picked
    · exact Except.ok.inj returned
  subst same
  exact inv.legal_of_complete complete

end Legitimacy
