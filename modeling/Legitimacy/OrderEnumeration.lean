import Legitimacy.OrderIndependence

namespace Legitimacy

open ExceptRun

section

variable {graph : GovernanceGraph} {counts : BTreeMap NodeId Nat} {ready : BTreeSet NodeId} {order : List NodeId}

theorem OrderInvariant.legal_of_length (inv : OrderInvariant graph counts ready order) (full : graph.nodes.size ≤ order.length) :
    graph.LegalOrder order := by
  refine inv.legal_of_complete fun node member => ?_
  have perm : order.Perm graph.nodes.keys :=
    (List.subperm_of_subset inv.nodup fun other listed => Std.ExtTreeMap.mem_keys.2 (inv.known other listed)).perm_of_length_le
      (by rw [Std.ExtTreeMap.length_keys]; omega)
  exact perm.mem_iff.2 (Std.ExtTreeMap.mem_keys.2 member)

theorem OrderInvariant.exists_ready (closed : graph.Closed) (acyclic : graph.Acyclic) (inv : OrderInvariant graph counts ready order)
    (short : order.length < graph.nodes.size) : ∃ node, node ∈ ready := by
  by_contra none
  have exhausted : ∀ node, node ∉ ready := fun node taken => none ⟨node, taken⟩
  have length := length_of_legalOrder (inv.legal_of_complete (inv.complete closed acyclic exhausted))
  omega

theorem OrderInvariant.ready_inhabited (closed : graph.Closed) (acyclic : graph.Acyclic) (inv : OrderInvariant graph counts ready order)
    (short : order.length < graph.nodes.size) : ¬ready.isEmpty = true := by
  obtain ⟨node, taken⟩ := inv.exists_ready closed acyclic short
  intro empty
  rw [Std.ExtTreeSet.isEmpty_iff] at empty
  rw [empty] at taken
  exact Std.ExtTreeSet.not_mem_empty taken

namespace Observable

theorem countBranches_ok {limit : Nat} {branch : NodeId → Except LegitimacyError Nat} {nodes : List NodeId}
    (each : ∀ node ∈ nodes, ∃ found, branch node = .ok found) (total : Nat) : ∃ sum, countBranches limit branch nodes total = .ok sum := by
  induction nodes generalizing total with
  | nil => exact ⟨total, rfl⟩
  | cons node rest ih =>
    obtain ⟨found, run⟩ := each node List.mem_cons_self
    obtain ⟨sum, remaining⟩ := ih (fun other listed => each other (List.mem_cons_of_mem node listed)) (total + found)
    unfold countBranches
    by_cases above : total + found > limit
    · exact ⟨total + found, bind_eq_ok.2 ⟨found, run, if_pos above⟩⟩
    · exact ⟨sum, bind_eq_ok.2 ⟨found, run, (if_neg above).trans remaining⟩⟩

theorem countOrders_ok (closed : graph.Closed) (acyclic : graph.Acyclic) (limit remaining : Nat) {counts : BTreeMap NodeId Nat}
    {ready : BTreeSet NodeId} {order : List NodeId} (inv : OrderInvariant graph counts ready order)
    (size : order.length + remaining = graph.nodes.size) : ∃ count, countOrders graph limit remaining counts ready = .ok count := by
  induction remaining generalizing counts ready order with
  | zero => exact ⟨1, rfl⟩
  | succ remaining ih =>
    unfold countOrders
    rw [if_neg (inv.ready_inhabited closed acyclic (by omega))]
    refine countBranches_ok (fun node listed => ?_) 0
    obtain ⟨after, released, run, next⟩ := inv.step closed (Std.ExtTreeSet.mem_toList.1 listed)
    obtain ⟨count, counted⟩ := ih next (by rw [List.length_append, List.length_singleton]; omega)
    exact ⟨count, bind_eq_ok.2 ⟨(after, released), run, counted⟩⟩

theorem enumerateOrders_ok (closed : graph.Closed) (acyclic : graph.Acyclic) (remaining : Nat) {counts : BTreeMap NodeId Nat}
    {ready : BTreeSet NodeId} {order : List NodeId} (inv : OrderInvariant graph counts ready order)
    (size : order.length + remaining = graph.nodes.size) {orders : List (List NodeId)} (legal : ∀ other ∈ orders, graph.LegalOrder other) :
    ∃ listed, enumerateOrders graph remaining counts ready order orders = .ok listed ∧ ∀ other ∈ listed, graph.LegalOrder other := by
  induction remaining generalizing counts ready order orders with
  | zero =>
    refine ⟨orders ++ [order], rfl, List.forall_mem_append.2 ⟨legal, List.forall_mem_singleton.2 ?_⟩⟩
    exact inv.legal_of_length (by omega)
  | succ remaining ih =>
    unfold enumerateOrders
    rw [if_neg (inv.ready_inhabited closed acyclic (by omega))]
    refine foldlM_progress (fun _ found => ∀ other ∈ found, graph.LegalOrder other) legal ?_
    intro done node rest found split already
    have taken : node ∈ ready := Std.ExtTreeSet.mem_toList.1 (split ▸ List.mem_append_right done List.mem_cons_self)
    obtain ⟨after, released, run, next⟩ := inv.step closed taken
    obtain ⟨listed, enumerated, all⟩ := ih next (by rw [List.length_append, List.length_singleton]; omega) already
    exact ⟨listed, bind_eq_ok.2 ⟨(after, released), run, enumerated⟩, all⟩

theorem countTopologicalOrdersUpTo_ok (closed : graph.Closed) (acyclic : graph.Acyclic) (limit : Nat) :
    ∃ count, countTopologicalOrdersUpTo graph limit = .ok count :=
  countOrders_ok closed acyclic limit graph.nodes.size (orderInvariant_initial graph) (by simp)

theorem allTopologicalOrders_ok (closed : graph.Closed) (acyclic : graph.Acyclic) :
    ∃ orders, allTopologicalOrders graph = .ok orders ∧ ∀ order ∈ orders, graph.LegalOrder order :=
  enumerateOrders_ok closed acyclic graph.nodes.size (orderInvariant_initial graph) (by simp) (by simp)

end Observable

end

section

variable {graph : GovernanceGraph} {counts after : BTreeMap NodeId Nat} {queue released : BTreeSet NodeId} {order ready : List NodeId}

theorem releaseReady_ok {edges : List GovernanceEdge} (distinct : ready.Nodup) (same : ∀ node, node ∈ ready ↔ node ∈ queue)
    (zeros : ∀ node ∈ ready, counts[node]? = some 0)
    (counted : ∀ edge ∈ edges, ∃ count, counts[edge.toNode]? = some count ∧ countInto edges edge.toNode ≤ count)
    (run : releaseSuccessors edges counts queue = .ok (after, released)) :
    ∃ next, releaseReady edges counts ready = .ok (after, next) ∧ next.Nodup ∧ ∀ node, node ∈ next ↔ node ∈ released := by
  induction edges generalizing counts queue ready with
  | nil =>
    obtain ⟨rfl, rfl⟩ := Prod.mk.inj (Except.ok.inj run)
    exact ⟨ready, rfl, distinct, same⟩
  | cons edge rest ih =>
    obtain ⟨count, atTarget, enough⟩ := counted edge List.mem_cons_self
    rw [countInto_cons, if_pos rfl] at enough
    have fresh : edge.toNode ∉ ready := fun listed => by
      have none := Option.some.inj ((zeros _ listed).symm.trans atTarget)
      omega
    have nodup : (if count - 1 = 0 then ready ++ [edge.toNode] else ready).Nodup := by
      split_ifs
      · refine List.nodup_append.2 ⟨distinct, List.nodup_singleton _, ?_⟩
        rintro node listed _ last rfl
        exact fresh (List.mem_singleton.1 last ▸ listed)
      · exact distinct
    have members : ∀ node, node ∈ (if count - 1 = 0 then ready ++ [edge.toNode] else ready) ↔
        node ∈ if count - 1 = 0 then queue.insert edge.toNode else queue := by
      intro node
      split_ifs
      · rw [List.mem_append, List.mem_singleton, Std.ExtTreeSet.mem_insert, Std.LawfulEqCmp.compare_eq_iff_eq, same, or_comm, eq_comm]
      · exact same node
    have zero : ∀ node ∈ (if count - 1 = 0 then ready ++ [edge.toNode] else ready),
        (counts.insert edge.toNode (count - 1))[node]? = some 0 := by
      intro node listed
      rw [lookup_insert]
      split_ifs at listed with none
      · rcases List.mem_append.1 listed with earlier | last
        · have apart : node ≠ edge.toNode := by
            rintro rfl
            exact fresh earlier
          rw [if_neg apart]
          exact zeros node earlier
        · rw [if_pos (List.mem_singleton.1 last), none]
      · have apart : node ≠ edge.toNode := by
          rintro rfl
          exact fresh listed
        rw [if_neg apart]
        exact zeros node listed
    have lowered : ∀ other ∈ rest, ∃ left, (counts.insert edge.toNode (count - 1))[other.toNode]? = some left ∧
        countInto rest other.toNode ≤ left := by
      intro other member
      obtain ⟨otherCount, atOther, otherEnough⟩ := counted other (List.mem_cons_of_mem edge member)
      rw [countInto_cons] at otherEnough
      rw [lookup_insert]
      by_cases equal : other.toNode = edge.toNode
      · refine ⟨count - 1, if_pos equal, ?_⟩
        rw [equal]
        omega
      · exact ⟨otherCount, (if_neg equal).trans atOther, by omega⟩
    unfold releaseSuccessors at run
    rw [List.foldlM_cons, bind_eq_ok] at run
    obtain ⟨middle, stepped, remaining⟩ := run
    simp only [atTarget, Except.ok.injEq] at stepped
    subst stepped
    obtain ⟨next, following, distinctNext, sameNext⟩ := ih nodup members zero lowered remaining
    refine ⟨next, ?_, distinctNext, sameNext⟩
    unfold releaseReady at following ⊢
    rw [List.foldlM_cons, bind_eq_ok]
    exact ⟨_, by simp only [atTarget], following⟩

theorem TieBreak.take_perm {tiebreak : TieBreak} {node : NodeId} {rest : List NodeId} (taken : tiebreak.take ready = some (node, rest)) :
    (node :: rest).Perm ready := by
  cases tiebreak with
  | ascending =>
    simp only [TieBreak.take] at taken
    cases split : sorted ready with
    | nil => simp [split] at taken
    | cons first others =>
      rw [split] at taken
      obtain ⟨rfl, rfl⟩ := Prod.mk.inj (Option.some.inj taken)
      exact split ▸ sorted_perm ready
  | descending =>
    simp only [TieBreak.take] at taken
    cases split : (sorted ready).reverse with
    | nil => simp [split] at taken
    | cons last others =>
      rw [split] at taken
      obtain ⟨rfl, rfl⟩ := Prod.mk.inj (Option.some.inj taken)
      have backwards : (last :: others).Perm (sorted ready) := split ▸ (sorted ready).reverse_perm
      exact ((List.reverse_perm others).cons last).trans (backwards.trans (sorted_perm ready))

theorem TieBreak.take_none {tiebreak : TieBreak} (none : tiebreak.take ready = none) : ready = [] := by
  have empty : sorted ready = [] := by
    cases tiebreak with
    | ascending =>
      simp only [TieBreak.take] at none
      cases split : sorted ready with
      | nil => rfl
      | cons first others => simp [split] at none
    | descending =>
      simp only [TieBreak.take] at none
      cases split : (sorted ready).reverse with
      | nil => exact List.reverse_eq_nil_iff.1 split
      | cons last others => simp [split] at none
  exact List.nil_perm.1 (empty ▸ sorted_perm ready)

theorem readyLoop_ok (closed : graph.Closed) (acyclic : graph.Acyclic) (tiebreak : TieBreak) (fuel : Nat) {counts : BTreeMap NodeId Nat}
    {queue : BTreeSet NodeId} {order ready : List NodeId} (inv : OrderInvariant graph counts queue order) (distinct : ready.Nodup)
    (same : ∀ node, node ∈ ready ↔ node ∈ queue) (enough : graph.nodes.size ≤ order.length + fuel) :
    ∃ final, readyLoop graph tiebreak fuel counts ready order = .ok final ∧ graph.LegalOrder final := by
  induction fuel generalizing counts queue order ready with
  | zero => exact ⟨order, rfl, inv.legal_of_length (by omega)⟩
  | succ fuel ih =>
    unfold readyLoop
    cases taken : tiebreak.take ready with
    | none =>
      have empty := TieBreak.take_none taken
      refine ⟨order, rfl, inv.legal_of_complete (inv.complete closed acyclic fun node member => ?_)⟩
      have listed := (same node).2 member
      rw [empty] at listed
      cases listed
    | some entry =>
      obtain ⟨node, rest⟩ := entry
      have perm := TieBreak.take_perm taken
      obtain ⟨outside, distinctRest⟩ := List.nodup_cons.1 (perm.nodup_iff.2 distinct)
      have member : node ∈ queue := (same node).1 (perm.mem_iff.1 List.mem_cons_self)
      obtain ⟨after, released, run, next⟩ := inv.step closed member
      have remaining : ∀ other, other ∈ rest ↔ other ∈ queue.erase node := by
        intro other
        rw [Std.ExtTreeSet.mem_erase, ← same, ← perm.mem_iff, List.mem_cons, Ne, Std.LawfulEqCmp.compare_eq_iff_eq]
        constructor
        · exact fun listed => ⟨fun equal => outside (equal ▸ listed), Or.inr listed⟩
        · exact fun ⟨apart, either⟩ => either.resolve_left fun equal => apart equal.symm
      have zeros : ∀ other ∈ rest, counts[other]? = some 0 := by
        intro other listed
        obtain ⟨inGraph, -, none⟩ := (inv.ready other).1 ((same other).1 (perm.mem_iff.1 (List.mem_cons_of_mem node listed)))
        rw [inv.counted other inGraph, none]
      obtain ⟨following, releasedReady, distinctNext, sameNext⟩ := releaseReady_ok distinctRest remaining zeros
        (inv.enough closed member) run
      obtain ⟨final, finished, legal⟩ := ih next distinctNext sameNext (by rw [List.length_append, List.length_singleton]; omega)
      exact ⟨final, bind_eq_ok.2 ⟨(after, following), releasedReady, finished⟩, legal⟩

theorem readyOrder_legal (closed : graph.Closed) (acyclic : graph.Acyclic) (tiebreak : TieBreak) :
    ∃ order, readyOrder graph tiebreak = .ok order ∧ graph.LegalOrder order := by
  have distinct : (entryNodes graph).Nodup := Std.ExtTreeMap.nodup_keys.filter _
  have same : ∀ node, node ∈ entryNodes graph ↔ node ∈ (entryNodes graph).foldl (fun queue node => queue.insert node) (∅ : BTreeSet NodeId) := by
    intro node
    rw [mem_fold_insert]
    simp
  exact readyLoop_ok closed acyclic tiebreak _ (orderInvariant_initial graph) distinct same (by simp)

theorem Observable.topologicalOrder_legal (closed : graph.Closed) (acyclic : graph.Acyclic) :
    ∃ order, Observable.topologicalOrder graph = .ok order ∧ graph.LegalOrder order := by
  obtain ⟨order, run, legal⟩ := readyOrder_legal closed acyclic .ascending
  exact ⟨order, bind_eq_ok.2 ⟨order, run, bind_eq_ok.2 ⟨⟨⟩, (validateTopologicalOrder_eq_ok closed).2 legal, rfl⟩⟩, legal⟩

theorem Paradox.topologicalOrder_legal (closed : graph.Closed) (acyclic : graph.Acyclic) (tiebreak : TieBreak) :
    ∃ order, Paradox.topologicalOrderWithTiebreak graph tiebreak = .ok order ∧ graph.LegalOrder order := by
  obtain ⟨order, run, legal⟩ := readyOrder_legal closed acyclic tiebreak
  refine ⟨order, bind_eq_ok.2 ⟨order, run, ?_⟩, legal⟩
  rw [if_neg (not_not.2 (length_of_legalOrder legal))]

end

end Legitimacy
