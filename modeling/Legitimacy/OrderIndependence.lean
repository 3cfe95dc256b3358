import Legitimacy.OrderProbe
import Legitimacy.TraversalOutcome

namespace Legitimacy

open ExceptRun

/-- The positions recorded for the numbered nodes met so far. -/
structure Positions (graph : GovernanceGraph) (numbered : List (NodeId × Nat)) (positions : BTreeMap NodeId Nat) : Prop where
  distinct : (numbered.map (·.1)).Nodup
  known : ∀ entry ∈ numbered, entry.1 ∈ graph.nodes
  lookup : ∀ node index, positions[node]? = some index ↔ (node, index) ∈ numbered

theorem Positions.mem_iff {graph : GovernanceGraph} {numbered : List (NodeId × Nat)} {positions : BTreeMap NodeId Nat}
    (recorded : Positions graph numbered positions) {node : NodeId} : node ∈ positions ↔ node ∈ numbered.map (·.1) := by
  rw [mem_iff_lookup, List.mem_map]
  constructor
  · rintro ⟨index, found⟩
    exact ⟨(node, index), (recorded.lookup node index).1 found, rfl⟩
  · rintro ⟨⟨_, index⟩, member, rfl⟩
    exact ⟨index, (recorded.lookup _ index).2 member⟩

theorem Positions.record {graph : GovernanceGraph} {numbered : List (NodeId × Nat)} {positions : BTreeMap NodeId Nat}
    (recorded : Positions graph numbered positions) (entry : NodeId × Nat) (known : entry.1 ∈ graph.nodes)
    (fresh : entry.1 ∉ numbered.map (·.1)) :
    recordPosition graph positions entry = .ok (positions.insert entry.1 entry.2) ∧
      Positions graph (numbered ++ [entry]) (positions.insert entry.1 entry.2) := by
  have unseen : entry.1 ∉ positions := fun member => fresh (recorded.mem_iff.1 member)
  refine ⟨by simp [recordPosition, known, unseen], ?_, ?_, ?_⟩
  · rw [List.map_append, List.nodup_append]
    refine ⟨recorded.distinct, List.nodup_singleton _, ?_⟩
    rintro node member _ last rfl
    obtain rfl : node = entry.1 := by simpa using last
    exact fresh member
  · intro other member
    rcases List.mem_append.1 member with earlier | last
    · exact recorded.known other earlier
    · obtain rfl : other = entry := by simpa using last
      exact known
  · intro node index
    rw [lookup_insert, List.mem_append, List.mem_singleton, ← recorded.lookup node index]
    by_cases same : node = entry.1
    · have absent : positions[node]? = none := by
        rw [same]
        exact Std.ExtTreeMap.getElem?_eq_none unseen
      rw [if_pos same, absent]
      constructor
      · intro equal
        exact Or.inr (Prod.ext same (Option.some.inj equal).symm)
      · rintro (impossible | equal)
        · cases impossible
        · rw [← equal]
    · rw [if_neg same]
      constructor
      · exact Or.inl
      · rintro (earlier | equal)
        · exact earlier
        · exact absurd (congrArg Prod.fst equal) same

theorem mem_zipIdx {order : List NodeId} {node : NodeId} {index : Nat} : (node, index) ∈ order.zipIdx ↔ order[index]? = some node := by
  rw [List.mem_zipIdx_iff_getElem?]

theorem positions_of_fold {graph : GovernanceGraph} {order : List NodeId} {positions : BTreeMap NodeId Nat}
    (run : order.zipIdx.foldlM (recordPosition graph) ∅ = .ok positions) : Positions graph order.zipIdx positions := by
  refine foldlM_invariant (Positions graph) ⟨by simp, by simp, by simp⟩ ?_ run
  intro done entry rest positions next split recorded stepped
  have guarded := stepped
  unfold recordPosition at guarded
  rw [guard_eq_ok, guard_eq_ok] at guarded
  obtain ⟨known, unseen, made⟩ := guarded
  have inGraph : entry.1 ∈ graph.nodes := by simpa using known
  have fresh : entry.1 ∉ done.map (·.1) := fun member => unseen (Std.ExtTreeMap.contains_iff_mem.2 (recorded.mem_iff.2 member))
  obtain ⟨again, extended⟩ := recorded.record entry inGraph fresh
  rw [stepped] at again
  exact Except.ok.inj again ▸ extended

theorem fold_positions {graph : GovernanceGraph} {order : List NodeId} (nodup : order.Nodup) (known : ∀ node ∈ order, node ∈ graph.nodes) :
    ∃ positions, order.zipIdx.foldlM (recordPosition graph) ∅ = .ok positions ∧ Positions graph order.zipIdx positions := by
  refine foldlM_progress (Positions graph) ⟨by simp, by simp, by simp⟩ ?_
  intro done entry rest positions split recorded
  have listed : order = done.map (·.1) ++ entry.1 :: rest.map (·.1) := by
    rw [← List.zipIdx_map_fst 0 order, split]
    simp
  have inGraph : entry.1 ∈ graph.nodes := known entry.1 (by simp [listed])
  have fresh : entry.1 ∉ done.map (·.1) := by
    rw [listed, List.nodup_append] at nodup
    exact fun member => nodup.2.2 entry.1 member entry.1 List.mem_cons_self rfl
  obtain ⟨stepped, extended⟩ := recorded.record entry inGraph fresh
  exact ⟨_, stepped, extended⟩

theorem checkEdgeOrder_eq_ok {order : List NodeId} {positions : BTreeMap NodeId Nat} {edge : GovernanceEdge} :
    checkEdgeOrder order positions edge = .ok () ↔
      ∃ source target, positions[edge.fromNode]? = some source ∧ positions[edge.toNode]? = some target ∧ source < target := by
  unfold checkEdgeOrder
  cases atSource : positions[edge.fromNode]? with
  | none => simp
  | some source =>
    cases atTarget : positions[edge.toNode]? with
    | none => simp
    | some target =>
      dsimp only
      rw [guard_eq_ok]
      simp

/-- The validated orders are the legal ones. -/
theorem validateTopologicalOrder_eq_ok {graph : GovernanceGraph} (closed : graph.Closed) {order : List NodeId} :
    validateTopologicalOrder graph order = .ok () ↔ graph.LegalOrder order := by
  unfold validateTopologicalOrder
  rw [guard_eq_ok, bind_eq_ok]
  constructor
  · rintro ⟨full, positions, run, edges⟩
    have recorded := positions_of_fold run
    have nodup : order.Nodup := by simpa using recorded.distinct
    have known : ∀ node ∈ order, node ∈ graph.nodes := by
      intro node member
      obtain ⟨index, bound, atIndex⟩ := List.getElem_of_mem member
      exact recorded.known (node, index) (mem_zipIdx.2 (by rw [List.getElem?_eq_getElem bound, atIndex]))
    have perm : order.Perm graph.nodes.keys :=
      (List.subperm_of_subset nodup fun node member => Std.ExtTreeMap.mem_keys.2 (known node member)).perm_of_length_le
        (by rw [Std.ExtTreeMap.length_keys]; omega)
    refine ⟨nodup, fun node => ?_, ?_⟩
    · rw [perm.mem_iff, Std.ExtTreeMap.mem_keys]
    · rintro done node rest split previous ⟨edge, listed, rfl, rfl⟩
      obtain ⟨source, target, atSource, atTarget, before⟩ := checkEdgeOrder_eq_ok.1 (forM_eq_ok.1 edges edge listed)
      have sourceIn := mem_zipIdx.1 ((recorded.lookup _ _).1 atSource)
      have targetIn := mem_zipIdx.1 ((recorded.lookup _ _).1 atTarget)
      have place : target = done.length := by
        obtain ⟨bound, atIndex⟩ := List.getElem?_eq_some_iff.1 targetIn
        have here : order[done.length]? = some edge.toNode := by simp [split]
        obtain ⟨inside, atDone⟩ := List.getElem?_eq_some_iff.1 here
        exact (nodup.getElem_inj_iff).1 (atIndex.trans atDone.symm)
      rw [split, List.getElem?_append_left (by omega)] at sourceIn
      exact List.mem_of_getElem? sourceIn
  · intro legal
    have perm : order.Perm graph.nodes.keys := (List.perm_ext_iff_of_nodup legal.nodup Std.ExtTreeMap.nodup_keys).2 fun node => by
      rw [legal.complete, Std.ExtTreeMap.mem_keys]
    obtain ⟨positions, run, recorded⟩ := fold_positions legal.nodup fun node member => (legal.complete node).1 member
    refine ⟨by rw [perm.length_eq, Std.ExtTreeMap.length_keys]; simp, positions, run, forM_eq_ok.2 fun edge listed => ?_⟩
    have ends := closed edge listed
    obtain ⟨done, rest, split⟩ := List.append_of_mem ((legal.complete edge.toNode).2 ends.2)
    have before := legal.forwards done edge.toNode rest split edge.fromNode ⟨edge, listed, rfl, rfl⟩
    obtain ⟨source, bound, atSource⟩ := List.getElem_of_mem before
    refine checkEdgeOrder_eq_ok.2 ⟨source, done.length, (recorded.lookup _ _).2 (mem_zipIdx.2 ?_),
      (recorded.lookup _ _).2 (mem_zipIdx.2 ?_), bound⟩
    · rw [split, List.getElem?_append_left bound, List.getElem?_eq_getElem bound, atSource]
    · simp [split]

section

variable {regexes : RegexEngine} {graph : GovernanceGraph} {claims : List GovernanceClaim}

theorem probe_parts (regexes : RegexEngine) (batch : ValidBatch claims) :
    LoopParts regexes claims (evaluateNode regexes) mergeClaimBatches := by
  refine ⟨fun node cohort subset distinct => ?_, mergeClaimBatches_unites batch⟩
  have validated : validateGovernanceClaims cohort = .ok () :=
    validateGovernanceClaims_eq_ok.2 ⟨fun claim member => batch.valid claim (subset member), distinct⟩
  unfold evaluateNode
  rw [validated]
  rfl

theorem evaluateAlong_eq {flow : NodeId → Set GovernanceClaim} (acyclic : graph.Acyclic) (plain : graph.Plain) (batch : ValidBatch claims)
    (isFlow : (claimNetwork regexes graph claims).IsFlow flow) (evaluable : Evaluable regexes graph flow)
    {decisions : BTreeMap ClaimantId Decision} (determined : Records decisions (decidedOn regexes graph flow (· ∈ graph.nodes)))
    {order : List NodeId} (legal : graph.LegalOrder order) : evaluateAlong regexes graph claims order = .ok decisions := by
  obtain ⟨final, run, inv⟩ := run_complete (probe_parts regexes batch) legal plain isFlow (claimNetwork_within acyclic isFlow) batch
    false evaluable
  have same : final.finalDecisions = decisions := (final_of_invariant legal inv).unique determined
  unfold evaluateAlong
  exact bind_eq_ok.2 ⟨final, run, congrArg Except.ok same⟩

theorem determined_of_traversal (closed : graph.Closed) (acyclic : graph.Acyclic) (plain : graph.Plain)
    {decisions : BTreeMap ClaimantId Decision} (run : traverseFinalDecisions regexes graph claims = .ok decisions) :
    ValidBatch claims ∧ graph.nodes.isEmpty = false ∧ ∃ flow, (claimNetwork regexes graph claims).IsFlow flow ∧
      Evaluable regexes graph flow ∧ Records decisions (decidedOn regexes graph flow (· ∈ graph.nodes)) := by
  obtain ⟨entries, final, traversed, rfl⟩ := traverseFinalDecisions_eq_ok.1 run
  obtain ⟨validated, nonempty, order, legal, looped⟩ := traverseClaims_run closed acyclic traversed
  have batch := validBatch_of_validated validated
  obtain ⟨flow, isFlow⟩ := exists_claimFlow regexes claims acyclic
  have inv := run_sound (traversal_parts regexes batch) legal plain isFlow (claimNetwork_within acyclic isFlow) batch false looped
  exact ⟨batch, nonempty, flow, isFlow, evaluable_of_invariant legal inv, final_of_invariant legal inv⟩

theorem traverseFinalDecisions_of_evaluable (closed : graph.Closed) (acyclic : graph.Acyclic) (plain : graph.Plain)
    (nonempty : graph.nodes.isEmpty = false) (batch : ValidBatch claims) {flow : NodeId → Set GovernanceClaim}
    (isFlow : (claimNetwork regexes graph claims).IsFlow flow) (evaluable : Evaluable regexes graph flow) :
    ∃ decisions, traverseFinalDecisions regexes graph claims = .ok decisions ∧
      Records decisions (decidedOn regexes graph flow (· ∈ graph.nodes)) := by
  have validated : validateGovernanceClaims claims = .ok () := validateGovernanceClaims_eq_ok.2 ⟨batch.valid, batch.distinct⟩
  have within := claimNetwork_within acyclic isFlow
  obtain ⟨entries, final, order, legal, looped, traversed⟩ := @traverseClaims_of_run regexes graph claims closed acyclic nonempty validated
    false (fun order legal => by
      obtain ⟨final, run, -⟩ := run_complete (traversal_parts regexes batch) legal plain isFlow within batch false evaluable
      exact ⟨final, run⟩)
  have inv := run_sound (traversal_parts regexes batch) legal plain isFlow within batch false looped
  exact ⟨final.finalDecisions, traverseFinalDecisions_eq_ok.2 ⟨entries, final, traversed, rfl⟩, final_of_invariant legal inv⟩

theorem traverseFinalDecisions_of_determined (closed : graph.Closed) (acyclic : graph.Acyclic) (plain : graph.Plain)
    (nonempty : graph.nodes.isEmpty = false) (batch : ValidBatch claims) {flow : NodeId → Set GovernanceClaim}
    (isFlow : (claimNetwork regexes graph claims).IsFlow flow) (evaluable : Evaluable regexes graph flow)
    {decisions : BTreeMap ClaimantId Decision} (determined : Records decisions (decidedOn regexes graph flow (· ∈ graph.nodes))) :
    traverseFinalDecisions regexes graph claims = .ok decisions := by
  obtain ⟨made, run, records⟩ := traverseFinalDecisions_of_evaluable closed acyclic plain nonempty batch isFlow evaluable
  exact run.trans (congrArg Except.ok (records.unique determined))

theorem observable_evaluateWithOrder_eq (closed : graph.Closed) (acyclic : graph.Acyclic) (plain : graph.Plain)
    {decisions : BTreeMap ClaimantId Decision} (run : traverseFinalDecisions regexes graph claims = .ok decisions)
    {order : List NodeId} (legal : graph.LegalOrder order) :
    Observable.evaluateWithOrder regexes graph claims order = .ok decisions := by
  obtain ⟨batch, nonempty, flow, isFlow, evaluable, determined⟩ := determined_of_traversal closed acyclic plain run
  obtain ⟨entry, isEntry⟩ := exists_entry closed acyclic nonempty
  unfold Observable.evaluateWithOrder
  refine bind_eq_ok.2 ⟨(), (validateTopologicalOrder_eq_ok closed).2 legal, guard_eq_ok.2 ⟨?_, ?_⟩⟩
  · rintro (empty | none)
    · rw [nonempty] at empty
      cases empty
    · have listed := mem_entryNodes.2 isEntry
      rw [none] at listed
      cases listed
  · exact evaluateAlong_eq acyclic plain batch isFlow evaluable determined legal

theorem paradox_evaluateWithOrder_eq (closed : graph.Closed) (acyclic : graph.Acyclic) (plain : graph.Plain)
    {decisions : BTreeMap ClaimantId Decision} (run : traverseFinalDecisions regexes graph claims = .ok decisions)
    {order : List NodeId} (legal : graph.LegalOrder order) :
    Paradox.evaluateWithOrder regexes graph claims order = .ok decisions := by
  obtain ⟨batch, nonempty, flow, isFlow, evaluable, determined⟩ := determined_of_traversal closed acyclic plain run
  unfold Paradox.evaluateWithOrder
  exact bind_eq_ok.2 ⟨(), (validateTopologicalOrder_eq_ok closed).2 legal,
    evaluateAlong_eq acyclic plain batch isFlow evaluable determined legal⟩

theorem traverseFinalDecisions_perm (closed : graph.Closed) (acyclic : graph.Acyclic) (plain : graph.Plain)
    {decisions : BTreeMap ClaimantId Decision} (run : traverseFinalDecisions regexes graph claims = .ok decisions)
    {edges : List GovernanceEdge} {listed : List GovernanceClaim} (edgesPerm : edges.Perm graph.edges) (claimsPerm : listed.Perm claims) :
    traverseFinalDecisions regexes { graph with edges := edges } listed = .ok decisions := by
  obtain ⟨batch, nonempty, flow, isFlow, evaluable, determined⟩ := determined_of_traversal closed acyclic plain run
  have sameEdge : GovernanceGraph.Edge { graph with edges := edges } = graph.Edge := by
    funext node next
    simp only [GovernanceGraph.Edge, edgesPerm.mem_iff]
  have sameEntry : GovernanceGraph.IsEntry { graph with edges := edges } = graph.IsEntry := by
    funext node
    simp only [GovernanceGraph.IsEntry, sameEdge]
  have sameNetwork : claimNetwork regexes { graph with edges := edges } listed = claimNetwork regexes graph claims := by
    simp only [claimNetwork, sameEdge, sameEntry, claimsPerm.mem_iff]
    rfl
  have sameBatch : ValidBatch listed :=
    ⟨fun claim member => batch.valid claim (claimsPerm.mem_iff.1 member), (claimsPerm.map _).nodup_iff.2 batch.distinct⟩
  have sameDecided : Records decisions (decidedOn regexes { graph with edges := edges } flow (· ∈ graph.nodes)) := by
    refine determined.congr fun claimant decision => ?_
    simp only [decidedOn, sameEdge]
    rfl
  exact @traverseFinalDecisions_of_determined regexes { graph with edges := edges } listed
    (fun edge member => closed edge (edgesPerm.mem_iff.1 member)) (by simpa only [GovernanceGraph.Acyclic, sameEdge] using acyclic)
    plain nonempty sameBatch flow (sameNetwork ▸ isFlow) evaluable decisions sameDecided

theorem firstDifference_self (decisions : BTreeMap ClaimantId Decision) (claims : List GovernanceClaim) :
    firstDifference decisions decisions claims = none := by
  simp [firstDifference]

theorem compareOrders_not_fail (closed : graph.Closed) {canonicalOrder : List NodeId} {decisions : BTreeMap ClaimantId Decision}
    (same : ∀ order, graph.LegalOrder order → Observable.evaluateWithOrder regexes graph claims order = .ok decisions)
    (orders : List (List NodeId)) (tested : Nat) {verdict : AxiomVerdict}
    (run : Observable.compareOrders regexes graph claims canonicalOrder decisions orders tested = .ok verdict) :
    verdict.isFail = false := by
  induction orders generalizing tested with
  | nil =>
    obtain rfl := Except.ok.inj run
    rfl
  | cons order rest ih =>
    unfold Observable.compareOrders at run
    split at run
    · exact ih tested run
    · obtain ⟨candidate, evaluated, compared⟩ := bind_eq_ok.1 run
      have checked := evaluated
      unfold Observable.evaluateWithOrder at checked
      obtain ⟨⟨⟩, validated, -⟩ := bind_eq_ok.1 checked
      have legal := (validateTopologicalOrder_eq_ok closed).1 validated
      obtain rfl : decisions = candidate := Except.ok.inj ((same order legal).symm.trans evaluated)
      rw [firstDifference_self] at compared
      exact ih (tested + 1) compared

theorem checkGraphObservableDeterminacy_not_fail (closed : graph.Closed) {decisions : BTreeMap ClaimantId Decision}
    (same : ∀ order, graph.LegalOrder order → Observable.evaluateWithOrder regexes graph claims order = .ok decisions)
    {verdict : AxiomVerdict} (run : Observable.checkGraphObservableDeterminacy regexes graph claims = .ok verdict) :
    verdict.isFail = false := by
  unfold Observable.checkGraphObservableDeterminacy at run
  obtain ⟨cycles, -, afterCycles⟩ := bind_eq_ok.1 run
  split at afterCycles
  · obtain rfl := Except.ok.inj afterCycles
    rfl
  split at afterCycles
  · obtain rfl := Except.ok.inj afterCycles
    rfl
  obtain ⟨canonicalOrder, ordered, afterOrder⟩ := bind_eq_ok.1 afterCycles
  obtain ⟨canonical, evaluated, afterCanonical⟩ := bind_eq_ok.1 afterOrder
  unfold Observable.topologicalOrder at ordered
  obtain ⟨order, -, validating⟩ := bind_eq_ok.1 ordered
  obtain ⟨⟨⟩, validated, sameOrder⟩ := bind_eq_ok.1 validating
  obtain rfl : order = canonicalOrder := Except.ok.inj sameOrder
  have legal := (validateTopologicalOrder_eq_ok closed).1 validated
  obtain rfl : decisions = canonical := Except.ok.inj ((same order legal).symm.trans evaluated)
  split at afterCanonical
  · obtain rfl := Except.ok.inj afterCanonical
    rfl
  obtain ⟨orderCount, -, afterCount⟩ := bind_eq_ok.1 afterCanonical
  split at afterCount
  · obtain rfl := Except.ok.inj afterCount
    rfl
  obtain ⟨orders, -, compared⟩ := bind_eq_ok.1 afterCount
  exact compareOrders_not_fail closed same orders 1 compared

theorem pathDependence_none (closed : graph.Closed) {decisions : BTreeMap ClaimantId Decision}
    (same : ∀ order, graph.LegalOrder order → Paradox.evaluateWithOrder regexes graph claims order = .ok decisions)
    {outcome : Option GraphParadoxViolation} (run : Paradox.pathDependence regexes graph claims = .ok outcome) : outcome = none := by
  have fixed : ∀ {order : List NodeId} {evaluated : BTreeMap ClaimantId Decision},
      Paradox.evaluateWithOrder regexes graph claims order = .ok evaluated → evaluated = decisions := by
    intro order evaluated run
    have checked := run
    unfold Paradox.evaluateWithOrder at checked
    obtain ⟨⟨⟩, validated, -⟩ := bind_eq_ok.1 checked
    exact Except.ok.inj (run.symm.trans (same order ((validateTopologicalOrder_eq_ok closed).1 validated)))
  unfold Paradox.pathDependence at run
  obtain ⟨cycles, -, afterCycles⟩ := bind_eq_ok.1 run
  split at afterCycles
  · exact (Except.ok.inj afterCycles).symm
  obtain ⟨ascending, -, afterAscending⟩ := bind_eq_ok.1 afterCycles
  obtain ⟨descending, -, afterDescending⟩ := bind_eq_ok.1 afterAscending
  split at afterDescending
  · exact (Except.ok.inj afterDescending).symm
  obtain ⟨left, onLeft, afterLeft⟩ := bind_eq_ok.1 afterDescending
  obtain ⟨right, onRight, compared⟩ := bind_eq_ok.1 afterLeft
  rw [fixed onLeft, fixed onRight, firstDifference_self] at compared
  exact (Except.ok.inj compared).symm

end

/-- Every legal order, every implementation of the loop and every listing of edges and claims gives the decisions of the traversal,
so neither order probe reports anything. -/
theorem evaluation_order_independent (regexes : RegexEngine) (graph : GovernanceGraph) (claims : List GovernanceClaim)
    (decisions : BTreeMap ClaimantId Decision) (valid : validateGovernanceGraph regexes graph = .ok ()) (acyclic : graph.Acyclic)
    (plain : graph.Plain) (run : traverseFinalDecisions regexes graph claims = .ok decisions) :
    (∀ order, graph.LegalOrder order → Observable.evaluateWithOrder regexes graph claims order = .ok decisions ∧
      Paradox.evaluateWithOrder regexes graph claims order = .ok decisions) ∧
    (∀ edges listed, edges.Perm graph.edges → listed.Perm claims →
      traverseFinalDecisions regexes { graph with edges := edges } listed = .ok decisions) ∧
    (∀ verdict, Observable.checkGraphObservableDeterminacy regexes graph claims = .ok verdict → verdict.isFail = false) ∧
    ∀ outcome, Paradox.pathDependence regexes graph claims = .ok outcome → outcome = none := by
  have closed := closed_of_valid valid
  have observable := fun order (legal : graph.LegalOrder order) => observable_evaluateWithOrder_eq closed acyclic plain run legal
  have paradox := fun order (legal : graph.LegalOrder order) => paradox_evaluateWithOrder_eq closed acyclic plain run legal
  exact ⟨fun order legal => ⟨observable order legal, paradox order legal⟩,
    fun edges listed edgesPerm claimsPerm => traverseFinalDecisions_perm closed acyclic plain run edgesPerm claimsPerm,
    fun verdict checked => checkGraphObservableDeterminacy_not_fail closed observable checked,
    fun outcome probed => pathDependence_none closed paradox probed⟩

def forkGraph : GovernanceGraph where
  nodes := Std.ExtTreeMap.ofList [
    (⟨"entry", entry_named⟩, .binary ⟨"entry", entry_named⟩ "entry" [.peerRelative "strength" 0.75 .deny] .escalate .firstMatch),
    (⟨"left", left_named⟩, .binary ⟨"left", left_named⟩ "left" [] .permit .firstMatch),
    (⟨"right", right_named⟩, .threshold ⟨"right", right_named⟩ "right" 0.5 "strength")] compare
  edges := [⟨⟨"entry", entry_named⟩, ⟨"left", left_named⟩, .passThrough⟩,
    ⟨⟨"entry", entry_named⟩, ⟨"right", right_named⟩, .claimModification 0.25⟩]

def plainClaim (claimantId : ClaimantId) (strength : Float) : GovernanceClaim :=
  ⟨claimantId, strength, none, none, none, none, ∅⟩

theorem evaluation_order_independent_fork :
    Observable.evaluateWithOrder .error forkGraph [plainClaim "a" 0.25, plainClaim "b" 0.5, plainClaim "c" 1]
      [⟨"entry", by decide⟩, ⟨"right", by decide⟩, ⟨"left", by decide⟩] =
      .ok (Std.ExtTreeMap.ofList [("a", .deny), ("b", .permit), ("c", .deny)] compare) :=
  ((evaluation_order_independent .error forkGraph [plainClaim "a" 0.25, plainClaim "b" 0.5, plainClaim "c" 1] _ (by decide +kernel)
    (acyclic_of_ascending (by decide)) (plain_of_toList (by decide +kernel)) (by decide +kernel)).1 _
    ((validateTopologicalOrder_eq_ok (@closed_of_valid forkGraph .error (by decide +kernel))).1 (by decide +kernel))).1

end Legitimacy
