import Legitimacy.CohortIndependence

namespace Legitimacy

open ExceptRun

/-- Every node that decides both claims ranks the second at least as high. -/
def NodewiseMonotone (regexes : RegexEngine) (graph : GovernanceGraph) (before after : GovernanceClaim) : Prop :=
  ∀ (key : NodeId) (node : GovernanceNode) (first second : Decision), graph.nodes[key]? = some node →
    claimDecision regexes node [before] before = .ok first → claimDecision regexes node [after] after = .ok second → decisionRank first ≤ decisionRank second

theorem NodewiseMonotone.refl (regexes : RegexEngine) (graph : GovernanceGraph) (claim : GovernanceClaim) :
    NodewiseMonotone regexes graph claim claim := by
  intro key node first second _ atFirst atSecond
  obtain rfl := Except.ok.inj (atFirst.symm.trans atSecond)
  exact Nat.le_refl _

theorem nodewiseMonotone_of_toList {regexes : RegexEngine} {graph : GovernanceGraph} {before after : GovernanceClaim}
    (ranked : ∀ entry ∈ graph.nodes.toList, (claimDecision regexes entry.2 [before] before).toOption.all fun first =>
      (claimDecision regexes entry.2 [after] after).toOption.all fun second => decisionRank first ≤ decisionRank second) :
    NodewiseMonotone regexes graph before after := by
  intro key node first second found atFirst atSecond
  have checked := ranked (key, node) (Std.ExtTreeMap.mem_toList_iff_getElem?_eq_some.2 found)
  simpa [atFirst, atSecond, Except.toOption] using checked

section

variable {regexes : RegexEngine} {graph : GovernanceGraph} {before after claim : GovernanceClaim}
  {flow other : NodeId → Set GovernanceClaim}

theorem feedOf_alone {arrived : Set GovernanceClaim} (within : arrived ⊆ {other | other ∈ [claim]}) (arrives : claim ∈ arrived) :
    FeedOf [claim] arrived := by
  refine ⟨List.nodup_singleton _, fun other => ⟨fun same => ?_, fun member => within member⟩⟩
  rw [List.mem_singleton.1 same]
  exact arrives

theorem claimDecision_of_decides {node : NodeId} {arrived : Set GovernanceClaim} {decision : Decision}
    (within : arrived ⊆ {other | other ∈ [claim]}) (decides : Decides regexes graph node arrived claim decision) :
    ∃ governanceNode, graph.nodes[node]? = some governanceNode ∧ claimDecision regexes governanceNode [claim] claim = .ok decision := by
  obtain ⟨governanceNode, cohort, atNode, feed, member, -⟩ := id decides
  have arrives := (feed.mem_iff claim).1 member
  exact ⟨governanceNode, atNode, ((decides_iff atNode (feedOf_alone within arrives)).1 decides).2⟩

theorem rank_decides_le (monotone : NodewiseMonotone regexes graph before after) {node : NodeId} {first second : Decision}
    (within : flow node ⊆ {claim | claim ∈ [before]}) (otherWithin : other node ⊆ {claim | claim ∈ [after]})
    (decides : Decides regexes graph node (flow node) before first) (redecides : Decides regexes graph node (other node) after second) :
    decisionRank first ≤ decisionRank second := by
  obtain ⟨governanceNode, atNode, made⟩ := claimDecision_of_decides within decides
  obtain ⟨sameNode, again, remade⟩ := claimDecision_of_decides otherWithin redecides
  obtain rfl : governanceNode = sameNode := Option.some.inj (atNode.symm.trans again)
  exact monotone node governanceNode first second atNode made remade

theorem reached_before (acyclic : graph.Acyclic) (monotone : NodewiseMonotone regexes graph before after)
    (isFlow : (claimNetwork regexes graph [before]).IsFlow flow) (isOther : (claimNetwork regexes graph [after]).IsFlow other)
    (evaluable : Evaluable regexes graph flow) (undenied : ∀ node, ¬Decides regexes graph node (flow node) before .deny) (node : NodeId)
    (arrives : after ∈ other node) : before ∈ flow node := by
  have within := claimNetwork_within acyclic isFlow
  have otherWithin := claimNetwork_within acyclic isOther
  induction node using acyclic.wellFounded.induction with
  | _ node ih =>
    rw [isOther node] at arrives
    rw [isFlow node]
    rcases arrives with ⟨isEntry, _⟩ | ⟨previous, _, link, arrived, escalates⟩
    · exact Or.inl ⟨isEntry, List.mem_singleton_self before⟩
    · have earlier := ih previous link arrived
      obtain ⟨governanceNode, -, atNode, -⟩ := id escalates
      obtain ⟨decision, decides⟩ := evaluable previous (mem_iff_lookup.2 ⟨governanceNode, atNode⟩) before earlier
      have ranked := rank_decides_le monotone (within previous) (otherWithin previous) decides escalates
      refine Or.inr ⟨previous, trivial, link, earlier, ?_⟩
      cases decision with
      | escalate => exact decides
      | deny => exact absurd decides (undenied previous)
      | permit => exact absurd ranked (by decide)

/-- The final decision on a claim that comes alone does not fall when every node ranks the improved claim at least as high. -/
theorem alone_monotone (closed : graph.Closed) (acyclic : graph.Acyclic) (plain : graph.Plain)
    (monotone : NodewiseMonotone regexes graph before after) {decisions others : BTreeMap ClaimantId Decision}
    (run : traverseFinalDecisions regexes graph [before] = .ok decisions)
    (rerun : traverseFinalDecisions regexes graph [after] = .ok others) {first second : Decision}
    (atFirst : decisions[before.claimantId]? = some first) (atSecond : others[after.claimantId]? = some second) :
    decisionRank first ≤ decisionRank second := by
  obtain ⟨-, -, flow, isFlow, evaluable, records⟩ := determined_of_traversal closed acyclic plain run
  obtain ⟨-, -, other, isOther, -, otherRecords⟩ := determined_of_traversal closed acyclic plain rerun
  have within := claimNetwork_within acyclic isFlow
  have otherWithin := claimNetwork_within acyclic isOther
  have least := (records before.claimantId first).1 atFirst
  have inGraph : ∀ {node : NodeId} {arrived : Set GovernanceClaim} {claim : GovernanceClaim} {decision : Decision},
      Decides regexes graph node arrived claim decision → node ∈ graph.nodes := by
    intro node arrived claim decision decides
    obtain ⟨governanceNode, -, atNode, -⟩ := decides
    exact mem_iff_lookup.2 ⟨governanceNode, atNode⟩
  have settles : ∀ {node : NodeId} {decision : Decision}, Decides regexes graph node (flow node) before decision →
      ¬(decision = .escalate ∧ ∃ next, graph.Edge node next) → decisionRank first ≤ decisionRank decision := by
    intro node decision decides counts
    exact least.2 decision ⟨node, inGraph decides, before, rfl, decides, counts⟩
  by_cases denied : first = .deny
  · rw [denied]
    exact Nat.zero_le _
  have undenied : ∀ node, ¬Decides regexes graph node (flow node) before .deny := by
    intro node decides
    have lowest := settles decides (fun both => nomatch both.1)
    exact denied (decisionRank_injective (Nat.le_zero.1 lowest))
  obtain ⟨node, -, claim, -, redecides, counts⟩ := ((otherRecords after.claimantId second).1 atSecond).1
  obtain ⟨-, cohort, -, feed, member, -⟩ := id redecides
  have arrives := (feed.mem_iff claim).1 member
  obtain rfl : claim = after := List.mem_singleton.1 (otherWithin node arrives)
  have earlier := reached_before acyclic monotone isFlow isOther evaluable undenied node arrives
  obtain ⟨decision, decides⟩ := evaluable node (inGraph redecides) before earlier
  have ranked := rank_decides_le monotone (within node) (otherWithin node) decides redecides
  by_cases travels : decision = .escalate ∧ ∃ next, graph.Edge node next
  -- the claim went on from here, so the improved one was permitted here
  · obtain ⟨rfl, onward⟩ := travels
    cases second with
    | permit => cases first <;> decide
    | escalate => exact absurd ⟨rfl, onward⟩ counts
    | deny => exact absurd ranked (by decide)
  · exact Nat.le_trans (settles decides travels) ranked

end

section

variable {regexes : RegexEngine} {graph : GovernanceGraph} {claims improved : List GovernanceClaim}

def Improves (regexes : RegexEngine) (graph : GovernanceGraph) (claims improved : List GovernanceClaim) : Prop :=
  List.Forall₂ (fun claim other => other.claimantId = claim.claimantId ∧ NodewiseMonotone regexes graph claim other) claims improved

theorem Improves.counterpart (improves : Improves regexes graph claims improved) {claim : GovernanceClaim} (listed : claim ∈ claims) :
    ∃ other ∈ improved, other.claimantId = claim.claimantId ∧ NodewiseMonotone regexes graph claim other := by
  obtain ⟨index, bound, rfl⟩ := List.getElem_of_mem listed
  have inside : index < improved.length := by
    rw [← improves.length_eq]
    exact bound
  exact ⟨_, List.get_mem improved ⟨index, inside⟩, (List.forall₂_iff_get.1 improves).2 index bound inside⟩

theorem finalDecisions_monotone (closed : graph.Closed) (acyclic : graph.Acyclic) (plain : graph.Plain) (free : graph.PeerFree)
    (improves : Improves regexes graph claims improved) {decisions others : BTreeMap ClaimantId Decision}
    (run : traverseFinalDecisions regexes graph claims = .ok decisions)
    (rerun : traverseFinalDecisions regexes graph improved = .ok others) {claim : GovernanceClaim} (listed : claim ∈ claims) :
    ∃ first second, decisions[claim.claimantId]? = some first ∧ others[claim.claimantId]? = some second ∧
      decisionRank first ≤ decisionRank second := by
  obtain ⟨other, counterpart, sameId, monotone⟩ := improves.counterpart listed
  obtain ⟨first, atFirst⟩ := exists_decision_of_listed closed acyclic plain run listed
  obtain ⟨second, atSecond⟩ := exists_decision_of_listed closed acyclic plain rerun counterpart
  obtain ⟨alone, aloneRun, agrees⟩ := traverseFinalDecisions_part closed acyclic plain free run
    (fun _ same => List.mem_singleton.1 same ▸ listed) (List.nodup_singleton _)
  obtain ⟨otherAlone, otherRun, otherAgrees⟩ := traverseFinalDecisions_part closed acyclic plain free rerun
    (fun _ same => List.mem_singleton.1 same ▸ counterpart) (List.nodup_singleton _)
  refine ⟨first, second, atFirst, sameId ▸ atSecond, ?_⟩
  exact alone_monotone closed acyclic plain monotone aloneRun otherRun ((agrees claim List.mem_cons_self).trans atFirst)
    ((otherAgrees other List.mem_cons_self).trans atSecond)

end

namespace Diagnostics

def checkGraphMonotonicity (regexes : RegexEngine) (graph : GovernanceGraph) (claims : List GovernanceClaim) (deltas : List BinaryDelta) :
    Except LegitimacyError Verdict :=
  monotonicityCheckViaPolaritySchema regexes graph claims deltas auditMetricPolaritySchema

def improvementDelta (schema : List (String × AuditMetricPolarity)) (delta : BinaryDelta) : Option Float :=
  if ¬delta.delta.isFinite ∨ delta.delta ≤ 0 then none
  else match polarityFor schema delta.field with
    | some .higherBetter => some delta.delta
    | some .lowerBetter => some (-delta.delta)
    | _ => none

def MonotoneAlong (regexes : RegexEngine) (graph : GovernanceGraph) (claims : List GovernanceClaim)
    (schema : List (String × AuditMetricPolarity)) (deltas : List BinaryDelta) : Prop :=
  ∀ delta ∈ deltas, ∀ amount, improvementDelta schema delta = some amount → ∀ claim ∈ claims, ∀ improved,
    applyFieldDelta claim delta.field amount = .ok improved → NodewiseMonotone regexes graph claim improved

theorem applyFieldDelta_claimantId {claim improved : GovernanceClaim} {field : String} {delta : Float}
    (applied : applyFieldDelta claim field delta = .ok improved) : improved.claimantId = claim.claimantId := by
  unfold applyFieldDelta at applied
  by_cases strength : field = "strength"
  · rw [if_pos strength] at applied
    obtain rfl := Except.ok.inj (guard_eq_ok.1 applied).2
    rfl
  · rw [if_neg strength] at applied
    obtain rfl := Except.ok.inj (guard_eq_ok.1 applied).2
    rfl

theorem firstChange_some {before after : BTreeMap ClaimantId Decision} {beforeContext afterContext : String}
    {changed : Decision → Decision → Bool} {ids : List ClaimantId} {claimant : ClaimantId} {first second : Decision}
    (run : firstChange before after beforeContext afterContext changed ids = .ok (some (claimant, first, second))) :
    claimant ∈ ids ∧ before[claimant]? = some first ∧ after[claimant]? = some second ∧ changed first second = true := by
  induction ids with
  | nil => cases run
  | cons id rest ih =>
    unfold firstChange at run
    obtain ⟨left, atLeft, afterLeft⟩ := bind_eq_ok.1 run
    obtain ⟨right, atRight, compared⟩ := bind_eq_ok.1 afterLeft
    by_cases moved : changed left right = true
    · rw [if_pos moved] at compared
      cases compared
      exact ⟨List.mem_cons_self, decisionOf_eq_ok atLeft, decisionOf_eq_ok atRight, moved⟩
    · rw [if_neg moved] at compared
      obtain ⟨listed, both⟩ := ih compared
      exact ⟨List.mem_cons_of_mem id listed, both⟩

theorem mem_claimantIds {claims : List GovernanceClaim} {claimant : ClaimantId} :
    claimant ∈ claimantIds claims ↔ ∃ claim ∈ claims, claim.claimantId = claimant := by
  unfold claimantIds
  rw [Std.ExtTreeSet.mem_toList, ← Std.ExtTreeSet.contains_iff_mem, contains_foldl_insert]
  simp

section

variable {regexes : RegexEngine} {graph : GovernanceGraph} {claims : List GovernanceClaim}

theorem improves_of_strengthened {field : String} {amount : Float} {index : Nat} {strengthened : List GovernanceClaim}
    (monotone : ∀ claim ∈ claims, ∀ improved, applyFieldDelta claim field amount = .ok improved →
      NodewiseMonotone regexes graph claim improved)
    (made : (claims.zipIdx.mapM fun (claim, claimIndex) => if claimIndex = index then applyFieldDelta claim field amount else .ok claim) =
      (.ok strengthened : Except LegitimacyError (List GovernanceClaim))) : Improves regexes graph claims strengthened := by
  have pairs := mapM_eq_ok.1 made
  refine List.forall₂_iff_get.2 ⟨by simpa using pairs.length_eq, fun position bound inside => ?_⟩
  have here := (List.forall₂_iff_get.1 pairs).2 position (by simpa using bound) inside
  simp only [List.get_eq_getElem, List.getElem_zipIdx] at here ⊢
  by_cases chosen : 0 + position = index
  · rw [if_pos chosen] at here
    exact ⟨applyFieldDelta_claimantId here, monotone _ (List.getElem_mem bound) _ here⟩
  · rw [if_neg chosen] at here
    rw [← Except.ok.inj here]
    exact ⟨rfl, NodewiseMonotone.refl regexes graph _⟩

theorem strengtheningLoop_none (closed : graph.Closed) (acyclic : graph.Acyclic) (plain : graph.Plain) (free : graph.PeerFree)
    {original : Baseline} (run : traverseFinalDecisions regexes graph claims = .ok original.decisions) {delta : BinaryDelta} {amount : Float}
    (monotone : ∀ claim ∈ claims, ∀ improved, applyFieldDelta claim delta.field amount = .ok improved →
      NodewiseMonotone regexes graph claim improved)
    {indexed : List (GovernanceClaim × Nat)} {outcome : Option Counterexample}
    (checked : strengtheningLoop regexes graph claims original delta amount indexed = .ok outcome) : outcome = none := by
  induction indexed with
  | nil => exact (Except.ok.inj checked).symm
  | cons entry rest ih =>
    unfold strengtheningLoop at checked
    obtain ⟨strengthened, made, afterClaims⟩ := bind_eq_ok.1 checked
    obtain ⟨decisions, traversed, afterRun⟩ := bind_eq_ok.1 afterClaims
    obtain ⟨allocation, -, afterAllocation⟩ := bind_eq_ok.1 afterRun
    obtain ⟨change, compared, afterChange⟩ := bind_eq_ok.1 afterAllocation
    cases change with
    | none => exact ih afterChange
    | some worsened =>
      obtain ⟨listed, atFirst, atSecond, fell⟩ := firstChange_some compared
      obtain ⟨claim, inBatch, sameId⟩ := mem_claimantIds.1 listed
      obtain ⟨first, second, wasFirst, isSecond, ranked⟩ := finalDecisions_monotone closed acyclic plain free
        (improves_of_strengthened monotone made) run traversed inBatch
      rw [sameId, atFirst] at wasFirst
      rw [sameId, atSecond] at isSecond
      rw [← Option.some.inj wasFirst, ← Option.some.inj isSecond] at ranked
      have fell := of_decide_eq_true fell
      unfold decisionDirection at fell
      split_ifs at fell with below
      · omega
      · omega
      · omega

theorem monotonicityLoop_admissible (closed : graph.Closed) (acyclic : graph.Acyclic) (plain : graph.Plain) (free : graph.PeerFree)
    {schema : List (String × AuditMetricPolarity)} {original : Baseline}
    (run : traverseFinalDecisions regexes graph claims = .ok original.decisions) {deltas : List BinaryDelta}
    (monotone : MonotoneAlong regexes graph claims schema deltas) {perturbationsTested : Nat} {verdict : Verdict}
    (checked : monotonicityLoop regexes graph claims schema original deltas perturbationsTested = .ok verdict) :
    ∃ tested, verdict = .admissible "graph monotonicity" tested := by
  induction deltas generalizing perturbationsTested with
  | nil => exact ⟨perturbationsTested, (Except.ok.inj checked).symm⟩
  | cons delta rest ih =>
    have later := @ih fun other listed => monotone other (List.mem_cons_of_mem delta listed)
    unfold monotonicityLoop at checked
    split at checked
    · exact later checked
    · rename_i usable
      have strengthens : ∀ amount (judge : Option Counterexample → Except LegitimacyError Verdict),
          improvementDelta schema delta = some amount →
          (strengtheningLoop regexes graph claims original delta amount claims.zipIdx >>= judge) = .ok verdict →
          judge none = monotonicityLoop regexes graph claims schema original rest (perturbationsTested + claims.length) →
          ∃ tested, verdict = .admissible "graph monotonicity" tested := by
        intro amount judge tests strengthened continues
        obtain ⟨outcome, looped, continued⟩ := bind_eq_ok.1 strengthened
        obtain rfl := strengtheningLoop_none closed acyclic plain free run (monotone delta List.mem_cons_self amount tests) looped
        exact later (continues.symm.trans continued)
      cases polarity : polarityFor schema delta.field with
      | none =>
        rw [polarity] at checked
        cases checked
      | some kind =>
        rw [polarity] at checked
        cases kind with
        | higherBetter => exact strengthens delta.delta _ (by rw [improvementDelta, if_neg usable, polarity]) checked rfl
        | lowerBetter => exact strengthens (-delta.delta) _ (by rw [improvementDelta, if_neg usable, polarity]) checked rfl
        | diagnosticPresence => exact later checked

end

end Diagnostics

def exchange (claims : List GovernanceClaim) (improved : GovernanceClaim) : List GovernanceClaim :=
  claims.map fun claim => if claim.claimantId = improved.claimantId then improved else claim

theorem improves_exchange {regexes : RegexEngine} {graph : GovernanceGraph} {claims : List GovernanceClaim} (batch : ValidBatch claims)
    {original improved : GovernanceClaim} (listed : original ∈ claims) (sameId : improved.claimantId = original.claimantId)
    (monotone : NodewiseMonotone regexes graph original improved) : Improves regexes graph claims (exchange claims improved) := by
  unfold Improves exchange
  rw [List.forall₂_map_right_iff, List.forall₂_same]
  intro claim member
  by_cases same : claim.claimantId = improved.claimantId
  · rw [if_pos same]
    obtain rfl := batch.eq_of_id member listed (same.trans sameId)
    exact ⟨sameId, monotone⟩
  · rw [if_neg same]
    exact ⟨rfl, NodewiseMonotone.refl regexes graph claim⟩

/-- Where no node ranks an improved claim lower, no claimant ends lower, and the monotonicity check rejects nothing. -/
theorem composed_graph_monotone (regexes : RegexEngine) (graph : GovernanceGraph) (claims : List GovernanceClaim)
    (valid : validateGovernanceGraph regexes graph = .ok ()) (acyclic : graph.Acyclic) (plain : graph.Plain) (free : graph.PeerFree) :
    (∀ original ∈ claims, ∀ improved, improved.claimantId = original.claimantId → NodewiseMonotone regexes graph original improved →
      ∀ before after, traverse regexes graph claims = .ok before → traverse regexes graph (exchange claims improved) = .ok after →
        ∀ claim ∈ claims, ∃ first second, before.finalDecisions[claim.claimantId]? = some first ∧
          after.finalDecisions[claim.claimantId]? = some second ∧ decisionRank first ≤ decisionRank second) ∧
    ∀ deltas, Diagnostics.MonotoneAlong regexes graph claims Diagnostics.auditMetricPolaritySchema deltas →
      ∀ verdict, Diagnostics.checkGraphMonotonicity regexes graph claims deltas = .ok verdict →
        ∃ tested, verdict = .admissible "graph monotonicity" tested := by
  have closed := closed_of_valid valid
  constructor
  · intro original listed improved sameId monotone before after run rerun claim member
    obtain ⟨batch, -⟩ := determined_of_traversal closed acyclic plain (traverse_final run)
    exact finalDecisions_monotone closed acyclic plain free (improves_exchange batch listed sameId monotone) (traverse_final run)
      (traverse_final rerun) member
  · intro deltas monotone verdict checked
    obtain ⟨original, based, looped⟩ := bind_eq_ok.1 checked
    have run : traverseFinalDecisions regexes graph claims = .ok original.decisions := by
      obtain ⟨decisions, traversed, afterRun⟩ := bind_eq_ok.1 based
      obtain ⟨allocation, -, afterAllocation⟩ := bind_eq_ok.1 afterRun
      obtain ⟨converted, -, afterClaims⟩ := bind_eq_ok.1 afterAllocation
      obtain ⟨estate, -, made⟩ := bind_eq_ok.1 afterClaims
      rw [← Except.ok.inj made]
      exact traversed
    exact Diagnostics.monotonicityLoop_admissible closed acyclic plain free run monotone looped

theorem composed_graph_monotone_review :
    ∃ before after first second, traverse .error reviewGraph [plainClaim "a" 0.25, plainClaim "b" 1] = .ok before ∧
      traverse .error reviewGraph (exchange [plainClaim "a" 0.25, plainClaim "b" 1] (plainClaim "a" 0.5)) = .ok after ∧
      before.finalDecisions["a"]? = some first ∧ after.finalDecisions["a"]? = some second ∧ decisionRank first ≤ decisionRank second := by
  obtain ⟨before, run⟩ := exists_of_toBool
    (show (traverse .error reviewGraph [plainClaim "a" 0.25, plainClaim "b" 1]).toBool = true by decide +kernel)
  obtain ⟨after, rerun⟩ := exists_of_toBool
    (show (traverse .error reviewGraph (exchange [plainClaim "a" 0.25, plainClaim "b" 1] (plainClaim "a" 0.5))).toBool = true by
      decide +kernel)
  obtain ⟨first, second, found⟩ := (composed_graph_monotone .error reviewGraph [plainClaim "a" 0.25, plainClaim "b" 1]
    (by decide +kernel) (acyclic_of_ascending (by decide)) (plain_of_toList (by decide +kernel))
    (peerFree_of_toList (by decide +kernel))).1 (plainClaim "a" 0.25) List.mem_cons_self (plainClaim "a" 0.5) (by simp only [plainClaim])
    (nodewiseMonotone_of_toList (by decide +kernel)) before after run rerun (plainClaim "a" 0.25) List.mem_cons_self
  exact ⟨before, after, first, second, run, rerun, found⟩

end Legitimacy
