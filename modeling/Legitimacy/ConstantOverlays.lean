import Legitimacy.CheckAvailability

namespace Legitimacy

open ExceptRun

/-- Every node decides the same on whatever reaches it: no gates, and this default. -/
def GovernanceGraph.Constant (graph : GovernanceGraph) (decision : Decision) : Prop :=
  ∀ (key : NodeId) (governanceNode : GovernanceNode), graph.nodes[key]? = some governanceNode →
    ∃ id name, governanceNode = .binary id name [] decision .firstMatch

section

variable {regexes : RegexEngine} {graph : GovernanceGraph} {decision : Decision} {claims : List GovernanceClaim}

theorem GovernanceGraph.Constant.plain (constant : graph.Constant decision) : graph.Plain := by
  intro key governanceNode found
  obtain ⟨id, name, rfl⟩ := constant key governanceNode found
  rfl

theorem GovernanceGraph.Constant.provided (constant : graph.Constant decision) : graph.MetricsProvided claims := by
  intro key governanceNode found field read
  obtain ⟨id, name, rfl⟩ := constant key governanceNode found
  cases read

theorem GovernanceGraph.Constant.decidedOn (constant : graph.Constant decision) {flow : NodeId → Set GovernanceClaim} {visited : NodeId → Prop}
    {claimant : ClaimantId} : ∀ other ∈ decidedOn regexes graph flow visited claimant, other = decision := by
  rintro other ⟨node, -, claim, -, ⟨governanceNode, cohort, found, -, -, decided⟩, -⟩
  obtain ⟨id, name, rfl⟩ := constant node governanceNode found
  exact (Except.ok.inj decided).symm

theorem isLeastDecision_of_same {made : Set Decision} (same : ∀ other ∈ made, other = decision) {other : Decision} :
    IsLeastDecision made other ↔ other = decision ∧ made.Nonempty := by
  constructor
  · intro least
    exact ⟨same other least.1, other, least.1⟩
  · rintro ⟨rfl, inhabitant, member⟩
    refine ⟨same inhabitant member ▸ member, fun another listed => ?_⟩
    rw [same another listed]

theorem GovernanceGraph.Constant.traverses (constant : graph.Constant decision) (sound : graph.Sound regexes)
    (validated : validateGovernanceClaims claims = .ok ()) : ∃ result, traverse regexes graph claims = .ok result ∧
      ∀ claimant other, result.finalDecisions[claimant]? = some other ↔ other = decision ∧ ∃ claim ∈ claims, claim.claimantId = claimant := by
  have closed := sound.closed
  have batch := validBatch_of_validated validated
  obtain ⟨flow, isFlow⟩ := exists_claimFlow regexes claims sound.acyclic
  have within := claimNetwork_within sound.acyclic isFlow
  have evaluable := evaluable_of_provided sound.valid constant.plain batch within constant.provided
  obtain ⟨decisions, run, records⟩ := traverseFinalDecisions_of_evaluable closed sound.acyclic constant.plain sound.nonempty batch isFlow evaluable
  obtain ⟨result, traversed, rfl⟩ := exists_traversal run
  refine ⟨result, traversed, fun claimant other => ?_⟩
  rw [records claimant other, isLeastDecision_of_same constant.decidedOn, decidedOn_nonempty_iff closed sound.acyclic sound.nonempty isFlow evaluable]

theorem validated_of_traverse {result : TraversalResult} (run : traverse regexes graph claims = .ok result) :
    validateGovernanceClaims claims = .ok () := by
  obtain ⟨reached, traversed, -⟩ := bind_eq_ok.1 run
  obtain ⟨⟨⟩, validated, -⟩ := bind_eq_ok.1 traversed
  exact validated

end

namespace Protocol

theorem rewriteAsConstant_constant (graph : GovernanceGraph) (decision : Decision) : (rewriteAsConstant graph decision).Constant decision := by
  intro key governanceNode found
  rw [rewriteAsConstant_lookup] at found
  obtain ⟨original, -, rfl⟩ := Option.map_eq_some_iff.1 found
  exact ⟨nodeId original, nodeName original, rfl⟩

/-- What each of the three overriding actions decides for everyone. -/
def overridingDecision : SupervisoryAction → Option Decision
  | .pause => some .escalate
  | .deny | .stop => some .deny
  | _ => none

theorem applySupervisoryAction_overriding {graph : GovernanceGraph} {declaration : GovernanceDeclaration} {action : SupervisoryAction}
    {directive : SupervisoryDirective} {decision : Decision} (overrides : overridingDecision action = some decision) :
    applySupervisoryAction graph declaration action directive = .ok (rewriteAsConstant graph decision) := by
  cases action with
  | pause => exact Option.some.inj overrides ▸ rfl
  | deny => exact Option.some.inj overrides ▸ rfl
  | stop => exact Option.some.inj overrides ▸ rfl
  | sandbox | degrade | rollback | reroute => cases overrides

theorem checkGraphCorrigibility_passes {regexes : RegexEngine} {graph : GovernanceGraph} (sound : graph.Sound regexes)
    {claims : List GovernanceClaim} {verdict : AxiomVerdict} (run : checkGraphCorrigibility regexes graph claims = .ok verdict) :
    verdict = .pass .corrigible 3 := by
  obtain ⟨cycles, detected, rest⟩ := bind_eq_ok.1 run
  obtain rfl := Except.ok.inj (detected.symm.trans sound.noCycles)
  rw [if_neg (not_not.2 rfl), if_neg (by simp [sound.nonempty])] at rest
  obtain ⟨escalated, -, rest⟩ := bind_eq_ok.1 rest
  obtain ⟨denied, -, rest⟩ := bind_eq_ok.1 rest
  obtain ⟨permitted, -, made⟩ := bind_eq_ok.1 rest
  exact (Except.ok.inj made).symm

/-- Pause, deny and stop decide for every claimant of a valid batch, whatever the graph does itself. -/
theorem overlays_override {regexes : RegexEngine} {graph : GovernanceGraph} (valid : validateGovernanceGraph regexes graph = .ok ())
    (nonempty : graph.nodes.isEmpty = false) (acyclic : graph.Acyclic) (claims : List GovernanceClaim) :
    (∀ action decision, overridingDecision action = some decision → ∀ declaration directive, ∃ overlay,
      applySupervisoryAction graph declaration action directive = .ok overlay ∧
      ((∃ result, traverse regexes overlay claims = .ok result) ↔ validateGovernanceClaims claims = .ok ()) ∧
      ∀ result, traverse regexes overlay claims = .ok result → ∀ claimant other,
        result.finalDecisions[claimant]? = some other ↔ other = decision ∧ ∃ claim ∈ claims, claim.claimantId = claimant) ∧
    (validateGovernanceClaims claims = .ok () → checkGraphCorrigibility regexes graph claims = .ok (.pass .corrigible 3)) ∧
    ∀ verdict, checkGraphCorrigibility regexes graph claims = .ok verdict → verdict.isFail = false := by
  have sound : graph.Sound regexes := ⟨nonempty, acyclic, valid⟩
  refine ⟨fun action decision overrides declaration directive => ?_, checkGraphCorrigibility_pass sound, fun verdict run => ?_⟩
  · have decides := fun validated => @GovernanceGraph.Constant.traverses regexes _ decision claims (rewriteAsConstant_constant graph decision)
      (rewriteAsConstant_sound sound decision) validated
    refine ⟨rewriteAsConstant graph decision, applySupervisoryAction_overriding overrides, ⟨?_, ?_⟩, fun result run => ?_⟩
    · rintro ⟨result, run⟩
      exact validated_of_traverse run
    · intro validated
      obtain ⟨result, run, -⟩ := decides validated
      exact ⟨result, run⟩
    · obtain ⟨same, again, all⟩ := decides (validated_of_traverse run)
      obtain rfl := Except.ok.inj (run.symm.trans again)
      exact all
  · rw [checkGraphCorrigibility_passes sound run]
    rfl

theorem overlays_override_fork :
    (∃ result, traverse .error (rewriteAsConstant forkGraph .escalate) [plainClaim "a" 0.25, plainClaim "b" 1] = .ok result ∧
      result.finalDecisions["b"]? = some .escalate) ∧
    checkGraphCorrigibility .error forkGraph [plainClaim "a" 0.25, plainClaim "b" 1] = .ok (.pass .corrigible 3) := by
  have validated : validateGovernanceClaims [plainClaim "a" 0.25, plainClaim "b" 1] = .ok () := by decide +kernel
  obtain ⟨overlays, passes, -⟩ := @overlays_override .error forkGraph (by decide +kernel) (by decide +kernel)
    (acyclic_of_ascending (by decide)) [plainClaim "a" 0.25, plainClaim "b" 1]
  obtain ⟨overlay, applied, succeeds, decided⟩ := overlays .pause .escalate rfl ⟨"", "", "", "", forkGraph, [], 0, 0⟩ ⟨[], none, []⟩
  obtain rfl := Except.ok.inj applied
  obtain ⟨result, run⟩ := succeeds.2 validated
  exact ⟨⟨result, run, (decided result run "b" .escalate).2 ⟨rfl, plainClaim "b" 1, by simp, rfl⟩⟩, passes validated⟩

/-- A batch with a claim of no strength is refused before the overlay is asked. -/
theorem overlays_refuse_zero_strength :
    validateGovernanceGraph .error forkGraph = .ok () ∧ forkGraph.nodes.isEmpty = false ∧ forkGraph.Acyclic ∧
      ([plainClaim "a" 0].map (·.claimantId)).Nodup ∧ ∀ action decision, overridingDecision action = some decision →
        traverse .error (rewriteAsConstant forkGraph decision) [plainClaim "a" 0] = .error (.invalidGovernanceStrength "a" 0) := by
  refine ⟨by decide +kernel, by decide +kernel, acyclic_of_ascending (by decide), by decide, fun action decision _ => ?_⟩
  have refused : validateGovernanceClaims [plainClaim "a" 0] = .error (.invalidGovernanceStrength "a" 0) := rfl
  unfold traverse traverseClaims
  rw [refused]
  rfl

end Protocol

end Legitimacy
