import Legitimacy.DecisionShares
import Legitimacy.Transitions

namespace Legitimacy.Protocol

open ExceptRun

/-- The two shares of each claimant in a counterexample lie a finite distance apart. -/
def Measurable (counterexample : Counterexample) : Prop :=
  ∀ (claimant : ClaimantId) (before after : Float), counterexample.originalAllocation.allocation[claimant]? = some before →
    counterexample.perturbedAllocation.allocation[claimant]? = some after → (before - after).abs.isFinite = true

/-- The shares of an allocation are ranks of decisions. -/
def RankShares (shares : ValidAllocation) : Prop :=
  ∀ (claimant : ClaimantId) (share : Float), shares.allocation[claimant]? = some share → share = 0 ∨ share = 1 ∨ share = 2

theorem decisionRank_share (decision : Decision) :
    (decisionRank decision).toFloat = 0 ∨ (decisionRank decision).toFloat = 1 ∨ (decisionRank decision).toFloat = 2 := by
  cases decision <;> decide +kernel

theorem decisionAllocationRank_share (decision : Decision) :
    decisionAllocationRank decision = 0 ∨ decisionAllocationRank decision = 1 ∨ decisionAllocationRank decision = 2 := by
  cases decision
  · exact .inr (.inr rfl)
  · exact .inl rfl
  · exact .inr (.inl rfl)

theorem rank_distance {before after : Float} (fromRank : before = 0 ∨ before = 1 ∨ before = 2)
    (toRank : after = 0 ∨ after = 1 ∨ after = 2) : (before - after).abs.isFinite = true := by
  rcases fromRank with rfl | rfl | rfl <;> rcases toRank with rfl | rfl | rfl <;> decide +kernel

variable {counterexample : Counterexample}

theorem measurable_of_ranks (original : RankShares counterexample.originalAllocation)
    (perturbed : RankShares counterexample.perturbedAllocation) : Measurable counterexample :=
  fun claimant before after atBefore atAfter => rank_distance (original claimant before atBefore) (perturbed claimant after atAfter)

theorem validAllocation_eq {allocation : Allocation} {claims : List Claim} {valid : ValidAllocation}
    (made : ValidAllocation.new allocation claims = .ok valid) : valid.allocation = allocation := by
  obtain ⟨⟨⟩, -, same⟩ := bind_eq_ok.1 made
  rw [← Except.ok.inj same]

/-- The outcome of a check: it names its axiom, and the counterexample of a rejection can be measured. -/
inductive Checked (axiomName : String) : Verdict → Prop where
  | admissible {tested : Nat} : Checked axiomName (.admissible axiomName tested)
  | rejected {counterexample : Counterexample} (measurable : Measurable counterexample) :
      Checked axiomName (.rejected axiomName counterexample)

variable {axiomName : String}

theorem Checked.name_eq {verdict : Verdict} (checked : Checked axiomName verdict) : verdictAxiom verdict = axiomName := by
  cases checked <;> rfl

theorem Checked.measurable {named : String}
    (checked : Checked axiomName (.rejected named counterexample)) : Measurable counterexample := by
  cases checked with
  | rejected measurable => exact measurable

inductive KernelChecked (kernelAxiom : KernelAxiom) : AxiomVerdict → Prop where
  | pass {tested : Nat} : KernelChecked kernelAxiom (.pass kernelAxiom tested)
  | fail {reason : String} {witness : Counterexample} (measurable : Measurable witness) :
      KernelChecked kernelAxiom (.fail kernelAxiom reason witness)
  | skipped {reason : String} : KernelChecked kernelAxiom (.skipped kernelAxiom reason)

section

variable {regexes : RegexEngine} {graph : GovernanceGraph} {claims : List GovernanceClaim}

theorem diagnosticAllocation_ranks {decisions : BTreeMap ClaimantId Decision} {allocation : ValidAllocation}
    (allocated : Diagnostics.decisionAllocation claims decisions = .ok allocation) : RankShares allocation := by
  obtain ⟨converted, -, made⟩ := bind_eq_ok.1 allocated
  intro claimant share found
  rw [validAllocation_eq made] at found
  have entry :=
    @shareMap_entry claims (fun claim => (decisionRank ((decisions[claim.claimantId]?).getD .escalate)).toFloat) ∅ claimant share found
  rcases entry with nothing | ⟨claim, -, -, rfl⟩
  · simp at nothing
  · exact decisionRank_share _

theorem decisionAllocation_ranks {decisions : BTreeMap ClaimantId Decision} {allocation : ValidAllocation}
    (allocated : decisionAllocation claims decisions = .ok allocation) : RankShares allocation := by
  obtain ⟨converted, -, made⟩ := bind_eq_ok.1 allocated
  intro claimant share found
  rw [validAllocation_eq made] at found
  have entry :=
    @shareMap_entry claims (fun claim => decisionAllocationRank ((decisions[claim.claimantId]?).getD .escalate)) ∅ claimant share found
  rcases entry with nothing | ⟨claim, -, -, rfl⟩
  · simp at nothing
  · exact decisionAllocationRank_share _

variable {original : Diagnostics.Baseline}

theorem baseline_ranks (based : Diagnostics.baseline regexes graph claims = .ok original) :
    RankShares original.allocation := by
  obtain ⟨decisions, -, based⟩ := bind_eq_ok.1 based
  obtain ⟨allocation, allocated, based⟩ := bind_eq_ok.1 based
  obtain ⟨converted, -, based⟩ := bind_eq_ok.1 based
  obtain ⟨estate, -, made⟩ := bind_eq_ok.1 based
  obtain rfl := Except.ok.inj made
  exact diagnosticAllocation_ranks allocated

theorem rejection_measurable {description violation : String} {perturbedClaims : List GovernanceClaim}
    {perturbed : ValidAllocation} {counterexample : Counterexample} (ranks : RankShares original.allocation) (others : RankShares perturbed)
    (rejected : Diagnostics.rejection original description perturbedClaims perturbed violation = .ok counterexample) :
    Measurable counterexample := by
  obtain ⟨converted, -, made⟩ := bind_eq_ok.1 rejected
  obtain rfl := Except.ok.inj made
  exact measurable_of_ranks ranks others

variable {verdict : Verdict}

theorem consistencyLoop_checked (ranks : RankShares original.allocation)
    {removals : List (GovernanceClaim × Nat)} {tested : Nat}
    (checked : Diagnostics.consistencyLoop regexes graph claims original removals tested = .ok verdict) :
    Checked "graph consistency" verdict := by
  induction removals generalizing tested with
  | nil =>
    obtain rfl := Except.ok.inj checked
    exact .admissible
  | cons removal rest ih =>
    unfold Diagnostics.consistencyLoop at checked
    obtain ⟨decisions, -, checked⟩ := bind_eq_ok.1 checked
    obtain ⟨allocation, allocated, checked⟩ := bind_eq_ok.1 checked
    obtain ⟨change, -, checked⟩ := bind_eq_ok.1 checked
    cases change with
    | none => exact ih checked
    | some change =>
      obtain ⟨counterexample, rejected, made⟩ := bind_eq_ok.1 checked
      obtain rfl := Except.ok.inj made
      exact .rejected (rejection_measurable ranks (diagnosticAllocation_ranks allocated) rejected)

theorem checkGraphConsistency_checked (checked : Diagnostics.checkGraphConsistency regexes graph claims = .ok verdict) :
    Checked "graph consistency" verdict := by
  obtain ⟨original, based, looped⟩ := bind_eq_ok.1 checked
  exact consistencyLoop_checked (baseline_ranks based) looped

theorem solidarityLoop_checked (ranks : RankShares original.allocation) {shocks : List BinaryShock}
    {tested : Nat}
    (checked : Diagnostics.solidarityLoop regexes graph claims original shocks tested = .ok verdict) :
    Checked "graph solidarity" verdict := by
  induction shocks generalizing tested with
  | nil =>
    obtain rfl := Except.ok.inj checked
    exact .admissible
  | cons shock rest ih =>
    unfold Diagnostics.solidarityLoop at checked
    split at checked
    · exact ih checked
    · obtain ⟨shocked, -, checked⟩ := bind_eq_ok.1 checked
      obtain ⟨decisions, -, checked⟩ := bind_eq_ok.1 checked
      obtain ⟨allocation, allocated, checked⟩ := bind_eq_ok.1 checked
      obtain ⟨split, -, checked⟩ := bind_eq_ok.1 checked
      cases split with
      | none => exact ih checked
      | some group =>
        obtain ⟨counterexample, rejected, made⟩ := bind_eq_ok.1 checked
        obtain rfl := Except.ok.inj made
        exact .rejected (rejection_measurable ranks (diagnosticAllocation_ranks allocated) rejected)

theorem checkGraphSolidarity_checked {shocks : List BinaryShock}
    (checked : Diagnostics.checkGraphSolidarity regexes graph claims shocks = .ok verdict) : Checked "graph solidarity" verdict := by
  obtain ⟨original, based, looped⟩ := bind_eq_ok.1 checked
  exact solidarityLoop_checked (baseline_ranks based) looped

theorem strengtheningLoop_measurable (ranks : RankShares original.allocation) {delta : BinaryDelta}
    {improvementDelta : Float} {strengthened : List (GovernanceClaim × Nat)} {counterexample : Counterexample}
    (checked : Diagnostics.strengtheningLoop regexes graph claims original delta improvementDelta strengthened = .ok (some counterexample)) :
    Measurable counterexample := by
  induction strengthened with
  | nil => cases Except.ok.inj checked
  | cons entry rest ih =>
    unfold Diagnostics.strengtheningLoop at checked
    obtain ⟨strengthenedClaims, -, checked⟩ := bind_eq_ok.1 checked
    obtain ⟨decisions, -, checked⟩ := bind_eq_ok.1 checked
    obtain ⟨allocation, allocated, checked⟩ := bind_eq_ok.1 checked
    obtain ⟨change, -, checked⟩ := bind_eq_ok.1 checked
    cases change with
    | none => exact ih checked
    | some change =>
      obtain ⟨found, rejected, made⟩ := bind_eq_ok.1 checked
      obtain rfl := Option.some.inj (Except.ok.inj made)
      exact rejection_measurable ranks (diagnosticAllocation_ranks allocated) rejected

theorem monotonicityLoop_checked {schema : List (String × Diagnostics.AuditMetricPolarity)}
    (ranks : RankShares original.allocation) {deltas : List BinaryDelta} {tested : Nat}
    (checked : Diagnostics.monotonicityLoop regexes graph claims schema original deltas tested = .ok verdict) :
    Checked "graph monotonicity" verdict := by
  induction deltas generalizing tested with
  | nil =>
    obtain rfl := Except.ok.inj checked
    exact .admissible
  | cons delta rest ih =>
    unfold Diagnostics.monotonicityLoop at checked
    have strengthens : ∀ improvementDelta (judge : Option Counterexample → Except LegitimacyError Verdict),
        (Diagnostics.strengtheningLoop regexes graph claims original delta improvementDelta claims.zipIdx >>= judge) = .ok verdict →
        judge none = Diagnostics.monotonicityLoop regexes graph claims schema original rest (tested + claims.length) →
        (∀ counterexample, judge (some counterexample) = .ok (.rejected "graph monotonicity" counterexample)) →
        Checked "graph monotonicity" verdict := by
      intro improvementDelta judge strengthened continues rejects
      obtain ⟨found, searched, strengthened⟩ := bind_eq_ok.1 strengthened
      cases found with
      | none => exact ih (continues.symm.trans strengthened)
      | some counterexample =>
        obtain rfl := Except.ok.inj ((rejects counterexample).symm.trans strengthened)
        exact .rejected (strengtheningLoop_measurable ranks searched)
    split at checked
    · exact ih checked
    · cases polarity : Diagnostics.polarityFor schema delta.field with
      | none => simp [polarity] at checked
      | some known =>
        rw [polarity] at checked
        cases known with
        | higherBetter => exact strengthens _ _ checked rfl fun _ => rfl
        | lowerBetter => exact strengthens _ _ checked rfl fun _ => rfl
        | diagnosticPresence => exact ih checked

theorem monotonicityCheck_checked {deltas : List BinaryDelta} {schema : List (String × Diagnostics.AuditMetricPolarity)}
    (checked : Diagnostics.monotonicityCheckViaPolaritySchema regexes graph claims deltas schema = .ok verdict) :
    Checked "graph monotonicity" verdict := by
  obtain ⟨original, based, looped⟩ := bind_eq_ok.1 checked
  exact monotonicityLoop_checked (baseline_ranks based) looped

variable {outcome : AxiomVerdict}

theorem KernelChecked.required {kernelAxiom : KernelAxiom} (checked : KernelChecked kernelAxiom outcome)
    (required : requireProtocolKernelVerdict outcome = .ok verdict) : Checked kernelAxiom.graphAxiomName verdict := by
  cases checked with
  | pass =>
    obtain rfl := Except.ok.inj required
    exact .admissible
  | fail measurable =>
    obtain rfl := Except.ok.inj required
    exact .rejected measurable
  | skipped => cases required

theorem kernelRejection_checked {kernelAxiom : KernelAxiom} {original perturbed : BTreeMap ClaimantId Decision} {description violation : String}
    (rejected : Diagnostics.kernelRejection kernelAxiom claims original perturbed description violation = .ok outcome) :
    KernelChecked kernelAxiom outcome := by
  obtain ⟨converted, -, rejected⟩ := bind_eq_ok.1 rejected
  obtain ⟨estate, -, rejected⟩ := bind_eq_ok.1 rejected
  obtain ⟨before, atBefore, rejected⟩ := bind_eq_ok.1 rejected
  obtain ⟨after, atAfter, made⟩ := bind_eq_ok.1 rejected
  obtain rfl := Except.ok.inj made
  exact .fail (measurable_of_ranks (diagnosticAllocation_ranks atBefore) (diagnosticAllocation_ranks atAfter))

theorem checkGraphCertifiability_checked (checked : checkGraphCertifiability regexes graph claims = .ok outcome) :
    KernelChecked .certifiable outcome := by
  obtain ⟨cycles, -, checked⟩ := bind_eq_ok.1 checked
  dsimp only at checked
  split at checked
  · obtain rfl := Except.ok.inj checked
    exact .skipped
  · split at checked
    · exact kernelRejection_checked checked
    · obtain ⟨⟨⟩, -, checked⟩ := bind_eq_ok.1 checked
      obtain ⟨traversal, -, checked⟩ := bind_eq_ok.1 checked
      split at checked
      · exact kernelRejection_checked checked
      · obtain rfl := Except.ok.inj checked
        exact .pass

theorem compareOrders_checked {canonicalOrder : List NodeId} {canonical : BTreeMap ClaimantId Decision} {orders : List (List NodeId)}
    {tested : Nat}
    (compared : Observable.compareOrders regexes graph claims canonicalOrder canonical orders tested = .ok outcome) :
    KernelChecked .observable outcome := by
  induction orders generalizing tested with
  | nil =>
    obtain rfl := Except.ok.inj compared
    exact .pass
  | cons order rest ih =>
    unfold Observable.compareOrders at compared
    split at compared
    · exact ih compared
    · obtain ⟨candidate, -, compared⟩ := bind_eq_ok.1 compared
      split at compared
      · obtain ⟨originalClaims, -, compared⟩ := bind_eq_ok.1 compared
        obtain ⟨estate, -, compared⟩ := bind_eq_ok.1 compared
        obtain ⟨before, atBefore, compared⟩ := bind_eq_ok.1 compared
        obtain ⟨after, atAfter, made⟩ := bind_eq_ok.1 compared
        obtain rfl := Except.ok.inj made
        exact .fail (measurable_of_ranks (decisionAllocation_ranks atBefore) (decisionAllocation_ranks atAfter))
      · exact ih compared

theorem checkGraphObservableDeterminacy_checked
    (checked : Observable.checkGraphObservableDeterminacy regexes graph claims = .ok outcome) :
    KernelChecked .observable outcome := by
  obtain ⟨cycles, -, checked⟩ := bind_eq_ok.1 checked
  split at checked
  · obtain rfl := Except.ok.inj checked
    exact .skipped
  · split at checked
    · obtain rfl := Except.ok.inj checked
      exact .skipped
    · obtain ⟨canonicalOrder, -, checked⟩ := bind_eq_ok.1 checked
      obtain ⟨canonical, -, checked⟩ := bind_eq_ok.1 checked
      split at checked
      · obtain rfl := Except.ok.inj checked
        exact .skipped
      · obtain ⟨orderCount, -, checked⟩ := bind_eq_ok.1 checked
        split at checked
        · obtain rfl := Except.ok.inj checked
          exact .skipped
        · obtain ⟨orders, -, compared⟩ := bind_eq_ok.1 checked
          exact compareOrders_checked compared

theorem checkGraphCorrigibility_checked (checked : checkGraphCorrigibility regexes graph claims = .ok outcome) :
    KernelChecked .corrigible outcome := by
  obtain ⟨cycles, -, checked⟩ := bind_eq_ok.1 checked
  split at checked
  · obtain rfl := Except.ok.inj checked
    exact .skipped
  · split at checked
    · exact kernelRejection_checked checked
    · obtain ⟨paused, -, checked⟩ := bind_eq_ok.1 checked
      obtain ⟨denied, -, checked⟩ := bind_eq_ok.1 checked
      obtain ⟨permitted, -, made⟩ := bind_eq_ok.1 checked
      obtain rfl := Except.ok.inj made
      exact .pass

theorem checkGraphCompositionalSafety_checked
    (checked : checkGraphCompositionalSafety regexes graph claims = .ok outcome) :
    KernelChecked .compositionalSafety outcome := by
  obtain ⟨cycles, -, checked⟩ := bind_eq_ok.1 checked
  split at checked
  · obtain rfl := Except.ok.inj checked
    exact .skipped
  · split at checked
    · obtain rfl := Except.ok.inj checked
      exact .skipped
    · obtain ⟨original, -, checked⟩ := bind_eq_ok.1 checked
      obtain ⟨appendedGraph, -, checked⟩ := bind_eq_ok.1 checked
      obtain ⟨appended, -, checked⟩ := bind_eq_ok.1 checked
      dsimp only at checked
      split at checked
      · exact kernelRejection_checked checked
      · obtain rfl := Except.ok.inj checked
        exact .pass

theorem zeroDecisionAllocation_shares {allocation : ValidAllocation} (allocated : zeroDecisionAllocation claims = .ok allocation)
    {claimant : ClaimantId} {share : Float} (found : allocation.allocation[claimant]? = some share) : share = 0 := by
  obtain ⟨converted, -, made⟩ := bind_eq_ok.1 allocated
  rw [validAllocation_eq made] at found
  rcases @shareMap_entry claims (fun _ => 0) ∅ claimant share found with nothing | ⟨claim, -, -, same⟩
  · simp at nothing
  · exact same.symm

theorem validAllocation_finite {allocation : Allocation} {converted : List Claim} {valid : ValidAllocation}
    (made : ValidAllocation.new allocation converted = .ok valid) {claimant : ClaimantId} {share : Float}
    (found : valid.allocation[claimant]? = some share) : share.isFinite = true := by
  obtain ⟨⟨⟩, validated, same⟩ := bind_eq_ok.1 made
  obtain rfl := Except.ok.inj same
  obtain ⟨⟨⟩, -, entries⟩ := bind_eq_ok.1 validated
  have entry := forM_eq_ok.1 entries (claimant, share) (Std.ExtTreeMap.mem_toList_iff_getElem?_eq_some.2 found)
  obtain ⟨bounded, -⟩ := guard_eq_ok.1 entry
  exact not_not.1 fun infinite => bounded (.inl infinite)

theorem nonvacuityRejection_checked {description violation : String} {nonterminal : List ClaimantId}
    (rejected : nonvacuityRejection claims description violation nonterminal = .ok outcome) :
    KernelChecked .nonVacuous outcome := by
  obtain ⟨converted, -, rejected⟩ := bind_eq_ok.1 rejected
  obtain ⟨estate, -, rejected⟩ := bind_eq_ok.1 rejected
  obtain ⟨before, atBefore, rejected⟩ := bind_eq_ok.1 rejected
  obtain ⟨after, atAfter, made⟩ := bind_eq_ok.1 rejected
  obtain rfl := Except.ok.inj made
  refine .fail fun claimant first second atFirst atSecond => ?_
  obtain ⟨others, -, valid⟩ := bind_eq_ok.1 atAfter
  rw [zeroDecisionAllocation_shares atBefore atFirst]
  exact FloatOrder.isFinite_abs (FloatOrder.isFinite_zero_sub (validAllocation_finite valid atSecond))

theorem checkGraphNonvacuity_checked (checked : checkGraphNonvacuity regexes graph claims = .ok outcome) :
    KernelChecked .nonVacuous outcome := by
  unfold checkGraphNonvacuity at checked
  split at checked
  · exact nonvacuityRejection_checked checked
  · obtain ⟨traversal, -, checked⟩ := bind_eq_ok.1 checked
    dsimp only at checked
    split at checked
    · exact nonvacuityRejection_checked checked
    · split at checked
      · obtain rfl := Except.ok.inj checked
        exact .pass
      · exact nonvacuityRejection_checked checked

theorem checkGraphCertifiability_valid
    (checked : checkGraphCertifiability regexes graph claims = .ok outcome) (required : requireProtocolKernelVerdict outcome = .ok verdict)
    (nonempty : graph.nodes.isEmpty = false) : validateGovernanceGraph regexes graph = .ok () := by
  obtain ⟨cycles, -, checked⟩ := bind_eq_ok.1 checked
  dsimp only at checked
  split at checked
  · obtain rfl := Except.ok.inj checked
    cases required
  · rw [nonempty, if_neg Bool.false_ne_true] at checked
    obtain ⟨⟨⟩, validated, -⟩ := bind_eq_ok.1 checked
    exact validated

theorem checkGraphCompositionalSafety_nonempty
    (checked : checkGraphCompositionalSafety regexes graph claims = .ok outcome)
    (required : requireProtocolKernelVerdict outcome = .ok verdict) : graph.nodes.isEmpty = false := by
  obtain ⟨cycles, -, checked⟩ := bind_eq_ok.1 checked
  split at checked
  · obtain rfl := Except.ok.inj checked
    cases required
  · split at checked
    · obtain rfl := Except.ok.inj checked
      cases required
    · exact Bool.eq_false_iff.2 ‹_›

/-- An evaluation that succeeds has passed every check, and no kernel check was skipped. -/
structure Passed (regexes : RegexEngine) (graph : GovernanceGraph) (claims : List GovernanceClaim) : Prop where
  consistency : ∃ verdict, Diagnostics.checkGraphConsistency regexes graph claims = .ok verdict
  certifiability : ∃ outcome verdict, checkGraphCertifiability regexes graph claims = .ok outcome ∧
    requireProtocolKernelVerdict outcome = .ok verdict
  observable : ∃ outcome verdict, Observable.checkGraphObservableDeterminacy regexes graph claims = .ok outcome ∧
    requireProtocolKernelVerdict outcome = .ok verdict
  compositionalSafety : ∃ outcome verdict, checkGraphCompositionalSafety regexes graph claims = .ok outcome ∧
    requireProtocolKernelVerdict outcome = .ok verdict

variable {evaluation : GraphEvaluation}

section

variable (evaluated : evaluateGraph regexes graph claims = .ok evaluation)

include evaluated

theorem evaluateGraph_passed :
    Passed regexes graph claims := by
  obtain ⟨consistency, consistent, evaluated⟩ := bind_eq_ok.1 evaluated
  obtain ⟨solidarity, -, evaluated⟩ := bind_eq_ok.1 evaluated
  obtain ⟨monotonicity, -, evaluated⟩ := bind_eq_ok.1 evaluated
  obtain ⟨certifiability, certifiable, evaluated⟩ := bind_eq_ok.1 evaluated
  obtain ⟨certifiability', certified, evaluated⟩ := bind_eq_ok.1 evaluated
  obtain ⟨observable, determinate, evaluated⟩ := bind_eq_ok.1 evaluated
  obtain ⟨observable', observed, evaluated⟩ := bind_eq_ok.1 evaluated
  obtain ⟨corrigibility, -, evaluated⟩ := bind_eq_ok.1 evaluated
  obtain ⟨corrigibility', -, evaluated⟩ := bind_eq_ok.1 evaluated
  obtain ⟨compositional, composed, evaluated⟩ := bind_eq_ok.1 evaluated
  obtain ⟨compositional', safe, -⟩ := bind_eq_ok.1 evaluated
  exact ⟨⟨_, lift_eq_ok.1 consistent⟩, ⟨_, _, lift_eq_ok.1 certifiable, certified⟩, ⟨_, _, lift_eq_ok.1 determinate, observed⟩,
    ⟨_, _, lift_eq_ok.1 composed, safe⟩⟩

theorem evaluateGraph_valid :
    validateGovernanceGraph regexes graph = .ok () := by
  have passed := evaluateGraph_passed evaluated
  obtain ⟨certifiability, certified, certifiable, required⟩ := passed.certifiability
  obtain ⟨compositional, safe, composed, requiredSafety⟩ := passed.compositionalSafety
  exact checkGraphCertifiability_valid certifiable required (checkGraphCompositionalSafety_nonempty composed requiredSafety)

/-- The eight verdicts of an evaluation are the outcomes of the required checks, in their order. -/
theorem evaluateGraph_checked :
    List.Forall₂ Checked requiredAxioms evaluation.axiomVerdicts ∧
      checkGraphStrategyproofnessVerdict regexes graph claims = .ok evaluation.strategyproofness ∧
      evaluation.violations = recordManipulation (evaluation.axiomVerdicts.foldl recordViolation ∅) evaluation.strategyproofness.witness := by
  obtain ⟨consistency, consistent, evaluated⟩ := bind_eq_ok.1 evaluated
  obtain ⟨solidarity, solid, evaluated⟩ := bind_eq_ok.1 evaluated
  obtain ⟨monotonicity, monotone, evaluated⟩ := bind_eq_ok.1 evaluated
  obtain ⟨certifiability, certifiable, evaluated⟩ := bind_eq_ok.1 evaluated
  obtain ⟨certifiability', certified, evaluated⟩ := bind_eq_ok.1 evaluated
  obtain ⟨observable, observed, evaluated⟩ := bind_eq_ok.1 evaluated
  obtain ⟨observable', observable_, evaluated⟩ := bind_eq_ok.1 evaluated
  obtain ⟨corrigibility, corrigible, evaluated⟩ := bind_eq_ok.1 evaluated
  obtain ⟨corrigibility', corrected, evaluated⟩ := bind_eq_ok.1 evaluated
  obtain ⟨compositional, composed, evaluated⟩ := bind_eq_ok.1 evaluated
  obtain ⟨compositional', safe, evaluated⟩ := bind_eq_ok.1 evaluated
  obtain ⟨nonvacuity, live, evaluated⟩ := bind_eq_ok.1 evaluated
  obtain ⟨nonvacuity', nonvacuous, evaluated⟩ := bind_eq_ok.1 evaluated
  obtain ⟨strategyproofness, truthful, made⟩ := bind_eq_ok.1 evaluated
  obtain rfl := Except.ok.inj made
  refine ⟨?_, lift_eq_ok.1 truthful, rfl⟩
  refine .cons (checkGraphConsistency_checked (lift_eq_ok.1 consistent)) ?_
  refine .cons (checkGraphSolidarity_checked (lift_eq_ok.1 solid)) ?_
  refine .cons (monotonicityCheck_checked (lift_eq_ok.1 monotone)) ?_
  refine .cons ((checkGraphCertifiability_checked (lift_eq_ok.1 certifiable)).required certified) ?_
  refine .cons ((checkGraphObservableDeterminacy_checked (lift_eq_ok.1 observed)).required observable_) ?_
  refine .cons ((checkGraphCorrigibility_checked (lift_eq_ok.1 corrigible)).required corrected) ?_
  refine .cons ((checkGraphCompositionalSafety_checked (lift_eq_ok.1 composed)).required safe) ?_
  exact .cons ((checkGraphNonvacuity_checked (lift_eq_ok.1 live)).required nonvacuous) .nil

theorem evaluateGraph_axioms :
    evaluation.axiomVerdicts.map verdictAxiom = requiredAxioms ∧
      evaluation.violations = recordManipulation (evaluation.axiomVerdicts.foldl recordViolation ∅) evaluation.strategyproofness.witness := by
  obtain ⟨checked, -, violations⟩ := evaluateGraph_checked evaluated
  refine ⟨?_, violations⟩
  generalize evaluation.axiomVerdicts = verdicts at checked ⊢
  generalize requiredAxioms = names at checked ⊢
  induction checked with
  | nil => rfl
  | cons first rest ih => rw [List.map_cons, first.name_eq, ih]

end

end

def axiomOfProperty : GovernanceProperty → String
  | .consistency => "graph consistency"
  | .solidarity => "graph solidarity"
  | .monotonicity => "graph monotonicity"
  | .strategyproofness => "graph strategyproofness"
  | .certifiability => "graph certifiability"
  | .observableDeterminacy => "graph observable determinacy"
  | .corrigibility => "graph corrigibility"
  | .compositionalSafety => "graph compositional safety"
  | .nonVacuous => "graph nonvacuity"

theorem propertyForAxiom_eq_some {property : GovernanceProperty} :
    propertyForAxiom axiomName = some property ↔ axiomName = axiomOfProperty property := by
  constructor
  · intro known
    unfold propertyForAxiom at known
    split_ifs at known with h₁ h₂ h₃ h₄ h₅ h₆ h₇ h₈ h₉ <;> cases Option.some.inj known <;> assumption
  · intro named
    subst named
    cases property <;> rfl

/-- A property fails on a batch: its check is rejected, or a claimant can profit from a misreport. -/
inductive Fails (evaluation : GraphEvaluation) : GovernanceProperty → GraphViolation → Prop where
  | rejected {axiomName : String} {counterexample : Counterexample} {property : GovernanceProperty}
      (listed : .rejected axiomName counterexample ∈ evaluation.axiomVerdicts) (named : propertyForAxiom axiomName = some property) :
      Fails evaluation property ⟨axiomName, counterexampleMagnitude counterexample, counterexample.description⟩
  | manipulable {witness : StrategyproofnessWitness} (found : evaluation.strategyproofness.witness = some witness) :
      Fails evaluation .strategyproofness ⟨"graph strategyproofness", (witness.manipulatedAlloc - witness.trueAlloc).abs,
        "claimant '" ++ witness.claimant ++ "' can improve from " ++ FloatText.display witness.trueAlloc ++ " to " ++
          FloatText.display witness.manipulatedAlloc⟩

theorem recordViolation_unnamed {violations : BTreeMap String GraphViolation}
    (unknown : propertyForAxiom axiomName = none) : recordViolation violations (.rejected axiomName counterexample) = violations := by
  simp only [recordViolation, unknown]

theorem recordViolation_named {violations : BTreeMap String GraphViolation}
    {property : GovernanceProperty} (known : propertyForAxiom axiomName = some property) :
    recordViolation violations (.rejected axiomName counterexample) =
      violations.insert property.asStr ⟨axiomName, counterexampleMagnitude counterexample, counterexample.description⟩ := by
  simp only [recordViolation, known]

theorem recordViolation_lookup {verdicts : List Verdict} (distinct : (verdicts.map verdictAxiom).Nodup) (property : GovernanceProperty)
    (violation : GraphViolation) :
    (verdicts.foldl recordViolation ∅)[property.asStr]? = some violation ↔
      ∃ axiomName counterexample, .rejected axiomName counterexample ∈ verdicts ∧ propertyForAxiom axiomName = some property ∧
        violation = ⟨axiomName, counterexampleMagnitude counterexample, counterexample.description⟩ := by
  induction verdicts using List.reverseRecOn with
  | nil => simp
  | append_singleton earlier last ih =>
    rw [List.map_append, List.nodup_append] at distinct
    obtain ⟨distinctEarlier, -, apart⟩ := distinct
    have ih := ih distinctEarlier
    rw [List.foldl_append, List.foldl_cons, List.foldl_nil]
    cases last with
    | admissible axiomName tested => simpa [recordViolation] using ih
    | rejected axiomName counterexample =>
      have fresh : ∀ other, .rejected axiomName other ∉ earlier := fun other member =>
        apart axiomName (List.mem_map.2 ⟨_, member, rfl⟩) axiomName (List.mem_singleton.2 rfl) rfl
      cases known : propertyForAxiom axiomName with
      | none =>
        rw [recordViolation_unnamed known, ih]
        constructor
        · rintro ⟨name, witness, member, named, made⟩
          exact ⟨name, witness, List.mem_append_left _ member, named, made⟩
        · rintro ⟨name, witness, member, named, made⟩
          rcases List.mem_append.1 member with member | member
          · exact ⟨name, witness, member, named, made⟩
          · obtain ⟨rfl, rfl⟩ := Verdict.rejected.inj (List.mem_singleton.1 member)
            simp [known] at named
      | some recorded =>
        rw [recordViolation_named known, lookup_insert]
        by_cases same : property = recorded
        · -- the recorded violation is the last one, since no earlier check has its axiom
          subst same
          rw [if_pos rfl, Option.some_inj]
          constructor
          · intro made
            exact ⟨axiomName, counterexample, List.mem_append_right _ (List.mem_singleton.2 rfl), known, made.symm⟩
          · rintro ⟨name, witness, member, named, made⟩
            obtain rfl : name = axiomName := (propertyForAxiom_eq_some.1 named).trans (propertyForAxiom_eq_some.1 known).symm
            rcases List.mem_append.1 member with member | member
            · exact absurd member (fresh witness)
            · obtain ⟨-, rfl⟩ := Verdict.rejected.inj (List.mem_singleton.1 member)
              exact made.symm
        · rw [if_neg fun equal => same (GovernanceProperty.asStr_injective equal), ih]
          constructor
          · rintro ⟨name, witness, member, named, made⟩
            exact ⟨name, witness, List.mem_append_left _ member, named, made⟩
          · rintro ⟨name, witness, member, named, made⟩
            rcases List.mem_append.1 member with member | member
            · exact ⟨name, witness, member, named, made⟩
            · obtain ⟨rfl, rfl⟩ := Verdict.rejected.inj (List.mem_singleton.1 member)
              exact absurd (Option.some.inj (named.symm.trans known)) same

/-- The recorded violations are the failing properties. -/
theorem violations_eq_some {regexes : RegexEngine} {graph : GovernanceGraph} {claims : List GovernanceClaim} {evaluation : GraphEvaluation}
    (evaluated : evaluateGraph regexes graph claims = .ok evaluation) {property : GovernanceProperty} {violation : GraphViolation} :
    evaluation.violations[property.asStr]? = some violation ↔ Fails evaluation property violation := by
  obtain ⟨axioms, violations⟩ := evaluateGraph_axioms evaluated
  have distinct : (evaluation.axiomVerdicts.map verdictAxiom).Nodup := by
    rw [axioms]
    decide
  have recorded := fun property violation => recordViolation_lookup distinct property violation
  have unmapped : ∀ axiomName counterexample, .rejected axiomName counterexample ∈ evaluation.axiomVerdicts →
      propertyForAxiom axiomName ≠ some .strategyproofness := by
    intro axiomName counterexample member named
    have listed : axiomName ∈ requiredAxioms := axioms ▸ List.mem_map.2 ⟨_, member, rfl⟩
    rw [propertyForAxiom_eq_some.1 named] at listed
    exact absurd listed (by decide)
  rw [violations]
  cases found : evaluation.strategyproofness.witness with
  | none =>
    rw [recordManipulation, recorded]
    constructor
    · rintro ⟨axiomName, counterexample, member, named, rfl⟩
      exact .rejected member named
    · intro fails
      cases fails with
      | rejected member named => exact ⟨_, _, member, named, rfl⟩
      | manipulable witnessed => simp [found] at witnessed
  | some witness =>
    rw [recordManipulation, lookup_insert]
    by_cases same : property = .strategyproofness
    · subst same
      rw [if_pos rfl, Option.some_inj]
      constructor
      · rintro rfl
        exact .manipulable found
      · intro fails
        cases fails with
        | rejected member named => exact absurd named (unmapped _ _ member)
        | manipulable witnessed =>
          obtain rfl := Option.some.inj (found.symm.trans witnessed)
          rfl
    · rw [if_neg fun equal => same (GovernanceProperty.asStr_injective equal), recorded]
      constructor
      · rintro ⟨axiomName, counterexample, member, named, rfl⟩
        exact .rejected member named
      · intro fails
        cases fails with
        | rejected member named => exact ⟨_, _, member, named, rfl⟩
        | manipulable => exact absurd rfl same

end Legitimacy.Protocol
