import Legitimacy.CompositionMonotone
import Legitimacy.FloatRounding
import Legitimacy.OrderEnumeration
import Legitimacy.PermissiveStage
import Legitimacy.SupervisedOverlays

namespace Legitimacy

open ExceptRun

/-- A well-formed graph without proportional nodes. -/
structure GovernanceGraph.Runnable (regexes : RegexEngine) (graph : GovernanceGraph) : Prop extends graph.Sound regexes where
  plain : graph.Plain

/-- A batch that validation accepts and that provides what the nodes read. -/
structure GovernanceGraph.Admits (graph : GovernanceGraph) (claims : List GovernanceClaim) : Prop where
  validated : validateGovernanceClaims claims = .ok ()
  provided : graph.MetricsProvided claims

def DecidesAll (decisions : BTreeMap ClaimantId Decision) (claims : List GovernanceClaim) : Prop :=
  ∀ claim ∈ claims, ∃ decision, decisions[claim.claimantId]? = some decision

section

variable {regexes : RegexEngine} {graph : GovernanceGraph} {claims : List GovernanceClaim}

theorem GovernanceGraph.Admits.batch (admits : graph.Admits claims) : ValidBatch claims := validBatch_of_validated admits.validated

theorem GovernanceGraph.Runnable.decides (runnable : graph.Runnable regexes) (admits : graph.Admits claims) :
    ∃ decisions, traverseFinalDecisions regexes graph claims = .ok decisions ∧ DecidesAll decisions claims := by
  have closed := runnable.closed
  obtain ⟨flow, isFlow⟩ := exists_claimFlow regexes claims runnable.acyclic
  have within := claimNetwork_within runnable.acyclic isFlow
  have evaluable := evaluable_of_provided runnable.valid runnable.plain admits.batch within admits.provided
  obtain ⟨decisions, run, -⟩ := traverseFinalDecisions_of_evaluable closed runnable.acyclic runnable.plain runnable.nonempty
    admits.batch isFlow evaluable
  exact ⟨decisions, run, fun claim listed => exists_decision_of_listed closed runnable.acyclic runnable.plain run listed⟩

theorem GovernanceGraph.Runnable.traverses (runnable : graph.Runnable regexes) (admits : graph.Admits claims) :
    ∃ result, traverse regexes graph claims = .ok result ∧ DecidesAll result.finalDecisions claims := by
  obtain ⟨decisions, run, all⟩ := runnable.decides admits
  obtain ⟨result, traversed, rfl⟩ := exists_traversal run
  exact ⟨result, traversed, all⟩

theorem GovernanceGraph.Admits.part {others : List GovernanceClaim} (admits : graph.Admits claims) (sublist : others.Sublist claims) :
    graph.Admits others where
  validated := validateGovernanceClaims_of_subset admits.validated sublist.subset (admits.batch.distinct.sublist (sublist.map _))
  provided key node found field read claim listed := admits.provided key node found field read claim (sublist.subset listed)

/-- A claim that can take the place of another: of the same claimant, valid, and with all its metrics. -/
structure StandsFor (claim other : GovernanceClaim) : Prop where
  claimant : other.claimantId = claim.claimantId
  valid : validateGovernanceClaim other = .ok ()
  metrics : ∀ field ∈ claim.metrics, field ∈ other.metrics

theorem StandsFor.refl {claim : GovernanceClaim} (valid : validateGovernanceClaim claim = .ok ()) : StandsFor claim claim :=
  ⟨rfl, valid, fun _ known => known⟩

theorem GovernanceGraph.Admits.replaced {others : List GovernanceClaim} (admits : graph.Admits claims)
    (stand : List.Forall₂ StandsFor claims others) : graph.Admits others := by
  have sameIds : others.map (·.claimantId) = claims.map (·.claimantId) := by
    clear admits
    induction stand with
    | nil => rfl
    | cons first rest ih => rw [List.map_cons, List.map_cons, first.claimant, ih]
  refine ⟨validateGovernanceClaims_eq_ok.2 ⟨fun other listed => ?_, sameIds ▸ admits.batch.distinct⟩, ?_⟩
  · obtain ⟨claim, -, stands⟩ := exists_partner stand.flip listed
    exact stands.valid
  · intro key node found field read other listed
    obtain ⟨claim, inClaims, stands⟩ := exists_partner stand.flip listed
    exact (admits.provided key node found field read claim inClaims).imp_right (stands.metrics field)

end

section

def ValidStrength (strength : Float) : Prop := strength.isFinite = true ∧ ¬strength ≤ 0

instance (strength : Float) : Decidable (ValidStrength strength) := inferInstanceAs (Decidable (strength.isFinite = true ∧ ¬strength ≤ 0))

theorem validateGovernanceClaim_iff {claim : GovernanceClaim} : validateGovernanceClaim claim = .ok () ↔
    isBlank claim.claimantId = false ∧ ValidStrength claim.strength ∧ claim.priorityClass.any isBlank = false ∧
      ∀ (field : String) (value : Float), claim.metrics[field]? = some value → value.isFinite = true := by
  have metrics : claim.metrics.toList.forM (fun entry => validateMetric claim entry.1 entry.2) = .ok () ↔
      ∀ (field : String) (value : Float), claim.metrics[field]? = some value → value.isFinite = true := by
    rw [forM_eq_ok, Prod.forall]
    refine forall₂_congr fun field value => ?_
    rw [Std.ExtTreeMap.mem_toList_iff_getElem?_eq_some]
    exact imp_congr_right fun _ => check_eq_ok
  unfold validateGovernanceClaim
  rw [guard_eq_ok, guard_eq_ok, guard_eq_ok, not_or, not_not, Bool.not_eq_true, Bool.not_eq_true]
  exact and_congr Iff.rfl (and_congr Iff.rfl (and_congr Iff.rfl metrics))

theorem StandsFor.strength {claim : GovernanceClaim} (valid : validateGovernanceClaim claim = .ok ()) {strength : Float}
    (accepted : ValidStrength strength) : StandsFor claim { claim with strength := strength } := by
  obtain ⟨named, -, classed, finite⟩ := validateGovernanceClaim_iff.1 valid
  exact ⟨rfl, validateGovernanceClaim_iff.2 ⟨named, accepted, classed, finite⟩, fun _ known => known⟩

theorem StandsFor.metric {claim : GovernanceClaim} (valid : validateGovernanceClaim claim = .ok ()) {field : String} {value : Float}
    (accepted : value.isFinite = true) : StandsFor claim { claim with metrics := claim.metrics.insert field value } := by
  obtain ⟨named, strong, classed, finite⟩ := validateGovernanceClaim_iff.1 valid
  refine ⟨rfl, validateGovernanceClaim_iff.2 ⟨named, strong, classed, fun other found atOther => ?_⟩, fun other known => ?_⟩
  · rw [lookup_insert] at atOther
    split at atOther
    · exact Option.some.inj atOther ▸ accepted
    · exact finite other found atOther
  · exact Std.ExtTreeMap.mem_insert.2 (.inr known)

/-- A field of the claim can be moved by the delta: the strength stays valid, a metric finite. -/
def Tolerates (claim : GovernanceClaim) (field : String) (delta : Float) : Prop :=
  if field = "strength" then ValidStrength (claim.strength + delta) else ((claim.metrics[field]?).getD 0 + delta).isFinite = true

theorem applyFieldDelta_stands {claim : GovernanceClaim} (valid : validateGovernanceClaim claim = .ok ()) {field : String} {delta : Float}
    (tolerates : Tolerates claim field delta) :
    ∃ moved, Diagnostics.applyFieldDelta claim field delta = .ok moved ∧ StandsFor claim moved := by
  unfold Tolerates at tolerates
  unfold Diagnostics.applyFieldDelta
  split
  · next isStrength =>
    rw [if_pos isStrength] at tolerates
    refine ⟨_, guard_eq_ok.2 ⟨?_, rfl⟩, .strength valid tolerates⟩
    rintro (infinite | low)
    · exact infinite tolerates.1
    · exact tolerates.2 low
  · next isMetric =>
    rw [if_neg isMetric] at tolerates
    exact ⟨_, guard_eq_ok.2 ⟨not_not.2 tolerates, rfl⟩, .metric valid tolerates⟩

theorem exists_moved {α : Type} {entries : List α} {origin : α → GovernanceClaim} {move : α → Except LegitimacyError GovernanceClaim}
    (moves : ∀ entry ∈ entries, ∃ moved, move entry = .ok moved ∧ StandsFor (origin entry) moved) :
    ∃ others, entries.mapM move = .ok others ∧ List.Forall₂ StandsFor (entries.map origin) others := by
  obtain ⟨others, run⟩ := exists_mapM fun entry listed => (moves entry listed).imp fun _ both => both.1
  refine ⟨others, run, List.forall₂_map_left_iff.2 ?_⟩
  refine ((List.forall₂_and_left _ _).2 ⟨fun _ listed => listed, mapM_eq_ok.1 run⟩).imp fun entry other both => ?_
  obtain ⟨moved, made, stands⟩ := moves entry both.1
  exact Except.ok.inj (made.symm.trans both.2) ▸ stands

end

namespace Diagnostics

section

variable {before after : BTreeMap ClaimantId Decision}

theorem decisionOf_ok {decisions : BTreeMap ClaimantId Decision} {claimant : ClaimantId} {decision : Decision}
    (known : decisions[claimant]? = some decision) (context : String) : decisionOf decisions claimant context = .ok decision := by
  unfold decisionOf
  rw [known]

def BothDecide (before after : BTreeMap ClaimantId Decision) (claimants : List ClaimantId) : Prop :=
  ∀ claimant ∈ claimants, (∃ decision, before[claimant]? = some decision) ∧ ∃ decision, after[claimant]? = some decision

theorem firstChange_ok {claimants : List ClaimantId} (both : BothDecide before after claimants) (beforeContext afterContext : String)
    (changed : Decision → Decision → Bool) :
    ∃ change, firstChange before after beforeContext afterContext changed claimants = .ok change := by
  induction claimants with
  | nil => exact ⟨none, rfl⟩
  | cons claimant rest ih =>
    obtain ⟨⟨first, atBefore⟩, second, atAfter⟩ := both claimant List.mem_cons_self
    obtain ⟨later, compared⟩ := ih fun other listed => both other (List.mem_cons_of_mem claimant listed)
    by_cases differs : changed first second = true
    · refine ⟨some (claimant, first, second), bind_eq_ok.2 ⟨first, decisionOf_ok atBefore _, bind_eq_ok.2 ⟨second, ?_⟩⟩⟩
      exact ⟨decisionOf_ok atAfter _, if_pos differs⟩
    · refine ⟨later, bind_eq_ok.2 ⟨first, decisionOf_ok atBefore _, bind_eq_ok.2 ⟨second, decisionOf_ok atAfter _, ?_⟩⟩⟩
      rw [if_neg differs]
      exact compared

theorem groupMovement_ok {claimants : List ClaimantId} (both : BothDecide before after claimants) (movement : Bool × Bool) :
    ∃ outcome, groupMovement before after claimants movement = .ok outcome := by
  induction claimants generalizing movement with
  | nil => exact ⟨movement, rfl⟩
  | cons claimant rest ih =>
    obtain ⟨⟨first, atBefore⟩, second, atAfter⟩ := both claimant List.mem_cons_self
    obtain ⟨outcome, moved⟩ := ih (fun other listed => both other (List.mem_cons_of_mem claimant listed))
      (movement.1 || decisionDirection first second == 1, movement.2 || decisionDirection first second == -1)
    exact ⟨outcome, bind_eq_ok.2 ⟨first, decisionOf_ok atBefore _, bind_eq_ok.2 ⟨second, decisionOf_ok atAfter _, moved⟩⟩⟩

theorem splitGroup_ok {known : List ClaimantId} (both : BothDecide before after known) (groups : List (List ClaimantId)) :
    ∃ split, splitGroup before after known groups = .ok split := by
  induction groups with
  | nil => exact ⟨none, rfl⟩
  | cons group rest ih =>
    obtain ⟨later, searched⟩ := ih
    obtain ⟨⟨sawImprovement, sawWorsening⟩, moved⟩ := @groupMovement_ok before after (group.filter (· ∈ known))
      (fun claimant listed => both claimant (of_decide_eq_true (List.mem_filter.1 listed).2)) (false, false)
    by_cases split : (sawImprovement && sawWorsening) = true
    · exact ⟨some group, bind_eq_ok.2 ⟨_, moved, if_pos split⟩⟩
    · refine ⟨later, bind_eq_ok.2 ⟨_, moved, ?_⟩⟩
      dsimp only
      rw [if_neg split]
      exact searched

theorem rejection_ok (original : Baseline) {perturbed : List GovernanceClaim} (batch : ValidBatch perturbed)
    (perturbedAllocation : ValidAllocation) (description violation : String) :
    ∃ counterexample, rejection original description perturbed perturbedAllocation violation = .ok counterexample := by
  obtain ⟨converted, conversion, -⟩ := convertClaims_of_valid batch
  exact ⟨_, bind_eq_ok.2 ⟨converted, conversion, rfl⟩⟩

end

section

variable {regexes : RegexEngine} {graph : GovernanceGraph} {claims : List GovernanceClaim}

theorem baseline_ok (runnable : graph.Runnable regexes) (admits : graph.Admits claims) :
    ∃ original, baseline regexes graph claims = .ok original ∧ DecidesAll original.decisions claims := by
  obtain ⟨decisions, run, all⟩ := runnable.decides admits
  obtain ⟨original, based, rfl⟩ := baseline_of_traversal admits.batch run
  exact ⟨original, based, all⟩

theorem consistencyLoop_ok (runnable : graph.Runnable regexes) (admits : graph.Admits claims) {original : Baseline}
    (decided : DecidesAll original.decisions claims) (removals : List (GovernanceClaim × Nat)) (tested : Nat) :
    ∃ verdict, consistencyLoop regexes graph claims original removals tested = .ok verdict := by
  induction removals generalizing tested with
  | nil => exact ⟨_, rfl⟩
  | cons removal rest ih =>
    have sublist := List.eraseIdx_sublist claims removal.2
    have reduced := admits.part sublist
    obtain ⟨decisions, run, all⟩ := runnable.decides reduced
    obtain ⟨allocation, allocated⟩ := decisionAllocation_of_valid reduced.batch decisions
    obtain ⟨change, compared⟩ := @firstChange_ok original.decisions decisions ((claims.eraseIdx removal.2).map (·.claimantId))
      (fun claimant listed => by
        obtain ⟨claim, inPart, rfl⟩ := List.mem_map.1 listed
        exact ⟨decided claim (sublist.subset inPart), all claim inPart⟩)
      "graph consistency original lookup" "graph consistency reduced lookup" fun before after => decide (before ≠ after)
    cases change with
    | none =>
      obtain ⟨verdict, later⟩ := ih (tested + 1)
      exact ⟨verdict, bind_eq_ok.2 ⟨decisions, run, bind_eq_ok.2 ⟨allocation, allocated, bind_eq_ok.2 ⟨none, compared, later⟩⟩⟩⟩
    | some found =>
      obtain ⟨counterexample, rejected⟩ := rejection_ok original reduced.batch allocation _ _
      refine ⟨.rejected "graph consistency" counterexample, bind_eq_ok.2 ⟨decisions, run, bind_eq_ok.2 ⟨allocation, allocated, ?_⟩⟩⟩
      exact bind_eq_ok.2 ⟨some found, compared, bind_eq_ok.2 ⟨counterexample, rejected, rfl⟩⟩

theorem checkGraphConsistency_ok (runnable : graph.Runnable regexes) (admits : graph.Admits claims) :
    ∃ verdict, checkGraphConsistency regexes graph claims = .ok verdict := by
  obtain ⟨original, based, decided⟩ := baseline_ok runnable admits
  obtain ⟨verdict, checked⟩ := consistencyLoop_ok runnable admits decided claims.zipIdx 0
  exact ⟨verdict, bind_eq_ok.2 ⟨original, based, checked⟩⟩

theorem bothDecide_of_stand {before after : BTreeMap ClaimantId Decision} {others : List GovernanceClaim}
    (decided : DecidesAll before claims) (all : DecidesAll after others) (stand : List.Forall₂ StandsFor claims others) :
    BothDecide before after (claimantIds claims) := by
  intro claimant listed
  obtain ⟨claim, inClaims, rfl⟩ := mem_claimantIds.1 listed
  obtain ⟨other, inOthers, stands⟩ := exists_partner stand inClaims
  exact ⟨decided claim inClaims, stands.claimant ▸ all other inOthers⟩

theorem solidarityLoop_ok (runnable : graph.Runnable regexes) (admits : graph.Admits claims) {original : Baseline}
    (decided : DecidesAll original.decisions claims) {shocks : List BinaryShock}
    (tolerated : ∀ shock ∈ shocks, ∀ claim ∈ claims, Tolerates claim shock.field shock.delta) (tested : Nat) :
    ∃ verdict, solidarityLoop regexes graph claims original shocks tested = .ok verdict := by
  induction shocks generalizing tested with
  | nil => exact ⟨_, rfl⟩
  | cons shock rest ih =>
    have later := ih fun other listed => tolerated other (List.mem_cons_of_mem shock listed)
    unfold solidarityLoop
    split
    · exact later tested
    obtain ⟨shocked, moved, stand⟩ := @exists_moved _ claims id _ fun claim listed =>
      applyFieldDelta_stands (admits.batch.valid claim listed) (tolerated shock List.mem_cons_self claim listed)
    rw [List.map_id] at stand
    have shockedAdmits := admits.replaced stand
    obtain ⟨decisions, run, all⟩ := runnable.decides shockedAdmits
    obtain ⟨allocation, allocated⟩ := decisionAllocation_of_valid shockedAdmits.batch decisions
    obtain ⟨split, searched⟩ := splitGroup_ok (bothDecide_of_stand decided all stand) (sameClassGroups claims)
    cases split with
    | none =>
      obtain ⟨verdict, checked⟩ := later (tested + 1)
      refine ⟨verdict, bind_eq_ok.2 ⟨shocked, moved, bind_eq_ok.2 ⟨decisions, run, bind_eq_ok.2 ⟨allocation, allocated, ?_⟩⟩⟩⟩
      exact bind_eq_ok.2 ⟨none, searched, checked⟩
    | some group =>
      obtain ⟨counterexample, rejected⟩ := rejection_ok original shockedAdmits.batch allocation _ _
      refine ⟨.rejected "graph solidarity" counterexample, bind_eq_ok.2 ⟨shocked, moved, bind_eq_ok.2 ⟨decisions, run, ?_⟩⟩⟩
      refine bind_eq_ok.2 ⟨allocation, allocated, bind_eq_ok.2 ⟨some group, searched, ?_⟩⟩
      exact bind_eq_ok.2 ⟨counterexample, rejected, rfl⟩

theorem checkGraphSolidarity_ok (runnable : graph.Runnable regexes) (admits : graph.Admits claims) {shocks : List BinaryShock}
    (tolerated : ∀ shock ∈ shocks, ∀ claim ∈ claims, Tolerates claim shock.field shock.delta) :
    ∃ verdict, checkGraphSolidarity regexes graph claims shocks = .ok verdict := by
  obtain ⟨original, based, decided⟩ := baseline_ok runnable admits
  obtain ⟨verdict, checked⟩ := solidarityLoop_ok runnable admits decided tolerated 0
  exact ⟨verdict, bind_eq_ok.2 ⟨original, based, checked⟩⟩

theorem strengtheningLoop_ok (runnable : graph.Runnable regexes) (admits : graph.Admits claims) {original : Baseline}
    (decided : DecidesAll original.decisions claims) (delta : BinaryDelta) {improvementDelta : Float}
    (tolerated : ∀ claim ∈ claims, Tolerates claim delta.field improvementDelta) (indexed : List (GovernanceClaim × Nat)) :
    ∃ found, strengtheningLoop regexes graph claims original delta improvementDelta indexed = .ok found := by
  induction indexed with
  | nil => exact ⟨none, rfl⟩
  | cons entry rest ih =>
    obtain ⟨strengthened, index⟩ := entry
    obtain ⟨others, moved, stand⟩ := @exists_moved _ claims.zipIdx Prod.fst
      (fun entry => if entry.2 = index then applyFieldDelta entry.1 delta.field improvementDelta else .ok entry.1) (by
        rintro ⟨claim, claimIndex⟩ listed
        have inClaims : claim ∈ claims := List.fst_mem_of_mem_zipIdx listed
        dsimp only
        split
        · exact applyFieldDelta_stands (admits.batch.valid claim inClaims) (tolerated claim inClaims)
        · exact ⟨claim, rfl, .refl (admits.batch.valid claim inClaims)⟩)
    rw [List.zipIdx_map_fst] at stand
    have othersAdmits := admits.replaced stand
    obtain ⟨decisions, run, all⟩ := runnable.decides othersAdmits
    obtain ⟨allocation, allocated⟩ := decisionAllocation_of_valid othersAdmits.batch decisions
    obtain ⟨change, compared⟩ := firstChange_ok (bothDecide_of_stand decided all stand) "graph monotonicity original lookup"
      "graph monotonicity strengthened lookup" fun before after => decide (decisionDirection before after < 0)
    unfold strengtheningLoop
    cases change with
    | none =>
      obtain ⟨found, searched⟩ := ih
      refine ⟨found, bind_eq_ok.2 ⟨others, moved, bind_eq_ok.2 ⟨decisions, run, bind_eq_ok.2 ⟨allocation, allocated, ?_⟩⟩⟩⟩
      exact bind_eq_ok.2 ⟨none, compared, searched⟩
    | some worse =>
      obtain ⟨counterexample, rejected⟩ := rejection_ok original othersAdmits.batch allocation _ _
      refine ⟨some counterexample, bind_eq_ok.2 ⟨others, moved, bind_eq_ok.2 ⟨decisions, run, ?_⟩⟩⟩
      refine bind_eq_ok.2 ⟨allocation, allocated, bind_eq_ok.2 ⟨some worse, compared, ?_⟩⟩
      exact bind_eq_ok.2 ⟨counterexample, rejected, rfl⟩

/-- The move of a field that its polarity calls an improvement. -/
def improvement (delta : Float) : AuditMetricPolarity → Option Float
  | .higherBetter => some delta
  | .lowerBetter => some (-delta)
  | .diagnosticPresence => none

/-- The schema knows the field of the delta, and every claim tolerates its improvement. -/
def Improvable (claims : List GovernanceClaim) (schema : List (String × AuditMetricPolarity)) (delta : BinaryDelta) : Prop :=
  ∃ polarity, polarityFor schema delta.field = some polarity ∧
    ∀ improved ∈ improvement delta.delta polarity, ∀ claim ∈ claims, Tolerates claim delta.field improved

def Improves (claims : List GovernanceClaim) (schema : List (String × AuditMetricPolarity)) (delta : BinaryDelta) : Prop :=
  ∀ polarity, polarityFor schema delta.field = some polarity → ∀ improved ∈ improvement delta.delta polarity,
    ∀ claim ∈ claims, Tolerates claim delta.field improved

def missingPolarity (field : String) : LegitimacyError :=
  .invalidGate field ("metric field '" ++ field ++ "' has no schema polarity annotation")

/-- The outcome is a value, or the refusal of a delta whose field the schema does not know. -/
def EndsAtSchema {α : Type} (schema : List (String × AuditMetricPolarity)) (deltas : List BinaryDelta) (outcome : Except LegitimacyError α) : Prop :=
  (∃ value, outcome = .ok value) ∨ ∃ delta ∈ deltas, polarityFor schema delta.field = none ∧ outcome = .error (missingPolarity delta.field)

theorem monotonicityLoop_ends (runnable : graph.Runnable regexes) (admits : graph.Admits claims) {original : Baseline}
    (decided : DecidesAll original.decisions claims) {schema : List (String × AuditMetricPolarity)} {deltas : List BinaryDelta}
    (improves : ∀ delta ∈ deltas, Improves claims schema delta) (tested : Nat) :
    EndsAtSchema schema deltas (monotonicityLoop regexes graph claims schema original deltas tested) := by
  induction deltas generalizing tested with
  | nil => exact .inl ⟨_, rfl⟩
  | cons delta rest ih =>
    have later : ∀ tested, EndsAtSchema schema (delta :: rest) (monotonicityLoop regexes graph claims schema original rest tested) := by
      intro tested
      rcases ih (fun other listed => improves other (List.mem_cons_of_mem delta listed)) tested with ended | ⟨other, listed, refused⟩
      · exact .inl ended
      · exact .inr ⟨other, List.mem_cons_of_mem delta listed, refused⟩
    have strengthened : ∀ polarity improved (judge : Option Counterexample → Except LegitimacyError Verdict),
        polarityFor schema delta.field = some polarity → improvement delta.delta polarity = some improved →
        judge none = monotonicityLoop regexes graph claims schema original rest (tested + claims.length) →
        (∀ counterexample, judge (some counterexample) = .ok (.rejected "graph monotonicity" counterexample)) →
        EndsAtSchema schema (delta :: rest) (strengtheningLoop regexes graph claims original delta improved claims.zipIdx >>= judge) := by
      intro polarity improved judge known isImproved continues rejects
      have tolerated := improves delta List.mem_cons_self polarity known improved isImproved
      obtain ⟨found, searched⟩ := strengtheningLoop_ok runnable admits decided delta tolerated claims.zipIdx
      rw [searched]
      cases found with
      | none =>
        show EndsAtSchema schema (delta :: rest) (judge none)
        rw [continues]
        exact later (tested + claims.length)
      | some counterexample => exact .inl ⟨_, rejects counterexample⟩
    unfold monotonicityLoop
    split
    · exact later tested
    cases known : polarityFor schema delta.field with
    | none => exact .inr ⟨delta, List.mem_cons_self, known, rfl⟩
    | some polarity =>
      cases polarity with
      | higherBetter => exact strengthened .higherBetter delta.delta _ known rfl rfl fun _ => rfl
      | lowerBetter => exact strengthened .lowerBetter (-delta.delta) _ known rfl rfl fun _ => rfl
      | diagnosticPresence => exact later tested

theorem monotonicityCheck_ends (runnable : graph.Runnable regexes) (admits : graph.Admits claims)
    {schema : List (String × AuditMetricPolarity)} {deltas : List BinaryDelta} (improves : ∀ delta ∈ deltas, Improves claims schema delta) :
    EndsAtSchema schema deltas (monotonicityCheckViaPolaritySchema regexes graph claims deltas schema) := by
  obtain ⟨original, based, decided⟩ := baseline_ok runnable admits
  unfold monotonicityCheckViaPolaritySchema
  rw [based]
  exact monotonicityLoop_ends runnable admits decided improves 0

end

end Diagnostics

section

variable {regexes : RegexEngine} {graph : GovernanceGraph} {claims : List GovernanceClaim}

theorem GovernanceGraph.Sound.noCycles (sound : graph.Sound regexes) : detectCycles graph = .ok [] :=
  detectCycles_acyclic sound.closed sound.acyclic

theorem checkGraphCertifiability_pass (runnable : graph.Runnable regexes) (admits : graph.Admits claims) :
    ∃ tested, checkGraphCertifiability regexes graph claims = .ok (.pass .certifiable tested) := by
  obtain ⟨result, traversed, all⟩ := runnable.traverses admits
  have missing : (claims.filter fun claim => !result.finalDecisions.contains claim.claimantId) = [] := by
    refine List.filter_eq_nil_iff.2 fun claim listed => ?_
    have decided := Std.ExtTreeMap.contains_iff_mem.2 (mem_iff_lookup.2 (all claim listed))
    simp [decided]
  let replaySteps := (result.nodeDecisions.toList.map fun entry => entry.2.length).sum
  refine ⟨replaySteps + claims.length, bind_eq_ok.2 ⟨[], runnable.noCycles, ?_⟩⟩
  rw [if_neg (not_not.2 rfl), if_neg (by simp [runnable.nonempty])]
  refine bind_eq_ok.2 ⟨(), runnable.valid, bind_eq_ok.2 ⟨result, traversed, ?_⟩⟩
  dsimp only
  rw [missing, List.map_nil, if_neg (not_not.2 rfl)]

structure GovernanceGraph.Probed (graph : GovernanceGraph) : Prop where
  canonical : ∃ order, Observable.topologicalOrder graph = .ok order
  small : ¬graph.nodes.size > Observable.exhaustiveObservableNodeLimit
  counted : ∃ count, Observable.countTopologicalOrdersUpTo graph Observable.exhaustiveObservableOrderLimit = .ok count ∧
    ¬count > Observable.exhaustiveObservableOrderLimit
  listed : ∃ orders, Observable.allTopologicalOrders graph = .ok orders ∧ ∀ order ∈ orders, graph.LegalOrder order

theorem legal_of_topologicalOrder (closed : graph.Closed) {order : List NodeId} (ordered : Observable.topologicalOrder graph = .ok order) :
    graph.LegalOrder order := by
  obtain ⟨found, -, validating⟩ := bind_eq_ok.1 ordered
  obtain ⟨⟨⟩, validated, same⟩ := bind_eq_ok.1 validating
  exact Except.ok.inj same ▸ (validateTopologicalOrder_eq_ok closed).1 validated

theorem compareOrders_pass {canonicalOrder : List NodeId} {decisions : BTreeMap ClaimantId Decision}
    (same : ∀ order, graph.LegalOrder order → Observable.evaluateWithOrder regexes graph claims order = .ok decisions)
    {orders : List (List NodeId)} (legal : ∀ order ∈ orders, graph.LegalOrder order) (tested : Nat) :
    ∃ total, Observable.compareOrders regexes graph claims canonicalOrder decisions orders tested = .ok (.pass .observable total) := by
  induction orders generalizing tested with
  | nil => exact ⟨tested, rfl⟩
  | cons order rest ih =>
    have later := ih fun other listed => legal other (List.mem_cons_of_mem order listed)
    unfold Observable.compareOrders
    split
    · exact later tested
    · obtain ⟨total, compared⟩ := later (tested + 1)
      refine ⟨total, bind_eq_ok.2 ⟨decisions, same order (legal order List.mem_cons_self), ?_⟩⟩
      rw [firstDifference_self]
      exact compared

def GovernanceGraph.BeyondProbe (graph : GovernanceGraph) : Prop :=
  graph.nodes.size > Observable.exhaustiveObservableNodeLimit ∨
    ∃ count, Observable.countTopologicalOrdersUpTo graph Observable.exhaustiveObservableOrderLimit = .ok count ∧
      count > Observable.exhaustiveObservableOrderLimit

theorem GovernanceGraph.Probed.not_beyond (probed : graph.Probed) : ¬graph.BeyondProbe := by
  rintro (large | ⟨count, counted, many⟩)
  · exact probed.small large
  · obtain ⟨found, same, few⟩ := probed.counted
    exact few (Except.ok.inj (counted.symm.trans same) ▸ many)

theorem checkGraphObservableDeterminacy_ends (runnable : graph.Runnable regexes) (admits : graph.Admits claims) :
    (∃ tested, Observable.checkGraphObservableDeterminacy regexes graph claims = .ok (.pass .observable tested)) ∨
      graph.BeyondProbe ∧ ∃ reason, Observable.checkGraphObservableDeterminacy regexes graph claims = .ok (.skipped .observable reason) := by
  have closed := runnable.closed
  obtain ⟨decisions, run, -⟩ := runnable.decides admits
  have same := fun order (legal : graph.LegalOrder order) =>
    observable_evaluateWithOrder_eq closed runnable.acyclic runnable.plain run legal
  obtain ⟨canonicalOrder, ordered, canonical⟩ := Observable.topologicalOrder_legal closed runnable.acyclic
  obtain ⟨count, counted⟩ := Observable.countTopologicalOrdersUpTo_ok closed runnable.acyclic Observable.exhaustiveObservableOrderLimit
  obtain ⟨orders, listed, legal⟩ := Observable.allTopologicalOrders_ok closed runnable.acyclic
  obtain ⟨total, compared⟩ := @compareOrders_pass regexes graph claims canonicalOrder decisions same orders legal 1
  have inhabited : ¬graph.nodes.isEmpty = true := by simp [runnable.nonempty]
  unfold Observable.checkGraphObservableDeterminacy
  simp only [runnable.noCycles, inhabited, ordered, same canonicalOrder canonical, counted, listed, bind, Except.bind, ne_eq,
    not_true_eq_false, Bool.false_eq_true, if_false]
  split
  · next large => exact .inr ⟨.inl large, _, rfl⟩
  · split
    · next many => exact .inr ⟨.inr ⟨count, counted, many⟩, _, rfl⟩
    · exact .inl ⟨total, compared⟩

theorem constantOverrideGraph_lookup {decision : Decision} {key : NodeId} : (constantOverrideGraph graph decision).nodes[key]? =
    (graph.nodes[key]?).map fun _ => .binary key ("supervisory-override-" ++ key.asStr) [] decision .firstMatch := by
  simp only [constantOverrideGraph, Std.ExtTreeMap.getElem?_map]

theorem constantOverrideGraph_edge {decision : Decision} {node next : NodeId} :
    (constantOverrideGraph graph decision).Edge node next ↔ graph.Edge node next := by
  simp [GovernanceGraph.Edge, constantOverrideGraph]

theorem constantOverrideGraph_runnable (sound : graph.Sound regexes) (decision : Decision) :
    (constantOverrideGraph graph decision).Runnable regexes := by
  have kept : ∀ {node : NodeId}, node ∈ graph.nodes → node ∈ (constantOverrideGraph graph decision).nodes := by
    intro node member
    obtain ⟨governanceNode, found⟩ := mem_iff_lookup.1 member
    exact mem_iff_lookup.2 ⟨_, by rw [constantOverrideGraph_lookup, found, Option.map_some]⟩
  obtain ⟨entry, isEntry⟩ := exists_entry sound.closed sound.acyclic sound.nonempty
  refine ⟨⟨nonempty_of_mem (kept isEntry.1), ?_, validateGovernanceGraph_iff.2 ⟨?_, ?_, ?_⟩⟩, ?_⟩
  · exact sound.acyclic.mono fun node next => constantOverrideGraph_edge.1
  · intro key node found
    rw [constantOverrideGraph_lookup] at found
    obtain ⟨original, -, rfl⟩ := Option.map_eq_some_iff.1 found
    exact ⟨rfl, rfl⟩
  · intro edge listed
    obtain ⟨original, member, rfl⟩ := List.mem_map.1 listed
    have ends := sound.closed original member
    exact ⟨kept ends.1, kept ends.2⟩
  · intro edge listed
    obtain ⟨original, member, rfl⟩ := List.mem_map.1 listed
    rfl
  · intro key node found
    rw [constantOverrideGraph_lookup] at found
    obtain ⟨original, -, rfl⟩ := Option.map_eq_some_iff.1 found
    rfl

theorem constantOverrideGraph_admits (validated : validateGovernanceClaims claims = .ok ()) (decision : Decision) :
    (constantOverrideGraph graph decision).Admits claims where
  validated := validated
  provided key node found field read := by
    rw [constantOverrideGraph_lookup] at found
    obtain ⟨original, -, rfl⟩ := Option.map_eq_some_iff.1 found
    cases read

theorem checkGraphCorrigibility_pass (sound : graph.Sound regexes) (validated : validateGovernanceClaims claims = .ok ()) :
    checkGraphCorrigibility regexes graph claims = .ok (.pass .corrigible 3) := by
  have overridden : ∀ decision, ∃ result, traverse regexes (constantOverrideGraph graph decision) claims = .ok result := by
    intro decision
    obtain ⟨result, traversed, -⟩ := (constantOverrideGraph_runnable sound decision).traverses
      (constantOverrideGraph_admits validated decision)
    exact ⟨result, traversed⟩
  obtain ⟨escalated, escalates⟩ := overridden .escalate
  obtain ⟨denied, denies⟩ := overridden .deny
  obtain ⟨permitted, permits⟩ := overridden .permit
  refine bind_eq_ok.2 ⟨[], sound.noCycles, ?_⟩
  rw [if_neg (not_not.2 rfl), if_neg (by simp [sound.nonempty])]
  exact bind_eq_ok.2 ⟨escalated, escalates, bind_eq_ok.2 ⟨denied, denies, bind_eq_ok.2 ⟨permitted, permits, rfl⟩⟩⟩

end

section

variable {regexes : RegexEngine} {graph : GovernanceGraph} {claims : List GovernanceClaim}

theorem scoreFor_ok {decisions : BTreeMap ClaimantId Decision} {claimant : ClaimantId} {decision : Decision}
    (known : decisions[claimant]? = some decision) (context : String) :
    scoreFor (finalDecisionScores decisions) claimant context = .ok (decisionRank decision).toFloat := by
  unfold scoreFor finalDecisionScores
  rw [Std.ExtTreeMap.getElem?_map, known]
  rfl

def Misreportable (claim : GovernanceClaim) : Prop := ∀ factor ∈ misreportFactors, ValidStrength (claim.strength * factor)

instance (claim : GovernanceClaim) : Decidable (Misreportable claim) :=
  inferInstanceAs (Decidable (∀ factor ∈ misreportFactors, ValidStrength (claim.strength * factor)))

theorem misreported_stands (batch : ValidBatch claims) {index : Nat} {strength : Float} (accepted : ValidStrength strength) :
    List.Forall₂ StandsFor claims (claims.zipIdx.map fun (candidate, candidateIndex) =>
      if candidateIndex = index then { candidate with strength := strength } else candidate) := by
  obtain ⟨others, moved, stand⟩ := @exists_moved _ claims.zipIdx Prod.fst
    (fun (candidate, candidateIndex) => .ok (if candidateIndex = index then { candidate with strength := strength } else candidate)) (by
      rintro ⟨candidate, candidateIndex⟩ listed
      have valid := batch.valid candidate (List.fst_mem_of_mem_zipIdx listed)
      refine ⟨_, rfl, ?_⟩
      dsimp only
      split
      · exact .strength valid accepted
      · exact .refl valid)
  rw [List.zipIdx_map_fst] at stand
  obtain rfl : _ = others := Except.ok.inj ((List.mapM_pure.symm.trans moved))
  exact stand

theorem misreportLoop_ok (runnable : graph.Runnable regexes) (admits : graph.Admits claims) {claim : GovernanceClaim} (listed : claim ∈ claims)
    (index : Nat) (trueAlloc : Float) {factors : List Float} (accepted : ∀ factor ∈ factors, ValidStrength (claim.strength * factor)) :
    ∃ found, misreportLoop regexes graph claims claim index trueAlloc factors = .ok found := by
  induction factors with
  | nil => exact ⟨none, rfl⟩
  | cons factor rest ih =>
    obtain ⟨found, searched⟩ := ih fun other member => accepted other (List.mem_cons_of_mem factor member)
    have stand := @misreported_stands claims admits.batch index _ (accepted factor List.mem_cons_self)
    obtain ⟨result, traversed, all⟩ := runnable.traverses (admits.replaced stand)
    obtain ⟨other, inOthers, stands⟩ := exists_partner stand listed
    obtain ⟨decision, known⟩ := all other inOthers
    rw [stands.claimant] at known
    have scored := scoreFor_ok known "strategyproofness misreport"
    by_cases improves : strictlyImproves (decisionRank decision).toFloat trueAlloc = true
    · exact ⟨_, bind_eq_ok.2 ⟨result, traversed, bind_eq_ok.2 ⟨_, scored, if_pos improves⟩⟩⟩
    · refine ⟨found, bind_eq_ok.2 ⟨result, traversed, bind_eq_ok.2 ⟨_, scored, ?_⟩⟩⟩
      rw [if_neg improves]
      exact searched

theorem manipulationLoop_ok (runnable : graph.Runnable regexes) (admits : graph.Admits claims) (misreportable : ∀ claim ∈ claims, Misreportable claim)
    {decisions : BTreeMap ClaimantId Decision} (decided : DecidesAll decisions claims) {indexed : List (GovernanceClaim × Nat)}
    (within : ∀ entry ∈ indexed, entry.1 ∈ claims) :
    ∃ verdict, manipulationLoop regexes graph claims (finalDecisionScores decisions) indexed = .ok verdict := by
  induction indexed with
  | nil => exact ⟨_, rfl⟩
  | cons entry rest ih =>
    obtain ⟨claim, index⟩ := entry
    have listed := within (claim, index) List.mem_cons_self
    obtain ⟨verdict, later⟩ := ih fun other member => within other (List.mem_cons_of_mem _ member)
    obtain ⟨decision, known⟩ := decided claim listed
    have scored := scoreFor_ok known "strategyproofness baseline"
    obtain ⟨found, searched⟩ := misreportLoop_ok runnable admits listed index (decisionRank decision).toFloat (misreportable claim listed)
    cases found with
    | none => exact ⟨verdict, bind_eq_ok.2 ⟨_, scored, bind_eq_ok.2 ⟨none, searched, later⟩⟩⟩
    | some manipulable => exact ⟨manipulable, bind_eq_ok.2 ⟨_, scored, bind_eq_ok.2 ⟨some manipulable, searched, rfl⟩⟩⟩

theorem checkGraphStrategyproofness_ok (runnable : graph.Runnable regexes) (admits : graph.Admits claims)
    (misreportable : ∀ claim ∈ claims, Misreportable claim) :
    ∃ verdict, checkGraphStrategyproofnessVerdict regexes graph claims = .ok verdict := by
  obtain ⟨result, traversed, all⟩ := runnable.traverses admits
  obtain ⟨verdict, searched⟩ := @manipulationLoop_ok regexes graph claims runnable admits misreportable _ all claims.zipIdx
    fun entry member => List.fst_mem_of_mem_zipIdx member
  exact ⟨verdict, bind_eq_ok.2 ⟨result, traversed, searched⟩⟩

end

section

variable {regexes : RegexEngine} {graph : GovernanceGraph} {claims : List GovernanceClaim}

theorem withMetrics_claimant (metrics : List (String × Float)) (converted : Claim) :
    (metrics.foldl (fun converted (field, value) => converted.withMetric field value) converted).claimantId = converted.claimantId := by
  induction metrics generalizing converted with
  | nil => rfl
  | cons entry rest ih => exact ih (converted.withMetric entry.1 entry.2)

theorem convertGovernanceClaims_of_valid (batch : ValidBatch claims) :
    ∃ converted, convertGovernanceClaims claims = .ok converted ∧ converted.map (·.claimantId) = claims.map (·.claimantId) := by
  have each : ∀ claim ∈ claims, ∃ converted, (do
      let converted ← Claim.new claim.claimantId claim.strength
      .ok (claim.metrics.toList.foldl (fun converted (field, value) => converted.withMetric field value) converted) :
        Except LegitimacyError Claim) = .ok converted ∧ converted.claimantId = claim.claimantId := by
    intro claim listed
    obtain ⟨converted, made, sameId⟩ := claim_new_of_valid (batch.valid claim listed)
    exact ⟨_, bind_eq_ok.2 ⟨converted, made, rfl⟩, (withMetrics_claimant _ converted).trans sameId⟩
  exact sameIds_of_each each

theorem livenessShare_bounded {nonterminal : List ClaimantId} (nonempty : claims ≠ []) (few : nonterminal.length ≤ claims.length)
    (small : claims.length < 2 ^ 64) (stuck : Bool) :
    (if stuck then (nonterminal.foldl (fun stuck claimantId => stuck.insert claimantId) (∅ : BTreeSet ClaimantId)).size.toFloat /
        claims.length.toFloat else (0 : Float)).isFinite = true ∧
      ¬(if stuck then (nonterminal.foldl (fun stuck claimantId => stuck.insert claimantId) (∅ : BTreeSet ClaimantId)).size.toFloat /
        claims.length.toFloat else (0 : Float)) < 0 := by
  have counted := size_foldl_insert_le nonterminal (∅ : BTreeSet ClaimantId)
  rw [Std.ExtTreeSet.size_empty, Nat.zero_add] at counted
  cases stuck with
  | true => exact FloatOrder.quotient_isFinite (by omega) (List.length_pos_iff.2 nonempty) small
  | false =>
    simp only [Bool.false_eq_true, if_false]
    decide +kernel

theorem nonvacuityRejection_fail (batch : ValidBatch claims) {nonterminal : List ClaimantId} (few : nonterminal.length ≤ claims.length)
    (small : claims.length < 2 ^ 64) (description violation : String) :
    ∃ witness, nonvacuityRejection claims description violation nonterminal = .ok (.fail .nonVacuous description witness) := by
  obtain ⟨converted, conversion, sameIds⟩ := convertGovernanceClaims_of_valid batch
  obtain ⟨estate, made⟩ := exists_of_toBool (show (Estate.new 1 "decision").toBool = true by decide +kernel)
  have zero : zeroDecisionAllocation claims = .ok ⟨shareMap (fun _ => 0) claims ∅⟩ :=
    bind_eq_ok.2 ⟨converted, conversion, validAllocation_of_shares (fun _ _ => ⟨by decide +kernel, by decide +kernel⟩) sameIds⟩
  obtain ⟨liveness, live⟩ : ∃ liveness, nonvacuityLivenessAllocation claims nonterminal = .ok liveness := by
    refine ⟨_, bind_eq_ok.2 ⟨converted, conversion, validAllocation_of_shares (fun claim listed => ?_) sameIds⟩⟩
    have nonempty : claims ≠ [] := List.ne_nil_of_mem listed
    simp only [List.isEmpty_iff, if_neg nonempty]
    exact livenessShare_bounded nonempty few small _
  exact ⟨_, bind_eq_ok.2 ⟨converted, conversion, bind_eq_ok.2 ⟨estate, made, bind_eq_ok.2 ⟨_, zero, bind_eq_ok.2 ⟨liveness, live, rfl⟩⟩⟩⟩⟩

theorem checkGraphNonvacuity_ok (runnable : graph.Runnable regexes) (admits : graph.Admits claims) (small : claims.length < 2 ^ 64) :
    ∃ verdict outcome, checkGraphNonvacuity regexes graph claims = .ok outcome ∧
      Protocol.requireProtocolKernelVerdict outcome = .ok verdict := by
  obtain ⟨result, traversed, -⟩ := runnable.traverses admits
  have few : (nonterminalClaimants claims result.finalDecisions).length ≤ claims.length := by
    unfold nonterminalClaimants
    rw [(sorted_perm _).length_eq, List.length_map]
    exact List.length_filter_le _ _
  have rejects : ∀ (nonterminal : List ClaimantId), nonterminal.length ≤ claims.length → ∀ description violation, ∃ verdict outcome,
      nonvacuityRejection claims description violation nonterminal = .ok outcome ∧
        Protocol.requireProtocolKernelVerdict outcome = .ok verdict := by
    intro nonterminal short description violation
    obtain ⟨witness, rejected⟩ := nonvacuityRejection_fail admits.batch short small description violation
    exact ⟨_, _, rejected, rfl⟩
  unfold checkGraphNonvacuity
  rw [if_neg (by simp [runnable.nonempty]), traversed]
  simp only [bind, Except.bind]
  split
  · exact rejects _ few _ _
  · split
    · exact ⟨_, _, rfl, rfl⟩
    · exact rejects [] (Nat.zero_le _) _ _

end

end Legitimacy
