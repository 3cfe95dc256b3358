import Legitimacy.ProportionalRule

namespace Legitimacy.Diagnostics

open ExceptRun ProportionalDivision

section

variable {tolerance : ℚ} {rule : ExactRule} {claims : List RationalClaim} {estate : RationalEstate} {original reduced : RationalAllocation}

theorem compareReduced_same (tolerant : 0 ≤ tolerance) {cohort : List RationalClaim}
    (same : ∀ claim ∈ cohort, SameShare original reduced claim.claimantId) (complexity : ConsistencyComplexity) :
    ∃ after, compareReduced tolerance original reduced cohort complexity = .ok (none, after) := by
  induction cohort generalizing complexity with
  | nil => exact ⟨complexity, rfl⟩
  | cons claim rest ih =>
    obtain ⟨⟨share, atOriginal, atReduced⟩, others⟩ := List.forall_mem_cons.1 same
    obtain ⟨after, run⟩ := ih others { complexity with survivorChecks := complexity.survivorChecks + 1 }
    refine ⟨after, bind_eq_ok.2 ⟨share, rationalShare_eq_ok.2 atOriginal, bind_eq_ok.2 ⟨share, rationalShare_eq_ok.2 atReduced, ?_⟩⟩⟩
    have slackened : 0 ≤ tolerance + tolerance * (|share| + |share|) := by positivity
    rw [sub_self, abs_zero, if_neg (not_lt.2 slackened)]
    exact run

theorem evaluateReductions_all {axiomName : String} {listed : List (List Nat)}
    (passes : ∀ indices ∈ listed, ∀ complexity, ∃ after,
      evaluateReduction tolerance rule claims estate original indices complexity axiomName = .ok (none, after)) (complexity : ConsistencyComplexity) :
    ∃ name tested after, evaluateReductions tolerance rule claims estate original axiomName listed complexity = .ok ⟨.admissible name tested, after⟩ := by
  induction listed generalizing complexity with
  | nil => exact ⟨_, _, _, rfl⟩
  | cons indices rest ih =>
    obtain ⟨here, later⟩ := List.forall_mem_cons.1 passes
    obtain ⟨between, reduces⟩ := here complexity
    obtain ⟨name, tested, after, run⟩ := ih later between
    exact ⟨name, tested, after, bind_eq_ok.2 ⟨_, reduces, run⟩⟩

end

section

variable {tolerance : ℚ} {claims : List RationalClaim} {estate : RationalEstate} {priorityClasses : List String} {original : RationalAllocation}

/-- Survivors with what they had of it divide it as before. -/
theorem evaluateReduction_proportional (tolerant : 0 ≤ tolerance) (validated : validateExactClaims claims = .ok ())
    (proportional : Proportional original claims estate) (indices : List Nat) (axiomName : String) (complexity : ConsistencyComplexity) : ∃ after,
      evaluateReduction tolerance (proportionalRule priorityClasses).toExactRule claims estate original indices complexity axiomName = .ok (none, after) := by
  obtain ⟨removed, split⟩ : ∃ removed, reducedClaims claims indices = survivors claims removed := ⟨_, survivors_eq (validateExactClaims_eq_ok.1 validated).2⟩
  have within : survivors claims removed ⊆ claims := List.filter_subset_self claims
  have shares : (survivors claims removed).mapM (fun claim => rationalShare original claim.claimantId "consistency reduction surviving share") =
      .ok ((survivors claims removed).map fun claim => shareOf original claim.claimantId) := by
    refine mapM_eq_ok.2 (List.forall₂_map_right_iff.2 (List.forall₂_same.2 fun claim survives => ?_))
    exact rationalShare_eq_ok.2 (proportional.valid.lookup (within survives))
  unfold evaluateReduction
  dsimp only
  rw [split, shares]
  dsimp only [bind, Except.bind]
  rw [← sumShares]
  split
  case isTrue => exact ⟨_, rfl⟩
  case isFalse left =>
    rw [not_or, not_le] at left
    have positive : 0 < sumShares original (survivors claims removed) := tolerant.trans_lt left.2
    have validates := survivors_validated validated removed
    obtain ⟨reduced, evaluated, again⟩ := @evaluate_proportional tolerance (survivors claims removed)
      ⟨sumShares original (survivors claims removed), estate.unit⟩ tolerant priorityClasses validates positive
    have same : ∀ claim ∈ survivors claims removed, SameShare original reduced claim.claimantId := by
      intro claim survives
      have strong := totalStrength_pos (strong_of_validated validates) (List.ne_nil_of_mem survives)
      refine ⟨_, proportional.valid.lookup (within survives), ?_⟩
      rw [again.valid.lookup survives, again.share claim survives, proportional.share claim (within survives),
        proportional.sumShares_of_subset within, part_part strong.ne']
    obtain ⟨after, compared⟩ := compareReduced_same tolerant same { complexity with coalitionsTested := complexity.coalitionsTested + 1 }
    simp only [if_neg (not_le.2 positive), evaluated, compared]
    exact ⟨after, rfl⟩

theorem proportional_consistent (tolerant : 0 ≤ tolerance) (priorityClasses : List String) (validated : validateExactClaims claims = .ok ())
    (positive : 0 < estate.total) : ∃ name tested,
      checkFullConsistency tolerance (proportionalRule priorityClasses).toExactRule claims estate ⟨.full, true⟩ = .ok (.admissible name tested) := by
  obtain ⟨original, evaluated, proportional⟩ := evaluate_proportional tolerant priorityClasses validated positive
  have each : ∀ indices ∈ enumerated claims.length .full, ∀ complexity, ∃ after, evaluateReduction tolerance (proportionalRule priorityClasses).toExactRule
      claims estate original indices complexity (axiomLabel .full) = .ok (none, after) :=
    fun indices _ => evaluateReduction_proportional tolerant validated proportional indices (axiomLabel .full)
  obtain ⟨name, tested, after, run⟩ := evaluateReductions_all each ⟨0, 0⟩
  have passed : validateFullComplexityGate claims.length true = .ok () := if_neg (by simp)
  refine ⟨name, tested, bind_eq_ok.2 ⟨⟨.admissible name tested, after⟩, bind_eq_ok.2 ⟨(), passed, ?_⟩, rfl⟩⟩
  exact bind_eq_ok.2 ⟨original, evaluated, run⟩

/-- All shares move by the same factor. -/
theorem proportional_passes (tolerant : 0 ≤ tolerance) {shocked : RationalAllocation} {scale : ℚ} (strong : ∀ claim ∈ claims, 0 < claim.strength)
    (positive : 0 < estate.total) (proportional : Proportional original claims estate)
    (scaled : Proportional shocked claims { estate with total := estate.total * scale }) {members : List Claimant}
    (assigned : ∀ member ∈ members, member.id ∈ claims.map (·.claimantId)) : ClassPasses tolerance original shocked (scale < 1) members := by
  have share : ∀ member ∈ members, member.id ∈ original ∧ member.id ∈ shocked ∧ 0 < shareOf original member.id ∧
      shareOf shocked member.id = shareOf original member.id * scale := by
    intro member listed
    obtain ⟨claim, known, same⟩ := List.mem_map.1 (assigned member listed)
    rw [← same, proportional.share claim known, scaled.share claim known, part_scale]
    refine ⟨proportional.valid.provided claim known, scaled.valid.provided claim known, ?_, rfl⟩
    exact part_pos positive (totalStrength_pos strong (List.ne_nil_of_mem known)) (strong claim known)
  have ratio : ∀ member ∈ members, shockRatio original shocked member = scale := by
    intro member listed
    obtain ⟨-, -, held, scales⟩ := share member listed
    rw [shockRatio, scales, mul_div_cancel_left₀ _ held.ne']
  refine ⟨fun member listed => ?_, fun member listed against => ?_, fun first rest split member later => ?_⟩
  · obtain ⟨inOriginal, inShocked, -⟩ := share member listed
    exact ⟨inOriginal, inShocked⟩
  · obtain ⟨-, -, held, scales⟩ := share member listed
    unfold Shares at against
    rw [scales] at against
    have slackened : 0 ≤ slack tolerance (shareOf original member.id) (shareOf original member.id * scale) := by unfold slack; positivity
    by_cases loss : scale < 1
    · have less : shareOf original member.id * scale ≤ shareOf original member.id := mul_le_of_le_one_right held.le loss.le
      simp only [AgainstShock, loss, decide_true, if_true, Gained] at against
      linarith
    · have more : shareOf original member.id ≤ shareOf original member.id * scale := le_mul_of_one_le_right held.le (not_lt.1 loss)
      simp only [AgainstShock, loss, decide_false, Bool.false_eq_true, if_false, Lost] at against
      linarith
  · have changed : ∀ member ∈ first :: rest, member ∈ members := fun member listed => (List.mem_filter.1 (split ▸ listed)).1
    rw [ratio member (changed member (List.mem_cons_of_mem first later)), ratio first (changed first List.mem_cons_self), sub_self, abs_zero]
    exact tolerant

theorem proportional_solidary (tolerant : 0 ≤ tolerance) (priorityClasses : List String) (validated : validateExactClaims claims = .ok ())
    (positive : 0 < estate.total) {claimants : List Claimant} (assigned : ∀ claimant ∈ claimants, claimant.id ∈ claims.map (·.claimantId))
    {scales : List ℚ} (upward : ∀ scale ∈ scales, 0 < scale) : ∃ name tested,
      checkSolidarity tolerance (proportionalRule priorityClasses) claims estate claimants scales = .ok (.admissible name tested) := by
  obtain ⟨original, evaluated, proportional⟩ := evaluate_proportional tolerant priorityClasses validated positive
  refine (checkSolidarity_admissible tolerant).2 ⟨original, evaluated, fun scale listed _ => ?_⟩
  have left : 0 < estate.total * scale := mul_pos positive (upward scale listed)
  obtain ⟨shocked, again, scaled⟩ := @evaluate_proportional tolerance claims { estate with total := estate.total * scale } tolerant priorityClasses
    validated left
  refine ⟨left, shocked, again, fun priorityClass _ _ => ?_⟩
  exact proportional_passes tolerant (strong_of_validated validated) positive proportional scaled fun member inside =>
    assigned member (List.mem_filter.1 inside).1

section

variable {index : Nat} {claim : RationalClaim} {delta : ℚ}

theorem totalStrength_set (found : claims[index]? = some claim) :
    totalStrength (claims.set index { claim with strength := claim.strength + delta }) = totalStrength claims + delta := by
  obtain ⟨inside, rfl⟩ := List.getElem?_eq_some_iff.1 found
  rw [totalStrength, List.map_set, List.sum_set', totalStrength, dif_pos (by simpa using inside), List.getElem_map]
  ring

theorem validated_set (validated : validateExactClaims claims = .ok ()) (found : claims[index]? = some claim) (gains : 0 < delta) :
    validateExactClaims (claims.set index { claim with strength := claim.strength + delta }) = .ok () := by
  obtain ⟨each, distinct⟩ := validateExactClaims_eq_ok.1 validated
  refine validateExactClaims_eq_ok.2 ⟨fun other member => ?_, ?_⟩
  · rcases List.mem_or_eq_of_mem_set member with listed | rfl
    · exact each other listed
    · obtain ⟨named, strong⟩ := validateExactClaim_eq_ok.1 (each claim (List.mem_of_getElem? found))
      exact validateExactClaim_eq_ok.2 ⟨named, add_pos strong gains⟩
  · obtain ⟨inside, rfl⟩ := List.getElem?_eq_some_iff.1 found
    have same := @List.set_getElem_self _ (claims.map (·.claimantId)) index (by simpa using inside)
    rw [List.getElem_map] at same
    rw [List.map_set, same]
    exact distinct

theorem proportional_monotone (tolerant : 0 ≤ tolerance) (priorityClasses : List String) (validated : validateExactClaims claims = .ok ())
    (positive : 0 < estate.total) {deltas : List ℚ} (upward : ∀ delta ∈ deltas, 0 < delta) : ∃ name tested,
      checkMonotonicity tolerance (proportionalRule priorityClasses).toExactRule claims estate false deltas = .ok (.admissible name tested) := by
  obtain ⟨original, evaluated, proportional⟩ := evaluate_proportional tolerant priorityClasses validated positive
  have strong := strong_of_validated validated
  refine checkMonotonicity_admissible.2 ⟨original, evaluated, fun index claim found delta listed => ?_⟩
  have gains := upward delta listed
  have known := List.mem_of_getElem? found
  have whole := totalStrength_pos strong (List.ne_nil_of_mem known)
  have inside : claim.strength ≤ totalStrength claims := by
    refine List.single_le_sum (fun strength member => ?_) _ (List.mem_map.2 ⟨claim, known, rfl⟩)
    obtain ⟨other, there, rfl⟩ := List.mem_map.1 member
    exact (strong other there).le
  obtain ⟨strengthened, again, stronger⟩ := @evaluate_proportional tolerance _ estate tolerant priorityClasses
    (validated_set validated found gains) positive
  have renamed : ({ claim with strength := claim.strength + delta } : RationalClaim) ∈ claims.set index { claim with strength := claim.strength + delta } :=
    List.mem_set (List.getElem?_eq_some_iff.1 found).1 _
  refine ⟨add_pos (strong claim known) gains, strengthened, again,
    ⟨proportional.valid.provided claim known, (stronger.valid.provided _ renamed :)⟩, fun lost => ?_⟩
  have after := stronger.share _ renamed
  rw [totalStrength_set found] at after
  have grows := part_le_part_add positive.le whole inside gains.le
  rw [← proportional.share claim known, ← after] at grows
  have slackened : 0 ≤ slack tolerance (shareOf original claim.claimantId) (shareOf strengthened claim.claimantId) := by unfold slack; positivity
  simp only [StrengthViolation, Bool.false_eq_true, if_false, Lost] at lost
  linarith

end

/-- All three checkers accept the proportional rule, on valid claims of any number; it gives the whole estate away where there is a claim. -/
theorem proportional_accepted (tolerance : ℚ) (tolerant : 0 ≤ tolerance) (priorityClasses : List String) (claims : List RationalClaim)
    (estate : RationalEstate) (claimants : List Claimant) (scales deltas : List ℚ) (named : ∀ claim ∈ claims, isBlank claim.claimantId = false)
    (strong : ∀ claim ∈ claims, 0 < claim.strength) (distinct : (claims.map (·.claimantId)).Nodup) (positive : 0 < estate.total)
    (assigned : ∀ claimant ∈ claimants, claimant.id ∈ claims.map (·.claimantId)) (scaled : ∀ scale ∈ scales, 0 < scale)
    (gains : ∀ delta ∈ deltas, 0 < delta) :
    (∃ name tested, checkFullConsistency tolerance (proportionalRule priorityClasses).toExactRule claims estate ⟨.full, true⟩ =
      .ok (.admissible name tested)) ∧
    (∃ name tested, checkSolidarity tolerance (proportionalRule priorityClasses) claims estate claimants scales = .ok (.admissible name tested)) ∧
    (∃ name tested, checkMonotonicity tolerance (proportionalRule priorityClasses).toExactRule claims estate false deltas =
      .ok (.admissible name tested)) ∧
    ∃ allocation, evaluateExactRule tolerance (proportionalRule priorityClasses).toExactRule claims estate = .ok allocation ∧
      (claims ≠ [] → (allocation.toList.map (·.2)).sum = estate.total) := by
  have validated : validateExactClaims claims = .ok () :=
    validateExactClaims_eq_ok.2 ⟨fun claim listed => validateExactClaim_eq_ok.2 ⟨named claim listed, strong claim listed⟩, distinct⟩
  refine ⟨proportional_consistent tolerant priorityClasses validated positive,
    proportional_solidary tolerant priorityClasses validated positive assigned scaled,
    proportional_monotone tolerant priorityClasses validated positive gains, ?_⟩
  obtain ⟨allocation, evaluated, proportional⟩ := evaluate_proportional tolerant priorityClasses validated positive
  exact ⟨allocation, evaluated, fun some => (proportional.valid.sum_toList distinct).trans (proportional.sumShares_eq strong some)⟩

theorem proportional_accepted_pair : ∃ name tested,
    checkSolidarity (1 / 10 ^ 9) (proportionalRule ["standard"]) [⟨"alice", 1⟩, ⟨"bob", 2⟩] ⟨9, "units"⟩
      [⟨"alice", "standard"⟩, ⟨"bob", "standard"⟩] [1 / 2, 3 / 2] = .ok (.admissible name tested) :=
  (proportional_accepted (1 / 10 ^ 9) (by norm_num) ["standard"] [⟨"alice", 1⟩, ⟨"bob", 2⟩] ⟨9, "units"⟩
    [⟨"alice", "standard"⟩, ⟨"bob", "standard"⟩] [1 / 2, 3 / 2] [1 / 4, 1] (by decide +kernel) (by decide) (by decide) (by norm_num) (by decide)
    (by decide +kernel) (by decide +kernel)).2.1

/-- Without a claim nothing is given away, and a claimant without a name is refused. -/
theorem proportional_limits :
    (∃ allocation, evaluateExactRule (1 / 10 ^ 9) (proportionalRule ["standard"]).toExactRule [] ⟨9, "units"⟩ = .ok allocation ∧
      (allocation.toList.map (·.2)).sum ≠ 9) ∧
    checkFullConsistency (1 / 10 ^ 9) (proportionalRule ["standard"]).toExactRule [⟨"", 1⟩] ⟨9, "units"⟩ ⟨.full, true⟩ =
      .error (.invalidClaimantId "") := by
  obtain ⟨allocation, evaluated, proportional⟩ := @evaluate_proportional (1 / 10 ^ 9) [] ⟨9, "units"⟩ (by norm_num) ["standard"] rfl (by norm_num)
  refine ⟨⟨allocation, evaluated, ?_⟩, rfl⟩
  rw [proportional.valid.sum_toList List.nodup_nil, sumShares, List.map_nil, List.sum_nil]
  norm_num

end

end Legitimacy.Diagnostics
