import Legitimacy.ConsistencyPaths

namespace Legitimacy.Diagnostics

open ExceptRun

section

variable {rule : ExactRule} {claims : List RationalClaim} {estate : RationalEstate}

theorem checkFullConsistency_admissible {options : FullConsistencyOptions} :
    (∃ name tested, checkFullConsistency 0 rule claims estate options = .ok (.admissible name tested)) ↔ FloatAdmits rule claims estate options := by
  simp only [checkFullConsistency, FloatAdmits, bind_eq_ok, Except.ok.injEq]
  constructor
  · rintro ⟨name, tested, ⟨verdict, complexity⟩, run, rfl⟩
    exact ⟨name, tested, complexity, run⟩
  · rintro ⟨name, tested, complexity, run⟩
    exact ⟨name, tested, _, run, rfl⟩

theorem checkBoundedConsistency_admissible {maxRemoved : Nat} :
    (∃ name tested, checkBoundedConsistency 0 rule claims estate maxRemoved = .ok (.admissible name tested)) ↔
      FloatAdmits rule claims estate ⟨.bounded maxRemoved, false⟩ := by
  rw [← checkFullConsistency_admissible]
  rfl

end

abbrev Problem : Type := List RationalClaim × RationalEstate

inductive Reduces (rule : ExactRule) : Problem → Problem → Prop
  | remove {claims : List RationalClaim} {estate : RationalEstate} {original : RationalAllocation} {index : Nat}
      (evaluated : evaluateExactRule 0 rule claims estate = .ok original) (inside : index < claims.length)
      (left : 0 < sumShares original (reducedClaims claims [index])) :
      Reduces rule (claims, estate) (reducedClaims claims [index], { estate with total := sumShares original (reducedClaims claims [index]) })

section

variable {rule : ExactRule} {claims : List RationalClaim} {estate : RationalEstate} {original : RationalAllocation}

theorem SameShare.trans {first second third : RationalAllocation} {id : ClaimantId} (before : SameShare first second id)
    (after : SameShare second third id) : SameShare first third id := by
  obtain ⟨share, atFirst, atSecond⟩ := before
  obtain ⟨other, again, atThird⟩ := after
  obtain rfl := Option.some.inj (atSecond.symm.trans again)
  exact ⟨share, atFirst, atThird⟩

theorem sumShares_same {reduced : RationalAllocation} (same : ∀ claim ∈ claims, SameShare original reduced claim.claimantId) :
    sumShares reduced claims = sumShares original claims := by
  refine congrArg List.sum (List.map_congr_left fun claim member => ?_)
  obtain ⟨share, atOriginal, atReduced⟩ := same claim member
  rw [shareOf, shareOf, atOriginal, atReduced]

theorem survivors_survivors (first second : Finset ClaimantId) : survivors (survivors claims first) second = survivors claims (first ∪ second) := by
  rw [survivors, survivors, survivors, List.filter_filter]
  refine List.filter_congr fun claim _ => ?_
  rw [← Bool.decide_and, decide_eq_decide, Finset.mem_union, not_or, and_comm]

theorem sumShares_survivors_le (nonnegative : ∀ id, 0 ≤ shareOf original id) (removed : Finset ClaimantId) :
    sumShares original (survivors claims removed) ≤ sumShares original claims := by
  refine List.Sublist.sum_le_sum (List.filter_sublist.map _) fun share member => ?_
  obtain ⟨claim, -, rfl⟩ := List.mem_map.1 member
  exact nonnegative claim.claimantId

theorem exists_index (distinct : (claims.map (·.claimantId)).Nodup) {id : ClaimantId} (listed : id ∈ claims.map (·.claimantId)) :
    ∃ index < claims.length, (removedIds (·.claimantId) claims [index]).toFinset = {id} ∧ reducedClaims claims [index] = survivors claims {id} := by
  obtain ⟨claim, member, rfl⟩ := List.mem_map.1 listed
  obtain ⟨index, found⟩ := List.getElem?_of_mem member
  have alone : (removedIds (·.claimantId) claims [index]).toFinset = {claim.claimantId} := by simp [removedIds, found]
  exact ⟨index, (List.getElem?_eq_some_iff.1 found).1, alone, by rw [survivors_eq distinct, alone]⟩

theorem keepsSurvivors_single (admits : FloatAdmits rule claims estate ⟨.bounded 1, false⟩) (allocated : rule.allocate 0 claims estate = .ok original)
    {id : ClaimantId} (proper : ProperRemoval (·.claimantId) claims {id}) : KeepsSurvivors rule claims estate original {id} := by
  obtain ⟨-, validated, baseline, again, keeps⟩ := floatAdmits_iff.1 admits
  obtain rfl := Except.ok.inj (again.symm.trans allocated)
  have distinct := (validateExactClaims_eq_ok.1 validated).2
  obtain ⟨index, inside, alone, -⟩ := exists_index distinct (proper.listed id (Finset.mem_singleton_self id))
  obtain ⟨claim, member, other⟩ := proper.survivor
  obtain ⟨place, found⟩ := List.getElem?_of_mem member
  have apart : place ≠ index := by
    rintro rfl
    refine other ?_
    rw [← alone, List.mem_toFinset]
    exact (mem_removedIds distinct found).2 (List.mem_singleton_self place)
  have placed := (List.getElem?_eq_some_iff.1 found).1
  have removable : 0 < ConsistencyMode.bound (.bounded 1) claims.length := by
    simp only [ConsistencyMode.bound]
    omega
  rw [← alone]
  exact keeps [index] (single_mem_coalitions removable inside)

/-- The induction is on the removed claimants: one of them goes first, and the others from what is left. -/
theorem keepsSurvivors_of_singles (removed : Finset ClaimantId)
    (singles : ∀ cohort left, Relation.ReflTransGen (Reduces rule) (claims, estate) (cohort, left) → FloatAdmits rule cohort left ⟨.bounded 1, false⟩)
    (allocated : rule.allocate 0 claims estate = .ok original) (proper : ProperRemoval (·.claimantId) claims removed) :
    KeepsSurvivors rule claims estate original removed := by
  induction removed using Finset.induction_on generalizing claims estate original with
  | empty => exact absurd proper.nonempty Finset.not_nonempty_empty
  | insert id rest fresh ih =>
    have here := singles claims estate .refl
    obtain ⟨-, validated, -⟩ := floatAdmits_iff.1 here
    have distinct := (validateExactClaims_eq_ok.1 validated).2
    have valid := exactRule_valid allocated
    obtain ⟨survivor, listed, kept⟩ := proper.survivor
    rw [Finset.mem_insert, not_or] at kept
    have first : ProperRemoval (·.claimantId) claims {id} :=
      ⟨Finset.singleton_nonempty id, fun other member => proper.listed other (Finset.mem_insert.2 (.inl (Finset.mem_singleton.1 member))),
        survivor, listed, fun member => kept.1 (Finset.mem_singleton.1 member)⟩
    have single := keepsSurvivors_single here allocated first
    rcases rest.eq_empty_or_nonempty with rfl | nonempty
    · exact single
    · intro positive
      have both : survivors (survivors claims {id}) rest = survivors claims (insert id rest) := survivors_survivors {id} rest
      have left : 0 < sumShares original (survivors claims {id}) := by
        rw [← both] at positive
        exact positive.trans_le (sumShares_survivors_le valid.nonnegative rest)
      obtain ⟨reduced, reallocated, same⟩ := single left
      obtain ⟨index, inside, -, gone⟩ := exists_index distinct (proper.listed id (Finset.mem_insert_self id rest))
      have reduces : Reduces rule (claims, estate) (survivors claims {id}, { estate with total := sumShares original (survivors claims {id}) }) := by
        rw [← gone]
        exact .remove (bind_eq_ok.2 ⟨(), validated, allocated⟩) inside (gone ▸ left)
      have later : ProperRemoval (·.claimantId) (survivors claims {id}) rest := by
        refine ⟨nonempty, fun other member => ?_, survivor, List.mem_filter.2 ⟨listed, ?_⟩, kept.2⟩
        · obtain ⟨claim, present, rfl⟩ := List.mem_map.1 (proper.listed other (Finset.mem_insert_of_mem member))
          refine List.mem_map.2 ⟨claim, List.mem_filter.2 ⟨present, decide_eq_true fun alone => ?_⟩, rfl⟩
          exact fresh (Finset.mem_singleton.1 alone ▸ member)
        · exact decide_eq_true fun alone => kept.1 (Finset.mem_singleton.1 alone)
      have again := ih (fun cohort below reached => singles cohort below (.head reduces reached)) reallocated later
      have shares : sumShares reduced (survivors claims (insert id rest)) = sumShares original (survivors claims (insert id rest)) :=
        sumShares_same fun claim member => same claim (List.mem_filter.1 (both ▸ member)).1
      rw [KeepsSurvivors, both, shares] at again
      obtain ⟨outcome, made, unchanged⟩ := again positive
      exact ⟨outcome, made, fun claim member => (same claim (List.mem_filter.1 (both ▸ member)).1).trans (unchanged claim member)⟩

end

/-- Young consistency under single removals, here and at every problem that this one reduces to by them, is full Young consistency. -/
theorem checkFullConsistency_of_singles (rule : ExactRule) (claims : List RationalClaim) (estate : RationalEstate) (allowExponential : Bool)
    (singles : ∀ cohort left, Relation.ReflTransGen (Reduces rule) (claims, estate) (cohort, left) →
      ∃ name tested, checkBoundedConsistency 0 rule cohort left 1 = .ok (.admissible name tested))
    (passed : validateFullComplexityGate claims.length allowExponential = .ok ()) :
    ∃ name tested, checkFullConsistency 0 rule claims estate ⟨.full, allowExponential⟩ = .ok (.admissible name tested) := by
  have admits : ∀ cohort left, Relation.ReflTransGen (Reduces rule) (claims, estate) (cohort, left) →
      FloatAdmits rule cohort left ⟨.bounded 1, false⟩ := fun cohort left reached => checkBoundedConsistency_admissible.1 (singles cohort left reached)
  obtain ⟨-, validated, baseline, allocated, -⟩ := floatAdmits_iff.1 (admits claims estate .refl)
  have distinct := (validateExactClaims_eq_ok.1 validated).2
  refine checkFullConsistency_admissible.2 (floatAdmits_iff.2 ⟨passed, validated, baseline, allocated, fun indices member => ?_⟩)
  exact keepsSurvivors_of_singles _ admits allocated (properRemoval_of_coalition distinct member)

section

/-- Everyone gets 1, whatever there is. -/
def flatRule : ExactRule := ⟨fun claims _ => .ok (allocationOf (fun _ => 1) claims), false⟩

variable {claims : List RationalClaim} {estate : RationalEstate}

theorem flatRule_allocate : flatRule.allocate 0 claims estate = .ok (allocationOf (fun _ => 1) claims) :=
  bind_eq_ok.2 ⟨_, rfl, bind_eq_ok.2 ⟨(), validate_eq_ok.2 (allocationOf_valid fun _ => zero_le_one), rfl⟩⟩

theorem flatRule_admits (validated : validateExactClaims claims = .ok ()) {options : FullConsistencyOptions}
    (passed : options.gate claims.length = .ok ()) : FloatAdmits flatRule claims estate options := by
  refine floatAdmits_iff.2 ⟨passed, validated, _, flatRule_allocate, fun indices _ _ => ⟨_, flatRule_allocate, fun claim survives => ⟨1, ?_, ?_⟩⟩⟩
  · rw [allocationOf_lookup, if_pos (List.mem_map.2 ⟨claim, (List.mem_filter.1 survives).1, rfl⟩)]
  · rw [allocationOf_lookup, if_pos (List.mem_map.2 ⟨claim, survives, rfl⟩)]

theorem Reduces.validated {before after : Problem} (reduces : Reduces flatRule before after) : validateExactClaims after.1 = .ok () := by
  cases reduces with
  | remove evaluated inside left =>
    obtain ⟨⟨⟩, validated, -⟩ := bind_eq_ok.1 evaluated
    rw [survivors_eq (validateExactClaims_eq_ok.1 validated).2]
    exact survivors_validated validated _

/-- Of three claimants with 1 each, any two can go. -/
theorem checkFullConsistency_of_singles_flat : ∃ name tested,
    checkFullConsistency 0 flatRule [⟨"a", 1⟩, ⟨"b", 1⟩, ⟨"c", 1⟩] ⟨3, "units"⟩ ⟨.full, false⟩ = .ok (.admissible name tested) := by
  refine checkFullConsistency_of_singles _ _ _ _ (fun cohort left reached => ?_) rfl
  refine checkBoundedConsistency_admissible.2 (flatRule_admits ?_ rfl)
  rcases Relation.ReflTransGen.cases_tail reached with same | ⟨between, -, last⟩
  · obtain ⟨rfl, -⟩ := Prod.mk.inj same
    decide +kernel
  · exact last.validated

end

end Legitimacy.Diagnostics
