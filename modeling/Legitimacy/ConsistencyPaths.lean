import Legitimacy.YoungExactness
import Mathlib.Algebra.Order.BigOperators.Group.List
import Mathlib.Tactic.Linarith

namespace Legitimacy.Diagnostics

open ExceptRun

section

variable {claims : List RationalClaim}

theorem validateUnseenExactClaims_eq_ok {seen : BTreeSet ClaimantId} : validateUnseenExactClaims seen claims = .ok () ↔
    (∀ claim ∈ claims, validateExactClaim claim = .ok ()) ∧ (claims.map (·.claimantId)).Nodup ∧ ∀ claim ∈ claims, claim.claimantId ∉ seen := by
  induction claims generalizing seen with
  | nil => simp [validateUnseenExactClaims]
  | cons claim rest ih =>
    rw [validateUnseenExactClaims, bind_eq_ok]
    simp only [guard_eq_ok, ih, List.forall_mem_cons, List.map_cons, List.nodup_cons, Std.ExtTreeSet.contains_iff_mem, Std.ExtTreeSet.mem_insert,
      Std.LawfulEqCmp.compare_eq_iff_eq]
    grind

theorem validateExactClaims_eq_ok : validateExactClaims claims = .ok () ↔
    (∀ claim ∈ claims, validateExactClaim claim = .ok ()) ∧ (claims.map (·.claimantId)).Nodup := by
  unfold validateExactClaims
  rw [validateUnseenExactClaims_eq_ok]
  simp

theorem survivors_validated (validated : validateExactClaims claims = .ok ()) (removed : Finset ClaimantId) :
    validateExactClaims (survivors claims removed) = .ok () := by
  rw [validateExactClaims_eq_ok] at validated ⊢
  exact ⟨fun claim member => validated.1 claim (List.mem_filter.1 member).1, validated.2.sublist (List.filter_sublist.map _)⟩

end

section

variable {allocation : RationalAllocation} {claims : List RationalClaim}

theorem mem_expectedIds {id : ClaimantId} :
    id ∈ claims.foldl (fun (ids : BTreeSet ClaimantId) claim => ids.insert claim.claimantId) ∅ ↔ id ∈ claims.map (·.claimantId) := by
  suffices general : ∀ ids : BTreeSet ClaimantId, id ∈ claims.foldl (fun (ids : BTreeSet ClaimantId) claim => ids.insert claim.claimantId) ids ↔
      id ∈ ids ∨ id ∈ claims.map (·.claimantId) by simpa using general ∅
  induction claims with
  | nil => simp
  | cons claim rest ih =>
    intro ids
    rw [List.foldl_cons, ih, Std.ExtTreeSet.mem_insert, List.map_cons, List.mem_cons, Std.LawfulEqCmp.compare_eq_iff_eq]
    grind

/-- An allocation of these claims: a share for each, none negative, and nobody else's. -/
structure ValidFor (allocation : RationalAllocation) (claims : List RationalClaim) : Prop where
  provided : ∀ claim ∈ claims, claim.claimantId ∈ allocation
  nonnegative : ∀ id, 0 ≤ shareOf allocation id
  listed : ∀ id ∈ allocation, id ∈ claims.map (·.claimantId)

theorem validate_eq_ok : RationalAllocation.validate allocation claims = .ok () ↔ ValidFor allocation claims := by
  unfold RationalAllocation.validate
  dsimp only
  rw [bind_eq_ok]
  constructor
  · rintro ⟨⟨⟩, provided, entries⟩
    have entry : ∀ id value, allocation[id]? = some value → 0 ≤ value ∧ id ∈ claims.map (·.claimantId) := by
      intro id value found
      have checked := forM_eq_ok.1 entries (id, value) (Std.ExtTreeMap.mem_toList_iff_getElem?_eq_some.2 found)
      obtain ⟨positive, checked⟩ := guard_eq_ok.1 checked
      obtain ⟨known, -⟩ := guard_eq_ok.1 checked
      exact ⟨not_lt.1 positive, mem_expectedIds.1 (Std.ExtTreeSet.contains_iff_mem.1 (not_not.1 known))⟩
    refine ⟨fun claim member => ?_, fun id => ?_, fun id member => ?_⟩
    · have expected := mem_expectedIds.2 (List.mem_map.2 ⟨claim, member, rfl⟩)
      have checked := forM_eq_ok.1 provided _ (Std.ExtTreeSet.mem_toList.2 expected)
      by_contra absent
      rw [if_neg (mt Std.ExtTreeMap.contains_iff_mem.1 absent)] at checked
      cases checked
    · cases found : allocation[id]? with
      | none => rw [shareOf, found, Option.getD_none]
      | some value =>
        rw [shareOf, found, Option.getD_some]
        exact (entry id value found).1
    · obtain ⟨value, found⟩ := mem_iff_lookup.1 member
      exact (entry id value found).2
  · rintro ⟨provided, nonnegative, listed⟩
    refine ⟨(), forM_eq_ok.2 fun id expected => ?_, forM_eq_ok.2 fun entry member => ?_⟩
    · obtain ⟨claim, member, rfl⟩ := List.mem_map.1 (mem_expectedIds.1 (Std.ExtTreeSet.mem_toList.1 expected))
      rw [if_pos (Std.ExtTreeMap.contains_iff_mem.2 (provided claim member))]
    · obtain ⟨id, value⟩ := entry
      have found := Std.ExtTreeMap.mem_toList_iff_getElem?_eq_some.1 member
      have positive := nonnegative id
      rw [shareOf, found, Option.getD_some] at positive
      have known := mem_expectedIds.2 (listed id (mem_iff_lookup.2 ⟨value, found⟩))
      exact guard_eq_ok.2 ⟨not_lt.2 positive, guard_eq_ok.2 ⟨not_not.2 (Std.ExtTreeSet.contains_iff_mem.2 known), rfl⟩⟩

def sumShares (allocation : RationalAllocation) (claims : List RationalClaim) : ℚ := (claims.map fun claim => shareOf allocation claim.claimantId).sum

theorem sumShares_nonneg (valid : ∀ id, 0 ≤ shareOf allocation id) (cohort : List RationalClaim) : 0 ≤ sumShares allocation cohort := by
  refine List.sum_nonneg fun share member => ?_
  obtain ⟨claim, -, rfl⟩ := List.mem_map.1 member
  exact valid claim.claimantId

theorem share_le_sumShares (valid : ∀ id, 0 ≤ shareOf allocation id) {cohort : List RationalClaim} {claim : RationalClaim}
    (member : claim ∈ cohort) : shareOf allocation claim.claimantId ≤ sumShares allocation cohort := by
  refine List.single_le_sum (fun share listed => ?_) _ (List.mem_map.2 ⟨claim, member, rfl⟩)
  obtain ⟨other, -, rfl⟩ := List.mem_map.1 listed
  exact valid other.claimantId

theorem sumShares_split (distinct : (claims.map (·.claimantId)).Nodup) {removed : Finset ClaimantId}
    (listed : ∀ id ∈ removed, id ∈ claims.map (·.claimantId)) :
    ∑ id ∈ removed, shareOf allocation id + sumShares allocation (survivors claims removed) = sumShares allocation claims := by
  have inside : removed = ((claims.filter fun claim => claim.claimantId ∈ removed).map (·.claimantId)).toFinset := by
    ext id
    simp only [List.mem_toFinset, List.mem_map, List.mem_filter, decide_eq_true_eq]
    constructor
    · intro member
      obtain ⟨claim, isListed, rfl⟩ := List.mem_map.1 (listed id member)
      exact ⟨claim, ⟨isListed, member⟩, rfl⟩
    · rintro ⟨claim, ⟨-, member⟩, rfl⟩
      exact member
  have gone : ∑ id ∈ removed, shareOf allocation id = sumShares allocation (claims.filter fun claim => claim.claimantId ∈ removed) := by
    conv_lhs => rw [inside]
    rw [List.sum_toFinset _ (distinct.sublist (List.filter_sublist.map _)), List.map_map]
    rfl
  have partition := List.filter_append_perm (fun claim : RationalClaim => decide (claim.claimantId ∈ removed)) claims
  rw [gone, sumShares, sumShares, ← List.sum_append, ← List.map_append, sumShares]
  refine List.Perm.sum_eq ((List.Perm.trans ?_ partition).map _)
  simp [survivors]

theorem reducedEstate_total (distinct : (claims.map (·.claimantId)).Nodup) {estate : RationalEstate} {removed : Finset ClaimantId}
    (listed : ∀ id ∈ removed, id ∈ claims.map (·.claimantId)) :
    (reducedEstate estate allocation removed).total =
      sumShares allocation (survivors claims removed) + (estate.total - sumShares allocation claims) := by
  rw [reducedEstate, ← sumShares_split distinct listed]
  ring

def allocationOf (share : ClaimantId → ℚ) (claims : List RationalClaim) : RationalAllocation :=
  claims.foldl (fun allocation claim => allocation.insert claim.claimantId (share claim.claimantId)) ∅

theorem allocationOf_lookup {share : ClaimantId → ℚ} {id : ClaimantId} :
    (allocationOf share claims)[id]? = if id ∈ claims.map (·.claimantId) then some (share id) else none := by
  suffices general : ∀ start : RationalAllocation,
      (claims.foldl (fun allocation claim => allocation.insert claim.claimantId (share claim.claimantId)) start)[id]? =
        if id ∈ claims.map (·.claimantId) then some (share id) else start[id]? by simpa [allocationOf] using general ∅
  induction claims with
  | nil => simp
  | cons claim rest ih =>
    intro start
    rw [List.foldl_cons, ih, lookup_insert, List.map_cons]
    by_cases later : id ∈ rest.map (·.claimantId)
    · simp [later]
    · by_cases same : id = claim.claimantId
      · simp [same]
      · simp [later, same]

theorem allocationOf_valid {share : ClaimantId → ℚ} (nonnegative : ∀ id, 0 ≤ share id) : ValidFor (allocationOf share claims) claims := by
  refine ⟨fun claim member => mem_iff_lookup.2 ⟨share claim.claimantId, ?_⟩, fun id => ?_, fun id member => ?_⟩
  · rw [allocationOf_lookup, if_pos (List.mem_map.2 ⟨claim, member, rfl⟩)]
  · rw [shareOf, allocationOf_lookup]
    split
    · exact nonnegative id
    · exact le_refl 0
  · obtain ⟨value, found⟩ := mem_iff_lookup.1 member
    rw [allocationOf_lookup] at found
    split at found
    case isTrue listed => exact listed
    case isFalse => cases found

theorem ValidFor.lookup (valid : ValidFor allocation claims) {claim : RationalClaim} (member : claim ∈ claims) :
    allocation[claim.claimantId]? = some (shareOf allocation claim.claimantId) := by
  obtain ⟨value, found⟩ := mem_iff_lookup.1 (valid.provided claim member)
  rw [shareOf, found, Option.getD_some]

theorem ValidFor.eq_allocationOf (valid : ValidFor allocation claims) : allocationOf (shareOf allocation) claims = allocation := by
  refine Std.ExtTreeMap.ext_getElem? fun {id} => ?_
  rw [allocationOf_lookup]
  split
  case isTrue listed =>
    obtain ⟨claim, member, rfl⟩ := List.mem_map.1 listed
    exact (valid.lookup member).symm
  case isFalse absent =>
    cases found : allocation[id]? with
    | none => rfl
    | some value => exact absurd (valid.listed id (mem_iff_lookup.2 ⟨value, found⟩)) absent

end

section

variable {rule : ExactRule} {claims : List RationalClaim} {estate : RationalEstate} {original reduced : RationalAllocation}

theorem exactRule_valid {tolerance : ℚ} (allocated : rule.allocate tolerance claims estate = .ok original) : ValidFor original claims := by
  obtain ⟨allocation, -, rest⟩ := bind_eq_ok.1 allocated
  obtain ⟨⟨⟩, validated, rest⟩ := bind_eq_ok.1 rest
  split at rest
  · obtain ⟨⟨⟩, -, made⟩ := bind_eq_ok.1 rest
    exact Except.ok.inj made ▸ validate_eq_ok.1 validated
  · exact Except.ok.inj rest ▸ validate_eq_ok.1 validated

theorem compareReduced_none {cohort : List RationalClaim} (complexity : ConsistencyComplexity) :
    (∃ after, compareReduced 0 original reduced cohort complexity = .ok (none, after)) ↔
      ∀ claim ∈ cohort, SameShare original reduced claim.claimantId := by
  induction cohort generalizing complexity with
  | nil => exact iff_of_true ⟨complexity, rfl⟩ (by simp)
  | cons claim rest ih =>
    rw [List.forall_mem_cons]
    have step := ih { complexity with survivorChecks := complexity.survivorChecks + 1 }
    simp only [compareReduced, bind_eq_ok, rationalShare_eq_ok, zero_mul, add_zero, gt_iff_lt, abs_pos]
    constructor
    · rintro ⟨after, originalShare, atOriginal, reducedShare, atReduced, run⟩
      split at run
      · cases run
      case isFalse same =>
        have equal : originalShare = reducedShare := sub_eq_zero.1 (not_not.1 same)
        exact ⟨⟨originalShare, atOriginal, equal ▸ atReduced⟩, step.1 ⟨after, run⟩⟩
    · rintro ⟨⟨share, atOriginal, atReduced⟩, others⟩
      obtain ⟨after, run⟩ := step.2 others
      refine ⟨after, share, atOriginal, share, atReduced, ?_⟩
      rw [if_neg (not_not.2 (sub_self share))]
      exact run

/-- What the floating-point path asks of a removal: the rule divides what the survivors had among them as before. -/
def KeepsSurvivors (rule : ExactRule) (claims : List RationalClaim) (estate : RationalEstate) (original : RationalAllocation)
    (removed : Finset ClaimantId) : Prop :=
  0 < sumShares original (survivors claims removed) →
    ∃ reduced, rule.allocate 0 (survivors claims removed) { estate with total := sumShares original (survivors claims removed) } = .ok reduced ∧
      ∀ claim ∈ survivors claims removed, SameShare original reduced claim.claimantId

theorem evaluateReduction_none {mode : ConsistencyMode} {indices : List Nat} {axiomName : String}
    (validated : validateExactClaims claims = .ok ()) (valid : ValidFor original claims)
    (member : indices ∈ coalitions claims.length mode) (complexity : ConsistencyComplexity) :
    (∃ after, evaluateReduction 0 rule claims estate original indices complexity axiomName = .ok (none, after)) ↔
      KeepsSurvivors rule claims estate original (removedIds (·.claimantId) claims indices).toFinset := by
  have distinct := (validateExactClaims_eq_ok.1 validated).2
  have nonempty := survivors_nonempty (properRemoval_of_coalition distinct member)
  have shares : (survivors claims (removedIds (·.claimantId) claims indices).toFinset).mapM (fun claim =>
      rationalShare original claim.claimantId "consistency reduction surviving share") =
      .ok ((survivors claims (removedIds (·.claimantId) claims indices).toFinset).map fun claim => shareOf original claim.claimantId) := by
    refine mapM_eq_ok.2 (List.forall₂_map_right_iff.2 (List.forall₂_same.2 fun claim survives => ?_))
    exact rationalShare_eq_ok.2 (valid.lookup (List.mem_filter.1 survives).1)
  have evaluated := survivors_validated validated (removedIds (·.claimantId) claims indices).toFinset
  unfold evaluateReduction KeepsSurvivors
  dsimp only
  rw [survivors_eq distinct, shares]
  dsimp only [bind, Except.bind]
  rw [← sumShares]
  simp only [List.isEmpty_iff, nonempty, false_or]
  by_cases left : sumShares original (survivors claims (removedIds (·.claimantId) claims indices).toFinset) ≤ 0
  · rw [if_pos left]
    exact iff_of_true ⟨_, rfl⟩ fun positive => absurd left (not_le.2 positive)
  · have run : ∀ reducedTotal, evaluateExactRule 0 rule (survivors claims (removedIds (·.claimantId) claims indices).toFinset)
        ⟨reducedTotal, estate.unit⟩ = rule.allocate 0 (survivors claims (removedIds (·.claimantId) claims indices).toFinset)
          ⟨reducedTotal, estate.unit⟩ := by
      intro reducedTotal
      rw [evaluateExactRule, evaluated]
      rfl
    simp only [if_neg left, run, not_le.1 left, true_imp_iff]
    cases allocated : rule.allocate 0 (survivors claims (removedIds (·.claimantId) claims indices).toFinset)
      ⟨sumShares original (survivors claims (removedIds (·.claimantId) claims indices).toFinset), estate.unit⟩ with
    | error failure => simp
    | ok reduced =>
      simp only [Except.ok.injEq, exists_eq_left']
      rw [← @compareReduced_none original reduced _ { complexity with coalitionsTested := complexity.coalitionsTested + 1 }]
      cases compared : compareReduced 0 original reduced (survivors claims (removedIds (·.claimantId) claims indices).toFinset)
        { complexity with coalitionsTested := complexity.coalitionsTested + 1 } with
      | error failure => simp
      | ok outcome =>
        obtain ⟨changed, after⟩ := outcome
        cases changed <;> simp

theorem evaluateReduction_some {indices : List Nat} {axiomName : String} {complexity after : ConsistencyComplexity} {verdict : ExactVerdict}
    (run : evaluateReduction 0 rule claims estate original indices complexity axiomName = .ok (some verdict, after)) :
    ∃ counterexample, verdict = .rejected axiomName counterexample := by
  obtain ⟨shares, -, run⟩ := bind_eq_ok.1 run
  dsimp only at run
  split at run
  · cases run
  case isFalse left =>
    rw [not_or] at left
    rw [if_neg left.2] at run
    obtain ⟨estate, -, run⟩ := bind_eq_ok.1 run
    obtain ⟨allocation, -, run⟩ := bind_eq_ok.1 run
    obtain ⟨⟨changed, complexity⟩, -, made⟩ := bind_eq_ok.1 run
    cases changed with
    | none => cases made
    | some change =>
      cases made
      exact ⟨_, rfl⟩

theorem evaluateReductions_admissible {mode : ConsistencyMode} {listed : List (List Nat)} {axiomName : String}
    (validated : validateExactClaims claims = .ok ()) (valid : ValidFor original claims)
    (within : ∀ indices ∈ listed, indices ∈ coalitions claims.length mode) (complexity : ConsistencyComplexity) :
    (∃ name tested after, evaluateReductions 0 rule claims estate original axiomName listed complexity = .ok ⟨.admissible name tested, after⟩) ↔
      ∀ indices ∈ listed, KeepsSurvivors rule claims estate original (removedIds (·.claimantId) claims indices).toFinset := by
  induction listed generalizing complexity with
  | nil => exact iff_of_true ⟨_, _, _, rfl⟩ (by simp)
  | cons indices rest ih =>
    obtain ⟨here, later⟩ := List.forall_mem_cons.1 within
    rw [List.forall_mem_cons, ← @evaluateReduction_none rule claims estate original mode indices axiomName validated valid here complexity]
    constructor
    · rintro ⟨name, tested, after, run⟩
      obtain ⟨⟨found, between⟩, reduced, run⟩ := bind_eq_ok.1 run
      cases found with
      | some verdict =>
        obtain ⟨rfl, -⟩ := by simpa [pure, Except.pure] using run
        obtain ⟨counterexample, rejected⟩ := evaluateReduction_some reduced
        cases rejected
      | none => exact ⟨⟨between, reduced⟩, (ih later between).1 ⟨name, tested, after, run⟩⟩
    · rintro ⟨⟨between, reduced⟩, others⟩
      obtain ⟨name, tested, after, run⟩ := (ih later between).2 others
      exact ⟨name, tested, after, bind_eq_ok.2 ⟨_, reduced, run⟩⟩

end

section

variable {rule : ExactRule} {claims : List RationalClaim} {estate : RationalEstate} {options : FullConsistencyOptions}
  {baseline : RationalAllocation}

def FloatAdmits (rule : ExactRule) (claims : List RationalClaim) (estate : RationalEstate) (options : FullConsistencyOptions) : Prop :=
  ∃ name tested complexity, checkFullConsistencyAudit 0 rule claims estate options = .ok ⟨.admissible name tested, complexity⟩

def RationalAdmits (rule : ExactRule) (claims : List RationalClaim) (estate : RationalEstate) (options : FullConsistencyOptions) : Prop :=
  ∃ complexity, checkFullConsistencyRational (rule.allocate 0) claims estate options = .ok ⟨.admissible, complexity⟩

theorem floatAdmits_iff : FloatAdmits rule claims estate options ↔
    options.gate claims.length = .ok () ∧ validateExactClaims claims = .ok () ∧ ∃ baseline, rule.allocate 0 claims estate = .ok baseline ∧
      ∀ indices ∈ coalitions claims.length options.mode,
        KeepsSurvivors rule claims estate baseline (removedIds (·.claimantId) claims indices).toFinset := by
  unfold FloatAdmits checkFullConsistencyAudit checkConsistencyWithMode
  rw [enumerated_eq]
  constructor
  · rintro ⟨name, tested, complexity, run⟩
    obtain ⟨⟨⟩, passed, run⟩ := bind_eq_ok.1 run
    obtain ⟨baseline, evaluated, run⟩ := bind_eq_ok.1 run
    obtain ⟨⟨⟩, validated, allocated⟩ := bind_eq_ok.1 evaluated
    have keeps := (evaluateReductions_admissible validated (exactRule_valid allocated) (fun _ member => member) ⟨0, 0⟩).1
      ⟨name, tested, complexity, run⟩
    exact ⟨passed, validated, baseline, allocated, keeps⟩
  · rintro ⟨passed, validated, baseline, allocated, keeps⟩
    obtain ⟨name, tested, complexity, run⟩ := (@evaluateReductions_admissible rule claims estate baseline _ _ (axiomLabel options.mode)
      validated (exactRule_valid allocated) (fun _ member => member) ⟨0, 0⟩).2 keeps
    have evaluated : evaluateExactRule 0 rule claims estate = .ok baseline := bind_eq_ok.2 ⟨(), validated, allocated⟩
    exact ⟨name, tested, complexity, bind_eq_ok.2 ⟨(), passed, bind_eq_ok.2 ⟨baseline, evaluated, run⟩⟩⟩

theorem keepsSurvivors_iff (distinct : (claims.map (·.claimantId)).Nodup) (valid : ValidFor baseline claims)
    (exhausted : sumShares baseline claims = estate.total) (indices : List Nat) :
    KeepsSurvivors rule claims estate baseline (removedIds (·.claimantId) claims indices).toFinset ↔
      KeepsShares (rule.allocate 0) claims estate baseline (removedIds (·.claimantId) claims indices).toFinset := by
  have listed : ∀ id ∈ (removedIds (·.claimantId) claims indices).toFinset, id ∈ claims.map (·.claimantId) :=
    fun id member => removedIds_subset (List.mem_toFinset.1 member)
  have provided : ∀ id ∈ (removedIds (·.claimantId) claims indices).toFinset, id ∈ baseline := by
    intro id member
    obtain ⟨claim, isListed, rfl⟩ := List.mem_map.1 (listed id member)
    exact valid.provided claim isListed
  have total := @reducedEstate_total baseline claims distinct estate _ listed
  rw [exhausted, sub_self, add_zero] at total
  have same : reducedEstate estate baseline (removedIds (·.claimantId) claims indices).toFinset =
      { estate with total := sumShares baseline (survivors claims (removedIds (·.claimantId) claims indices).toFinset) } := by
    rw [← total]
    rfl
  unfold KeepsSurvivors KeepsShares
  rw [same]
  exact (and_iff_right provided).symm

end

section

variable {claims : List RationalClaim} {estate : RationalEstate} {options : FullConsistencyOptions} {baseline : RationalAllocation}
  {shifts : List RationalClaim → RationalEstate → Bool}

/-- Everyone has the same share as in the baseline, and one more in the smaller problems where the rule shifts. -/
def shiftingRule (baseline : RationalAllocation) (whole : Nat) (shifts : List RationalClaim → RationalEstate → Bool) : ExactRule where
  allocateSpec claims estate :=
    .ok (allocationOf (fun id => shareOf baseline id + if claims.length < whole ∧ shifts claims estate then 1 else 0) claims)
  requiresFeasibleAllocation := false

theorem shiftingRule_allocate {whole : Nat} (nonnegative : ∀ id, 0 ≤ shareOf baseline id) (cohort : List RationalClaim) (estate : RationalEstate) :
    (shiftingRule baseline whole shifts).allocate 0 cohort estate =
      .ok (allocationOf (fun id => shareOf baseline id + if cohort.length < whole ∧ shifts cohort estate then 1 else 0) cohort) := by
  have valid : ValidFor (allocationOf (fun id => shareOf baseline id + if cohort.length < whole ∧ shifts cohort estate then 1 else 0) cohort)
      cohort := by
    refine allocationOf_valid fun id => add_nonneg (nonnegative id) ?_
    split
    · exact zero_le_one
    · exact le_refl 0
  exact bind_eq_ok.2 ⟨_, rfl, bind_eq_ok.2 ⟨(), validate_eq_ok.2 valid, rfl⟩⟩

theorem shiftingRule_baseline (valid : ValidFor baseline claims) :
    (shiftingRule baseline claims.length shifts).allocate 0 claims estate = .ok baseline := by
  rw [shiftingRule_allocate valid.nonnegative]
  simp only [Nat.lt_irrefl, false_and, if_false, add_zero]
  exact congrArg Except.ok valid.eq_allocationOf

theorem sameShare_shift (valid : ValidFor baseline claims) {cohort : List RationalClaim} {claim : RationalClaim} (inCohort : claim ∈ cohort)
    (listed : claim ∈ claims) (shift : ℚ) :
    SameShare baseline (allocationOf (fun id => shareOf baseline id + shift) cohort) claim.claimantId ↔ shift = 0 := by
  rw [SameShare, valid.lookup listed, allocationOf_lookup, if_pos (List.mem_map.2 ⟨claim, inCohort, rfl⟩)]
  simp

section

variable {indices : List Nat} (distinct : (claims.map (·.claimantId)).Nodup) (valid : ValidFor baseline claims)
  (member : indices ∈ coalitions claims.length options.mode)

include distinct valid member

theorem shiftingRule_keeps {reduced : RationalEstate} :
    (∃ allocation, (shiftingRule baseline claims.length shifts).allocate 0
        (survivors claims (removedIds (·.claimantId) claims indices).toFinset) reduced = .ok allocation ∧
      ∀ claim ∈ survivors claims (removedIds (·.claimantId) claims indices).toFinset, SameShare baseline allocation claim.claimantId) ↔
      shifts (survivors claims (removedIds (·.claimantId) claims indices).toFinset) reduced = false := by
  have proper := properRemoval_of_coalition distinct member
  have shorter : (survivors claims (removedIds (·.claimantId) claims indices).toFinset).length < claims.length := by
    obtain ⟨id, removed⟩ := proper.nonempty
    obtain ⟨claim, listed, rfl⟩ := List.mem_map.1 (proper.listed id removed)
    exact List.length_filter_lt_length_iff_exists.2 ⟨claim, listed, by simpa using removed⟩
  obtain ⟨claim, survives⟩ := List.exists_mem_of_ne_nil _ (survivors_nonempty proper)
  rw [shiftingRule_allocate valid.nonnegative]
  simp only [Except.ok.injEq, exists_eq_left', shorter, true_and]
  constructor
  · intro same
    have unshifted := (sameShare_shift valid survives (List.mem_filter.1 survives).1 _).1 (same claim survives)
    simpa using unshifted
  · intro unshifted other member
    rw [sameShare_shift valid member (List.mem_filter.1 member).1, unshifted]
    simp

theorem keepsSurvivors_shifting :
    KeepsSurvivors (shiftingRule baseline claims.length shifts) claims estate baseline (removedIds (·.claimantId) claims indices).toFinset ↔
      (0 < sumShares baseline (survivors claims (removedIds (·.claimantId) claims indices).toFinset) →
        shifts (survivors claims (removedIds (·.claimantId) claims indices).toFinset)
          { estate with total := sumShares baseline (survivors claims (removedIds (·.claimantId) claims indices).toFinset) } = false) := by
  rw [KeepsSurvivors, shiftingRule_keeps distinct valid member]

theorem keepsShares_shifting :
    KeepsShares ((shiftingRule baseline claims.length shifts).allocate 0) claims estate baseline
        (removedIds (·.claimantId) claims indices).toFinset ↔
      (0 < (reducedEstate estate baseline (removedIds (·.claimantId) claims indices).toFinset).total →
        shifts (survivors claims (removedIds (·.claimantId) claims indices).toFinset)
          (reducedEstate estate baseline (removedIds (·.claimantId) claims indices).toFinset) = false) := by
  have provided : ∀ id ∈ (removedIds (·.claimantId) claims indices).toFinset, id ∈ baseline := by
    intro id removed
    obtain ⟨claim, listed, rfl⟩ := List.mem_map.1 (removedIds_subset (List.mem_toFinset.1 removed))
    exact valid.provided claim listed
  rw [KeepsShares, and_iff_right provided, shiftingRule_keeps distinct valid member]

end

theorem single_mem_coalitions {claimCount index : Nat} {mode : ConsistencyMode} (removable : 0 < mode.bound claimCount) (inside : index < claimCount) :
    [index] ∈ coalitions claimCount mode :=
  mem_coalitions.2 ⟨List.pairwise_singleton _ index, by simpa using inside, List.cons_ne_nil index [], removable⟩

theorem float_alone (passed : options.gate claims.length = .ok ()) (validated : validateExactClaims claims = .ok ()) (valid : ValidFor baseline claims)
    (removable : 0 < options.mode.bound claims.length) (short : sumShares baseline claims < estate.total) :
    ∃ rule : ExactRule, rule.allocate 0 claims estate = .ok baseline ∧ FloatAdmits rule claims estate options ∧
      ¬RationalAdmits rule claims estate options := by
  have distinct := (validateExactClaims_eq_ok.1 validated).2
  have several := bound_le options.mode claims.length
  refine ⟨shiftingRule baseline claims.length fun cohort estate => estate.total ≠ sumShares baseline cohort, shiftingRule_baseline valid, ?_, ?_⟩
  · refine floatAdmits_iff.2 ⟨passed, validated, baseline, shiftingRule_baseline valid, fun indices member => ?_⟩
    exact (keepsSurvivors_shifting distinct valid member).2 fun _ => by simp
  · rw [RationalAdmits, checkFullConsistencyRational_admissible distinct]
    rintro ⟨-, original, allocated, keeps⟩
    obtain rfl := Except.ok.inj ((shiftingRule_baseline valid).symm.trans allocated)
    have member : [0] ∈ coalitions claims.length options.mode := single_mem_coalitions removable (by omega)
    have total := @reducedEstate_total baseline claims distinct estate (removedIds (·.claimantId) claims [0]).toFinset
      fun id removed => removedIds_subset (List.mem_toFinset.1 removed)
    have left := sumShares_nonneg valid.nonnegative (survivors claims (removedIds (·.claimantId) claims [0]).toFinset)
    have unshifted := (keepsShares_shifting distinct valid member).1 (keeps [0] member) (by rw [total]; linarith)
    rw [decide_eq_false_iff_not, not_not, total] at unshifted
    linarith

theorem rational_alone (passed : options.gate claims.length = .ok ()) (validated : validateExactClaims claims = .ok ()) (valid : ValidFor baseline claims)
    (removable : 0 < options.mode.bound claims.length) (positive : 0 < estate.total) (exceeds : estate.total < sumShares baseline claims) :
    ∃ rule : ExactRule, rule.allocate 0 claims estate = .ok baseline ∧ RationalAdmits rule claims estate options ∧
      ¬FloatAdmits rule claims estate options := by
  have distinct := (validateExactClaims_eq_ok.1 validated).2
  have several := bound_le options.mode claims.length
  refine ⟨shiftingRule baseline claims.length fun cohort estate => estate.total = sumShares baseline cohort, shiftingRule_baseline valid, ?_, ?_⟩
  · refine (checkFullConsistencyRational_admissible distinct).2 ⟨passed, baseline, shiftingRule_baseline valid, fun indices member => ?_⟩
    refine (keepsShares_shifting distinct valid member).2 fun _ => ?_
    rw [decide_eq_false_iff_not, @reducedEstate_total baseline claims distinct estate _ fun id removed =>
      removedIds_subset (List.mem_toFinset.1 removed)]
    intro same
    linarith
  · rw [floatAdmits_iff]
    rintro ⟨-, -, original, allocated, keeps⟩
    obtain rfl := Except.ok.inj ((shiftingRule_baseline valid).symm.trans allocated)
    -- someone has a share, and somebody else can be removed
    obtain ⟨claim, listed, share⟩ : ∃ claim ∈ claims, 0 < shareOf baseline claim.claimantId := by
      by_contra none
      push Not at none
      have nothing : sumShares baseline claims ≤ (claims.map fun _ => (0 : ℚ)).sum := List.sum_le_sum none
      rw [List.map_const', List.sum_replicate, nsmul_zero] at nothing
      linarith
    obtain ⟨index, found⟩ := List.getElem?_of_mem listed
    obtain ⟨other, inside, different⟩ : ∃ other < claims.length, index ≠ other := by
      by_cases first : index = 0
      · exact ⟨1, by omega, by omega⟩
      · exact ⟨0, by omega, first⟩
    have member := single_mem_coalitions removable inside
    have kept : claim ∈ survivors claims (removedIds (·.claimantId) claims [other]).toFinset := by
      refine List.mem_filter.2 ⟨listed, decide_eq_true fun removed => different ?_⟩
      exact List.mem_singleton.1 ((mem_removedIds distinct found).1 (List.mem_toFinset.1 removed))
    have left := share.trans_le (share_le_sumShares valid.nonnegative kept)
    have unshifted := (keepsSurvivors_shifting distinct valid member).1 (keeps [other] member) left
    simp at unshifted

section

theorem reducedClaims_subset {C : Type} {claims : List C} {indices : List Nat} {claim : C} (member : claim ∈ reducedClaims claims indices) :
    claim ∈ claims := by
  obtain ⟨⟨other, index⟩, kept, rfl⟩ := List.mem_map.1 member
  exact List.mem_of_getElem? (List.mem_zipIdx_iff_getElem?.1 (List.mem_filter.1 kept).1)

theorem checkReduction_unshifted (valid : ValidFor baseline claims) (indices : List Nat) (complexity : ConsistencyComplexity) :
    ∃ after, checkReduction ((shiftingRule baseline claims.length fun _ _ => false).allocate 0) claims estate baseline indices complexity =
      .ok (none, after) := by
  have provided : ∀ id ∈ removedIds (·.claimantId) claims indices, id ∈ baseline := by
    intro id removed
    obtain ⟨claim, listed, rfl⟩ := List.mem_map.1 (removedIds_subset removed)
    exact valid.provided claim listed
  unfold checkReduction
  dsimp only
  rw [removedTotal_eq_ok.2 ⟨provided, rfl⟩]
  dsimp only [bind, Except.bind]
  split
  · exact ⟨_, rfl⟩
  case isFalse left =>
    rw [not_or] at left
    rw [RationalEstate.new, if_neg left.2]
    dsimp only
    rw [shiftingRule_allocate valid.nonnegative]
    refine compareSurvivors_same (fun claim member => ?_) _
    exact (sameShare_shift valid member (reducedClaims_subset member) _).2 (by simp)

theorem rational_unvalidated (passed : options.gate claims.length = .ok ()) (valid : ValidFor baseline claims) :
    RationalAdmits (shiftingRule baseline claims.length fun _ _ => false) claims estate options := by
  have run : ∀ (listed : List (List Nat)) (complexity : ConsistencyComplexity), ∃ after,
      checkReductions ((shiftingRule baseline claims.length fun _ _ => false).allocate 0) claims estate baseline listed complexity =
        .ok ⟨.admissible, after⟩ := by
    intro listed
    induction listed with
    | nil => exact fun complexity => ⟨complexity, rfl⟩
    | cons indices rest ih =>
      intro complexity
      obtain ⟨between, reduced⟩ := @checkReduction_unshifted claims estate baseline valid indices complexity
      obtain ⟨after, run⟩ := ih between
      exact ⟨after, bind_eq_ok.2 ⟨_, reduced, run⟩⟩
  obtain ⟨after, run⟩ := run (enumerated claims.length options.mode) ⟨0, 0⟩
  exact ⟨after, bind_eq_ok.2 ⟨(), passed, bind_eq_ok.2 ⟨baseline, shiftingRule_baseline valid, run⟩⟩⟩

end

end

/-- The two paths decide alike for every rule with this baseline just when the claims are valid and the shares exhaust the estate, unless there
is nothing to remove or the checkers refuse to run. -/
theorem consistencyPaths_agree (claims : List RationalClaim) (estate : RationalEstate) (options : FullConsistencyOptions)
    (baseline : RationalAllocation) (positive : 0 < estate.total) (valid : ValidFor baseline claims) :
    ((∀ rule : ExactRule, rule.allocate 0 claims estate = .ok baseline →
        (FloatAdmits rule claims estate options ↔ RationalAdmits rule claims estate options)) ↔
      options.gate claims.length ≠ .ok () ∨ validateExactClaims claims = .ok () ∧
        (sumShares baseline claims = estate.total ∨ options.mode.bound claims.length = 0)) ∧
    ∀ (rule : ExactRule) (failure : LegitimacyError), rule.allocate 0 claims estate = .error failure →
      ¬FloatAdmits rule claims estate options ∧ ¬RationalAdmits rule claims estate options := by
  refine ⟨⟨fun agree => ?_, ?_⟩, fun rule failure failed => ⟨?_, ?_⟩⟩
  · by_contra outside
    rw [not_or, not_not] at outside
    obtain ⟨passed, apart⟩ := outside
    by_cases validated : validateExactClaims claims = .ok ()
    · rw [not_and, not_or] at apart
      obtain ⟨different, removable⟩ := apart validated
      have removable := Nat.pos_of_ne_zero removable
      rcases lt_or_gt_of_ne different with short | exceeds
      · obtain ⟨rule, allocated, admits, refuses⟩ := float_alone passed validated valid removable short
        exact refuses ((agree rule allocated).1 admits)
      · obtain ⟨rule, allocated, admits, refuses⟩ := rational_alone passed validated valid removable positive exceeds
        exact refuses ((agree rule allocated).2 admits)
    · have admits := (agree _ (shiftingRule_baseline valid)).2 (rational_unvalidated passed valid)
      exact validated (floatAdmits_iff.1 admits).2.1
  · rintro (refused | ⟨validated, exhausted⟩) rule allocated
    · refine iff_of_false (fun admits => refused (floatAdmits_iff.1 admits).1) ?_
      rintro ⟨complexity, run⟩
      obtain ⟨⟨⟩, passed, -⟩ := bind_eq_ok.1 run
      exact refused passed
    · have distinct := (validateExactClaims_eq_ok.1 validated).2
      rw [floatAdmits_iff, RationalAdmits, checkFullConsistencyRational_admissible distinct, and_iff_right validated, allocated]
      simp only [Except.ok.injEq, exists_eq_left']
      refine and_congr_right fun _ => forall₂_congr fun indices member => ?_
      rcases exhausted with exhausted | none
      · exact keepsSurvivors_iff distinct valid exhausted indices
      · obtain ⟨-, -, nonempty, few⟩ := mem_coalitions.1 member
        exact absurd (List.length_eq_zero_iff.1 (Nat.le_zero.1 (none ▸ few))) nonempty
  · rw [floatAdmits_iff, failed]
    rintro ⟨-, -, baseline, made, -⟩
    cases made
  · rintro ⟨complexity, run⟩
    obtain ⟨⟨⟩, -, run⟩ := bind_eq_ok.1 run
    obtain ⟨baseline, allocated, -⟩ := bind_eq_ok.1 run
    rw [failed] at allocated
    cases allocated

def exactReserveRule : ExactRule := ⟨reserveRule, true⟩

def pairClaims : List RationalClaim := [⟨"a", 1⟩, ⟨"b", 1⟩]

def losesHalf : Except LegitimacyError FullConsistencyAudit → Bool
  | .ok ⟨.rejected _ counterexample, _⟩ => decide (counterexample.originalShare = 1 ∧ counterexample.reducedShare = 1 / 2)
  | _ => false

theorem consistencyPaths_differ : RationalAdmits exactReserveRule pairClaims ⟨3, "units"⟩ ⟨.full, false⟩ ∧
    ¬FloatAdmits exactReserveRule pairClaims ⟨3, "units"⟩ ⟨.full, false⟩ := by
  refine ⟨⟨⟨2, 2⟩, by decide +kernel⟩, ?_⟩
  rintro ⟨name, tested, complexity, run⟩
  -- one of them has 1 left when the other is gone, and the rule gives half of it
  have rejected : losesHalf (checkFullConsistencyAudit 0 exactReserveRule pairClaims ⟨3, "units"⟩ ⟨.full, false⟩) = true := by decide +kernel
  rw [run] at rejected
  cases rejected

/-- With two claimants who get 1 each, all rules agree on an estate of 2, and not all on an estate of 3. -/
theorem consistencyPaths_agree_pair :
    (∀ rule : ExactRule, rule.allocate 0 pairClaims ⟨2, "units"⟩ = .ok (allocationOf (fun _ => 1) pairClaims) →
      (FloatAdmits rule pairClaims ⟨2, "units"⟩ ⟨.full, false⟩ ↔
        RationalAdmits rule pairClaims ⟨2, "units"⟩ ⟨.full, false⟩)) ∧
    ¬∀ rule : ExactRule, rule.allocate 0 pairClaims ⟨3, "units"⟩ = .ok (allocationOf (fun _ => 1) pairClaims) →
      (FloatAdmits rule pairClaims ⟨3, "units"⟩ ⟨.full, false⟩ ↔
        RationalAdmits rule pairClaims ⟨3, "units"⟩ ⟨.full, false⟩) := by
  have valid : ValidFor (allocationOf (fun _ => 1) pairClaims) pairClaims := allocationOf_valid fun _ => zero_le_one
  have validated : validateExactClaims pairClaims = .ok () := by decide +kernel
  have shares : sumShares (allocationOf (fun _ => 1) pairClaims) pairClaims = 2 := by decide +kernel
  constructor
  · exact (consistencyPaths_agree pairClaims ⟨2, "units"⟩ ⟨.full, false⟩ _ (by decide) valid).1.2 (.inr ⟨validated, .inl shares⟩)
  · intro agree
    rcases (consistencyPaths_agree pairClaims ⟨3, "units"⟩ ⟨.full, false⟩ _ (by decide) valid).1.1 agree with refused | ⟨-, exhausted | none⟩
    · exact refused rfl
    · rw [shares] at exhausted
      exact absurd exhausted (by decide)
    · cases none

end Legitimacy.Diagnostics
