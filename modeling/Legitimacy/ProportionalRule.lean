import Legitimacy.ExactSolidarity
import Mathlib.Algebra.BigOperators.Ring.List
import Mathlib.Algebra.Order.Field.Basic
import Mathlib.Data.Int.Log
import Mathlib.Data.Rat.Floor
import Mathlib.Tactic.FieldSimp

namespace ProportionalDivision

variable {K : Type} [Field K]

def part (estate total weight : K) : K := weight * estate / total

variable {estate total weight : K}

theorem part_whole (nonzero : total ≠ 0) : part estate total total = estate := mul_div_cancel_left₀ estate nonzero

theorem sum_part (weights : List K) : (weights.map (part estate total)).sum = part estate total weights.sum := by
  induction weights with
  | nil => simp [part]
  | cons weight rest ih =>
    rw [List.map_cons, List.sum_cons, List.sum_cons, ih]
    unfold part
    ring

theorem part_part {rest : K} (left : rest ≠ 0) : part (part estate total rest) rest weight = part estate total weight := by
  unfold part
  field_simp

theorem part_scale (factor : K) : part (estate * factor) total weight = part estate total weight * factor := by
  unfold part
  ring

variable [LinearOrder K] [IsStrictOrderedRing K]

theorem part_pos (positive : 0 < estate) (whole : 0 < total) (weighs : 0 < weight) : 0 < part estate total weight :=
  div_pos (mul_pos weighs positive) whole

theorem part_le_part_add {gain : K} (positive : 0 ≤ estate) (whole : 0 < total) (inside : weight ≤ total) (gains : 0 ≤ gain) :
    part estate total weight ≤ part estate (total + gain) (weight + gain) := by
  unfold part
  rw [div_le_div_iff₀ whole (by linarith)]
  have grows : weight * (total + gain) ≤ (weight + gain) * total := by nlinarith
  calc weight * estate * (total + gain) = weight * (total + gain) * estate := by ring
    _ ≤ (weight + gain) * total * estate := mul_le_mul_of_nonneg_right grows positive
    _ = (weight + gain) * estate * total := by ring

end ProportionalDivision

namespace Legitimacy.Diagnostics

open ExceptRun ProportionalDivision

/-- `value = mantissa * 2 ^ exponent` with a mantissa from 1 up to 2. -/
def positiveBinaryParts (value : ℚ) : ℚ × ℤ := (value / 2 ^ Int.log 2 value, Int.log 2 value)

def scaledProportionalShare (strength scale scaledTotal estate : ℚ) : ℚ :=
  if estate = 0 then 0
  else
    let (strengthMantissa, strengthExponent) := positiveBinaryParts strength
    let (scaleMantissa, scaleExponent) := positiveBinaryParts scale
    let (estateMantissa, estateExponent) := positiveBinaryParts estate
    let mantissa := strengthMantissa / scaleMantissa / scaledTotal * estateMantissa
    let exponent := strengthExponent - scaleExponent + estateExponent
    -- the second factor is the smallest normal float
    if exponent < -1022 then mantissa * 2 ^ (exponent + 1022) * 2 ^ (-1022 : ℤ) else mantissa * 2 ^ exponent

/-- A running sum with the correction that its rounding asks for. -/
def compensate (scale : ℚ) (sums : ℚ × ℚ) (claim : RationalClaim) : ℚ × ℚ :=
  let (scaledTotal, correction) := sums
  let term := claim.strength / scale - correction
  let next := scaledTotal + term
  (next, next - scaledTotal - term)

def proportionalAllocate (claims : List RationalClaim) (estate : RationalEstate) : Except LegitimacyError RationalAllocation := do
  validateExactClaims claims
  if claims.isEmpty then return ∅
  let scale := (claims.map (·.strength)).foldl max 0
  let (scaledTotal, _) := claims.foldl (compensate scale) (0, 0)
  return claims.foldl (fun allocation claim =>
    allocation.insert claim.claimantId (scaledProportionalShare claim.strength scale scaledTotal estate.total)) ∅

def proportionalRule (priorityClasses : List String) : ClassedRule := ⟨⟨proportionalAllocate, true⟩, priorityClasses⟩

section

theorem positiveBinaryParts_eq (value : ℚ) : (positiveBinaryParts value).1 * 2 ^ (positiveBinaryParts value).2 = value :=
  div_mul_cancel₀ value (zpow_ne_zero _ two_ne_zero)

theorem scaledProportionalShare_eq (strength scale scaledTotal estate : ℚ) :
    scaledProportionalShare strength scale scaledTotal estate = part estate (scale * scaledTotal) strength := by
  unfold scaledProportionalShare
  split
  case isTrue nothing => rw [nothing, part, mul_zero, zero_div]
  case isFalse =>
    have whole : (positiveBinaryParts strength).1 / (positiveBinaryParts scale).1 / scaledTotal * (positiveBinaryParts estate).1 *
        2 ^ ((positiveBinaryParts strength).2 - (positiveBinaryParts scale).2 + (positiveBinaryParts estate).2) =
        part estate (scale * scaledTotal) strength := by
      conv_rhs => rw [part, ← positiveBinaryParts_eq strength, ← positiveBinaryParts_eq scale, ← positiveBinaryParts_eq estate]
      rw [zpow_add₀ two_ne_zero, zpow_sub₀ two_ne_zero]
      field_simp
    dsimp only
    split
    · rw [mul_assoc, ← zpow_add₀ two_ne_zero, add_neg_cancel_right]
      exact whole
    · exact whole

theorem compensate_foldl (scale : ℚ) (claims : List RationalClaim) (sum : ℚ) :
    claims.foldl (compensate scale) (sum, 0) = (sum + (claims.map (·.strength)).sum / scale, 0) := by
  induction claims generalizing sum with
  | nil => simp
  | cons claim rest ih =>
    have step : compensate scale (sum, 0) claim = (sum + claim.strength / scale, 0) := by
      simp [compensate]
    rw [List.foldl_cons, step, ih, List.map_cons, List.sum_cons, add_div, add_assoc]

theorem le_foldl_max {values : List ℚ} {start : ℚ} : start ≤ values.foldl max start := by
  induction values generalizing start with
  | nil => exact le_refl start
  | cons value rest ih => exact (le_max_left start value).trans ih

end

section

variable {claims : List RationalClaim} {estate : RationalEstate}

def totalStrength (claims : List RationalClaim) : ℚ := (claims.map (·.strength)).sum

theorem totalStrength_pos (strong : ∀ claim ∈ claims, 0 < claim.strength) (some : claims ≠ []) : 0 < totalStrength claims := by
  refine List.sum_pos _ (fun strength member => ?_) (by simpa using some)
  obtain ⟨claim, listed, rfl⟩ := List.mem_map.1 member
  exact strong claim listed

def strengthOf (claims : List RationalClaim) (id : ClaimantId) : ℚ := ((claims.find? (·.claimantId = id)).map (·.strength)).getD 0

theorem strengthOf_eq (distinct : (claims.map (·.claimantId)).Nodup) {claim : RationalClaim} (listed : claim ∈ claims) :
    strengthOf claims claim.claimantId = claim.strength := by
  obtain ⟨found, there⟩ : ∃ found, claims.find? (·.claimantId = claim.claimantId) = some found :=
    Option.isSome_iff_exists.1 (List.find?_isSome.2 ⟨claim, listed, decide_eq_true rfl⟩)
  have named : found.claimantId = claim.claimantId := by simpa using List.find?_some there
  have same : found = claim := List.inj_on_of_nodup_map distinct (List.mem_of_find?_eq_some there) listed named
  rw [strengthOf, there, Option.map_some, Option.getD_some, same]

theorem validateExactClaim_eq_ok {claim : RationalClaim} :
    validateExactClaim claim = .ok () ↔ isBlank claim.claimantId = false ∧ 0 < claim.strength := by
  unfold validateExactClaim
  rw [guard_eq_ok, guard_eq_ok, not_le, Bool.not_eq_true, and_iff_left rfl]

theorem strong_of_validated (validated : validateExactClaims claims = .ok ()) : ∀ claim ∈ claims, 0 < claim.strength :=
  fun claim listed => (validateExactClaim_eq_ok.1 ((validateExactClaims_eq_ok.1 validated).1 claim listed)).2

theorem proportionalAllocate_eq (validated : validateExactClaims claims = .ok ()) : proportionalAllocate claims estate =
    .ok (allocationOf (fun id => part estate.total (totalStrength claims) (strengthOf claims id)) claims) := by
  have distinct := (validateExactClaims_eq_ok.1 validated).2
  have strong := strong_of_validated validated
  unfold proportionalAllocate
  rw [validated]
  cases claims with
  | nil => rfl
  | cons first rest =>
    have positive : 0 < ((first :: rest).map (·.strength)).foldl max 0 :=
      ((strong first List.mem_cons_self).trans_le (le_max_right 0 _)).trans_le le_foldl_max
    generalize ((first :: rest).map (·.strength)).foldl max 0 = scale at positive
    simp only [bind, Except.bind, List.isEmpty_cons, compensate_foldl, zero_add, Bool.false_eq_true, if_false, pure, Except.pure]
    refine congrArg Except.ok (List.foldl_ext _ _ _ fun allocation claim listed => ?_)
    dsimp only
    rw [scaledProportionalShare_eq, mul_div_cancel₀ _ positive.ne', strengthOf_eq distinct listed]
    rfl

end

section

variable {tolerance : ℚ} {allocation : RationalAllocation} {claims : List RationalClaim} {estate : RationalEstate}

theorem ValidFor.sum_toList (valid : ValidFor allocation claims) (distinct : (claims.map (·.claimantId)).Nodup) :
    (allocation.toList.map (·.2)).sum = sumShares allocation claims := by
  have entries : (claims.map fun claim => (claim.claimantId, shareOf allocation claim.claimantId)).Nodup := by
    refine List.Nodup.of_map Prod.fst ?_
    rw [List.map_map]
    exact distinct
  have perm : allocation.toList.Perm (claims.map fun claim => (claim.claimantId, shareOf allocation claim.claimantId)) := by
    refine (List.perm_ext_iff_of_nodup (List.Nodup.of_map _ (nodup_keys allocation)) entries).2 fun entry => ?_
    obtain ⟨id, share⟩ := entry
    rw [Std.ExtTreeMap.mem_toList_iff_getElem?_eq_some, List.mem_map]
    constructor
    · intro found
      obtain ⟨claim, listed, rfl⟩ := List.mem_map.1 (valid.listed id (mem_iff_lookup.2 ⟨share, found⟩))
      exact ⟨claim, listed, Prod.ext rfl (by rw [shareOf, found, Option.getD_some])⟩
    · rintro ⟨claim, listed, same⟩
      obtain ⟨rfl, rfl⟩ := Prod.mk.inj same
      exact valid.lookup listed
  rw [(perm.map (·.2)).sum_eq, List.map_map]
  rfl

/-- An allocation as the rule makes it: to each claimant its part of the estate, and to nobody else. -/
structure Proportional (allocation : RationalAllocation) (claims : List RationalClaim) (estate : RationalEstate) : Prop where
  valid : ValidFor allocation claims
  share : ∀ claim ∈ claims, shareOf allocation claim.claimantId = part estate.total (totalStrength claims) claim.strength

theorem Proportional.sumShares_of_subset (proportional : Proportional allocation claims estate) {cohort : List RationalClaim} (within : cohort ⊆ claims) :
    sumShares allocation cohort = part estate.total (totalStrength claims) (totalStrength cohort) := by
  rw [sumShares, List.map_congr_left fun claim listed => proportional.share claim (within listed)]
  exact (congrArg List.sum (List.map_map ..).symm).trans (sum_part (cohort.map (·.strength)))

theorem Proportional.sumShares_eq (proportional : Proportional allocation claims estate) (strong : ∀ claim ∈ claims, 0 < claim.strength)
    (some : claims ≠ []) : sumShares allocation claims = estate.total := by
  rw [proportional.sumShares_of_subset (List.Subset.refl claims), part_whole (totalStrength_pos strong some).ne']

theorem proportionalAllocate_proportional (validated : validateExactClaims claims = .ok ()) (positive : 0 < estate.total) :
    ∃ allocation, proportionalAllocate claims estate = .ok allocation ∧ Proportional allocation claims estate := by
  have strong := strong_of_validated validated
  refine ⟨_, proportionalAllocate_eq validated, allocationOf_valid fun id => ?_, fun claim listed => ?_⟩
  · have whole : 0 ≤ totalStrength claims := by
      refine List.sum_nonneg fun strength member => ?_
      obtain ⟨claim, listed, rfl⟩ := List.mem_map.1 member
      exact (strong claim listed).le
    refine div_nonneg (mul_nonneg ?_ positive.le) whole
    unfold strengthOf
    cases found : claims.find? (·.claimantId = id) with
    | none => exact le_refl 0
    | some claim => exact (strong claim (List.mem_of_find?_eq_some found)).le
  · rw [shareOf, allocationOf_lookup, if_pos (List.mem_map.2 ⟨claim, listed, rfl⟩), Option.getD_some,
      strengthOf_eq (validateExactClaims_eq_ok.1 validated).2 listed]

theorem evaluate_proportional (tolerant : 0 ≤ tolerance) (priorityClasses : List String) (validated : validateExactClaims claims = .ok ())
    (positive : 0 < estate.total) : ∃ allocation,
      evaluateExactRule tolerance (proportionalRule priorityClasses).toExactRule claims estate = .ok allocation ∧ Proportional allocation claims estate := by
  obtain ⟨allocation, allocated, proportional⟩ := proportionalAllocate_proportional validated positive
  have feasible : RationalAllocation.validateFeasible tolerance allocation estate = .ok () := by
    refine check_eq_ok.2 ?_
    rw [proportional.valid.sum_toList (validateExactClaims_eq_ok.1 validated).2]
    have within : sumShares allocation claims ≤ estate.total := by
      by_cases some : claims = []
      · rw [some]
        exact positive.le
      · exact (proportional.sumShares_eq (strong_of_validated validated) some).le
    have slackened : 0 ≤ tolerance + tolerance * |sumShares allocation claims| + tolerance * |estate.total| := by positivity
    linarith
  refine ⟨allocation, ?_, proportional⟩
  have fits : (proportionalRule priorityClasses).toExactRule.allocate tolerance claims estate = .ok allocation := by
    refine bind_eq_ok.2 ⟨allocation, allocated, bind_eq_ok.2 ⟨(), validate_eq_ok.2 proportional.valid, ?_⟩⟩
    exact bind_eq_ok.2 ⟨(), feasible, rfl⟩
  exact bind_eq_ok.2 ⟨(), validated, fits⟩

end

end Legitimacy.Diagnostics
