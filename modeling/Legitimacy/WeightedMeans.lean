import Mathlib.Analysis.Convex.Combination
import Mathlib.Tactic.LinearCombination
import Mathlib.Tactic.Linarith

namespace WeightedMeans

variable {ι K : Type*} [Field K] {support kept : Finset ι} {weight value : ι → K}

theorem centerMass_eq_div : support.centerMass weight value = (∑ index ∈ support, weight index * value index) / ∑ index ∈ support, weight index := by
  simp [Finset.centerMass, div_eq_inv_mul]

theorem centerMass_of_weightless (weightless : ∀ index ∈ support, weight index = 0) : support.centerMass weight value = 0 := by
  rw [centerMass_eq_div, Finset.sum_eq_zero weightless, div_zero]

theorem centerMass_of_agree {common : K} (positive : ∑ index ∈ support, weight index ≠ 0)
    (agree : ∀ index ∈ support, weight index ≠ 0 → value index = common) : support.centerMass weight value = common := by
  rw [Finset.centerMass_congr_fun agree]
  exact Finset.centerMass_const positive common

/-- All values of nonzero weight agree, and one alone is zero. -/
def Uniform (support : Finset ι) (weight value : ι → K) : Prop :=
  (∀ one ∈ support, ∀ other ∈ support, weight one ≠ 0 → weight other ≠ 0 → value one = value other) ∧
    ∀ one ∈ support, weight one ≠ 0 → (∀ other ∈ support, weight other ≠ 0 → other = one) → value one = 0

section

variable [LinearOrder K] [IsStrictOrderedRing K] {range : K}

theorem centerMass_within (nonneg : ∀ index ∈ support, 0 ≤ weight index) (positive : 0 < ∑ index ∈ support, weight index) {centre : K}
    (near : ∀ index ∈ support, |value index - centre| ≤ range) : |support.centerMass weight value - centre| ≤ range := by
  have inside : support.centerMass weight value ∈ Set.Icc (centre - range) (centre + range) := by
    refine (convex_Icc _ _).centerMass_mem nonneg positive fun index member => ?_
    have := abs_le.1 (near index member)
    constructor <;> linarith
  have := inside.1
  have := inside.2
  exact abs_le.2 ⟨by linarith, by linarith⟩

theorem abs_centerMass_sub_le (within : kept ⊆ support) (nonneg : ∀ index ∈ support, 0 ≤ weight index)
    (positive : 0 < ∑ index ∈ kept, weight index) (near : ∀ one ∈ support, ∀ other ∈ support, |value one - value other| ≤ range) :
    |support.centerMass weight value - kept.centerMass weight value| ≤ range := by
  have all : 0 < ∑ index ∈ support, weight index :=
    positive.trans_le (Finset.sum_le_sum_of_subset_of_nonneg within fun index member _ => nonneg index member)
  rw [abs_sub_comm]
  refine centerMass_within (fun index member => nonneg index (within member)) positive fun index member => ?_
  rw [abs_sub_comm]
  exact centerMass_within nonneg all fun other listed => near other listed index (within member)

end

section

variable [DecidableEq ι] {index : ι}

theorem value_of_unmoved (member : index ∈ support) (weighty : weight index ≠ 0) (positive : ∑ index ∈ support, weight index ≠ 0)
    (left : ∑ other ∈ support.erase index, weight other ≠ 0)
    (unmoved : support.centerMass weight value = (support.erase index).centerMass weight value) :
    value index = support.centerMass weight value := by
  have whole : support.centerMass weight value * ∑ index ∈ support, weight index = ∑ index ∈ support, weight index * value index := by
    rw [centerMass_eq_div, div_mul_cancel₀ _ positive]
  have rest : support.centerMass weight value * ∑ other ∈ support.erase index, weight other =
      ∑ other ∈ support.erase index, weight other * value other := by
    rw [unmoved, centerMass_eq_div, div_mul_cancel₀ _ left]
  rw [← Finset.add_sum_erase support weight member, ← Finset.add_sum_erase support _ member] at whole
  have shared : weight index * (value index - support.centerMass weight value) = 0 := by linear_combination rest - whole
  rcases mul_eq_zero.1 shared with none | same
  · exact absurd none weighty
  · exact sub_eq_zero.1 same

variable [LinearOrder K] [IsStrictOrderedRing K]

theorem value_eq_centerMass (nonneg : ∀ index ∈ support, 0 ≤ weight index)
    (unmoved : ∀ index ∈ support, support.centerMass weight value = (support.erase index).centerMass weight value) (member : index ∈ support)
    (weighty : weight index ≠ 0) : value index = support.centerMass weight value := by
  have positive : ∑ index ∈ support, weight index ≠ 0 := fun none => weighty ((Finset.sum_eq_zero_iff_of_nonneg nonneg).1 none index member)
  by_cases left : ∑ other ∈ support.erase index, weight other = 0
  · -- nothing else has weight, so the mean without it is zero, and with it is its value
    have alone := (Finset.sum_eq_zero_iff_of_nonneg fun other listed => nonneg other (Finset.mem_of_mem_erase listed)).1 left
    refine (centerMass_of_agree positive fun other listed heavy => ?_).symm
    by_contra differs
    exact heavy (alone other (Finset.mem_erase.2 ⟨fun same => differs (same ▸ rfl), listed⟩))
  · exact value_of_unmoved member weighty positive left (unmoved index member)

/-- No removal moves the mean exactly where the values are uniform. -/
theorem unmoved_iff_uniform (nonneg : ∀ index ∈ support, 0 ≤ weight index) :
    (∀ index ∈ support, support.centerMass weight value = (support.erase index).centerMass weight value) ↔ Uniform support weight value := by
  constructor
  · intro unmoved
    refine ⟨fun one atOne other atOther heavy weighty => ?_, fun one member weighty alone => ?_⟩
    · rw [value_eq_centerMass nonneg unmoved atOne heavy, value_eq_centerMass nonneg unmoved atOther weighty]
    · rw [value_eq_centerMass nonneg unmoved member weighty, unmoved one member]
      refine centerMass_of_weightless fun other listed => ?_
      by_contra heavy
      obtain ⟨apart, inside⟩ := Finset.mem_erase.1 listed
      exact apart (alone other inside heavy)
  · rintro ⟨agree, single⟩ index member
    have restNonneg : ∀ other ∈ support.erase index, 0 ≤ weight other := fun other listed => nonneg other (Finset.mem_of_mem_erase listed)
    by_cases left : ∑ other ∈ support.erase index, weight other = 0
    · rw [centerMass_of_weightless ((Finset.sum_eq_zero_iff_of_nonneg restNonneg).1 left)]
      by_cases positive : ∑ other ∈ support, weight other = 0
      · exact centerMass_of_weightless ((Finset.sum_eq_zero_iff_of_nonneg nonneg).1 positive)
      · -- the removed index had all the weight
        have others : ∀ other ∈ support, weight other ≠ 0 → other = index := by
          intro other listed heavy
          by_contra apart
          exact heavy ((Finset.sum_eq_zero_iff_of_nonneg restNonneg).1 left other (Finset.mem_erase.2 ⟨apart, listed⟩))
        refine centerMass_of_agree positive fun other listed heavy => ?_
        obtain rfl := others other listed heavy
        exact single other listed heavy others
    · obtain ⟨one, kept, heavy⟩ := Finset.exists_ne_zero_of_sum_ne_zero left
      have listed := Finset.mem_of_mem_erase kept
      have positive : ∑ other ∈ support, weight other ≠ 0 := fun none => heavy ((Finset.sum_eq_zero_iff_of_nonneg nonneg).1 none one listed)
      rw [centerMass_of_agree positive fun other atOther weighty => agree other atOther one listed weighty heavy,
        centerMass_of_agree left fun other atOther weighty => agree other (Finset.mem_of_mem_erase atOther) one listed weighty heavy]

end

end WeightedMeans
