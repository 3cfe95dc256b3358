import Mathlib.Analysis.Matrix.PosDef
import Mathlib.Combinatorics.SimpleGraph.LapMatrix

namespace Legitimacy.WeightedLaplacian

open Matrix Module

/-- The sum of the whole row on the diagonal, and elsewhere the weight with its sign turned. -/
def laplacian {n : Nat} (w : Matrix (Fin n) (Fin n) ℝ) : Matrix (Fin n) (Fin n) ℝ :=
  .of fun i j => if i = j then ∑ k, w i k else -w i j

/-- The vertices with a weight between them. -/
def support {n : Nat} (w : Matrix (Fin n) (Fin n) ℝ) : SimpleGraph (Fin n) := .fromRel fun i j => w i j ≠ 0

section

variable {V : Type} [Fintype V] [DecidableEq V] {L : Matrix V V ℝ}

/-- The second smallest eigenvalue, each counted as often as its multiplicity says. -/
noncomputable def secondEigenvalue (hermitian : L.IsHermitian) (two : 2 ≤ Fintype.card V) : ℝ :=
  hermitian.eigenvalues₀ ⟨Fintype.card V - 2, by omega⟩

theorem card_zero_eigenvalues (hermitian : L.IsHermitian) :
    (Finset.univ.filter fun k => hermitian.eigenvalues₀ k = 0).card = finrank ℝ L.toLin'.ker := by
  have nonzero := hermitian.rank_eq_card_non_zero_eigs
  have split := L.toLin'.finrank_range_add_finrank_ker
  have parts := Finset.card_filter_add_card_filter_not (s := Finset.univ) fun k => hermitian.eigenvalues₀ k = 0
  have same : Fintype.card {i // hermitian.eigenvalues i ≠ 0} = (Finset.univ.filter fun k => ¬hermitian.eigenvalues₀ k = 0).card := by
    rw [← Fintype.card_subtype]
    exact Fintype.card_congr ((Fintype.equivOfCardEq (Fintype.card_fin _)).symm.subtypeEquiv fun i => Iff.rfl)
  rw [Finset.card_univ, Fintype.card_fin] at parts
  rw [finrank_fintype_fun_eq_card] at split
  change L.rank + _ = _ at split
  omega

theorem eigenvalue_eq_zero (positive : L.PosSemidef) (k : Fin (Fintype.card V)) :
    positive.1.eigenvalues₀ k = 0 ↔ Fintype.card V - k ≤ finrank ℝ L.toLin'.ker := by
  have nonneg : ∀ k, 0 ≤ positive.1.eigenvalues₀ k := by
    intro k
    have := positive.eigenvalues_nonneg (Fintype.equivOfCardEq (Fintype.card_fin _) k)
    rwa [IsHermitian.eigenvalues, Equiv.symm_apply_apply] at this
  rw [← card_zero_eigenvalues positive.1]
  constructor
  · intro zero
    rw [← Fin.card_Ici]
    refine Finset.card_le_card fun j above => ?_
    have below := positive.1.eigenvalues₀_antitone (Finset.mem_Ici.1 above)
    exact Finset.mem_filter.2 ⟨Finset.mem_univ j, le_antisymm (below.trans_eq zero) (nonneg j)⟩
  · intro many
    by_contra nonzero
    have inside : (Finset.univ.filter fun j => positive.1.eigenvalues₀ j = 0) ⊆ Finset.Ioi k := by
      intro j member
      rw [Finset.mem_filter] at member
      rw [Finset.mem_Ioi]
      by_contra before
      have above := positive.1.eigenvalues₀_antitone (not_lt.1 before)
      exact nonzero (le_antisymm (above.trans_eq member.2) (nonneg k))
    have few := Finset.card_le_card inside
    rw [Fin.card_Ioi] at few
    omega

theorem secondEigenvalue_eq_zero (positive : L.PosSemidef) (two : 2 ≤ Fintype.card V) :
    secondEigenvalue positive.1 two = 0 ↔ 2 ≤ finrank ℝ L.toLin'.ker := by
  rw [secondEigenvalue, eigenvalue_eq_zero positive]
  simp only [Nat.sub_sub_self two]

end

section

variable {n : Nat} {w : Matrix (Fin n) (Fin n) ℝ}

theorem mulVec_apply (w : Matrix (Fin n) (Fin n) ℝ) (x : Fin n → ℝ) (i : Fin n) :
    (laplacian w *ᵥ x) i = ∑ j, w i j * (x i - x j) + w i i * x i := by
  have entry : ∀ j, laplacian w i j * x j = (if i = j then (∑ k, w i k + w i i) * x j else 0) - w i j * x j := by
    intro j
    by_cases same : i = j
    · subst same
      simp only [laplacian, of_apply, if_true]
      ring
    · simp only [laplacian, of_apply, if_neg same]
      ring
  calc (laplacian w *ᵥ x) i
      = ∑ j, laplacian w i j * x j := rfl
    _ = ∑ j, ((if i = j then (∑ k, w i k + w i i) * x j else 0) - w i j * x j) := Finset.sum_congr rfl fun j _ => entry j
    _ = (∑ k, w i k + w i i) * x i - ∑ j, w i j * x j := by simp [Finset.sum_sub_distrib]
    _ = ∑ j, w i j * (x i - x j) + w i i * x i := by
      simp only [mul_sub, Finset.sum_sub_distrib, ← Finset.sum_mul]
      ring

section

variable (symmetric : ∀ i j, w i j = w j i)

include symmetric

theorem form_eq (x : Fin n → ℝ) :
    x ⬝ᵥ laplacian w *ᵥ x = ∑ i, ∑ j ∈ Finset.Ioi i, w i j * (x i - x j) ^ 2 + ∑ i, w i i * x i ^ 2 := by
  have pairs := Finset.sum_sum_Ioi_add_eq_sum_sum_off_diag fun j i => x i * (w i j * (x i - x j))
  have square : ∀ i j, x i * (w i j * (x i - x j)) + x j * (w j i * (x j - x i)) = w i j * (x i - x j) ^ 2 := by
    intro i j
    rw [symmetric j i]
    ring
  have rows : ∀ i, ∑ j ∈ {i}ᶜ, x i * (w i j * (x i - x j)) = ∑ j, x i * (w i j * (x i - x j)) := by
    intro i
    rw [← Finset.sum_add_sum_compl {i}, Finset.sum_singleton, sub_self, mul_zero, mul_zero, zero_add]
  simp only [square, rows] at pairs
  rw [pairs, ← Finset.sum_add_distrib]
  refine Finset.sum_congr rfl fun i _ => ?_
  rw [mulVec_apply, mul_add, Finset.mul_sum]
  ring

theorem laplacian_isHermitian : (laplacian w).IsHermitian := by
  refine IsHermitian.ext fun i j => ?_
  by_cases same : i = j
  · rw [same, star_trivial]
  · simp only [laplacian, of_apply, if_neg same, if_neg (Ne.symm same), star_trivial, symmetric j i]

theorem laplacian_posSemidef (nonneg : ∀ i j, 0 ≤ w i j) : (laplacian w).PosSemidef := by
  refine .of_dotProduct_mulVec_nonneg (laplacian_isHermitian symmetric) fun x => ?_
  rw [star_trivial, form_eq symmetric]
  refine add_nonneg (Finset.sum_nonneg fun i _ => Finset.sum_nonneg fun j _ => ?_) (Finset.sum_nonneg fun i _ => ?_)
  · exact mul_nonneg (nonneg i j) (sq_nonneg _)
  · exact mul_nonneg (nonneg i i) (sq_nonneg _)

theorem mulVec_eq_zero (nonneg : ∀ i j, 0 ≤ w i j) (loopless : ∀ i, w i i = 0) {x : Fin n → ℝ} :
    laplacian w *ᵥ x = 0 ↔ ∀ i j, (support w).Adj i j → x i = x j := by
  constructor
  · intro zero i j adjacent
    have form := form_eq symmetric x
    rw [zero, dotProduct_zero] at form
    simp only [loopless, zero_mul, Finset.sum_const_zero, add_zero] at form
    have term : ∀ i j, i < j → w i j * (x i - x j) ^ 2 = 0 := by
      intro i j less
      have nonnegative : ∀ i j, 0 ≤ w i j * (x i - x j) ^ 2 := fun i j => mul_nonneg (nonneg i j) (sq_nonneg _)
      have row := (Finset.sum_eq_zero_iff_of_nonneg fun i _ => Finset.sum_nonneg fun j _ => nonnegative i j).1 form.symm i (Finset.mem_univ i)
      exact (Finset.sum_eq_zero_iff_of_nonneg fun j _ => nonnegative i j).1 row j (Finset.mem_Ioi.2 less)
    have equal : ∀ i j, i < j → w i j ≠ 0 → x i = x j := by
      intro i j less weighted
      have root := (mul_eq_zero.1 (term i j less)).resolve_left weighted
      exact sub_eq_zero.1 (pow_eq_zero_iff (two_ne_zero)|>.1 root)
    have weighted : w i j ≠ 0 := adjacent.2.elim id fun other => symmetric j i ▸ other
    rcases lt_or_gt_of_ne adjacent.1 with less | less
    · exact equal i j less weighted
    · exact (equal j i less (symmetric i j ▸ weighted)).symm
  · intro constant
    funext i
    rw [mulVec_apply, loopless, zero_mul, add_zero]
    refine Finset.sum_eq_zero fun j _ => ?_
    by_cases weighted : w i j = 0
    · rw [weighted, zero_mul]
    · by_cases same : i = j
      · rw [same, sub_self, mul_zero]
      · rw [constant i j ⟨same, .inl weighted⟩, sub_self, mul_zero]

theorem finrank_ker (nonneg : ∀ i j, 0 ≤ w i j) (loopless : ∀ i, w i i = 0) :
    finrank ℝ (laplacian w).toLin'.ker = Nat.card (support w).ConnectedComponent := by
  classical
  rw [Nat.card_eq_fintype_card, SimpleGraph.card_connectedComponent_eq_finrank_ker_toLin'_lapMatrix]
  have same : (laplacian w).toLin'.ker = ((support w).lapMatrix ℝ).toLin'.ker := by
    ext x
    rw [LinearMap.mem_ker, LinearMap.mem_ker, toLin'_apply, toLin'_apply, mulVec_eq_zero symmetric nonneg loopless,
      SimpleGraph.lapMatrix_mulVec_eq_zero_iff_forall_adj]
  rw [same]

end

theorem not_connected_iff (graph : SimpleGraph (Fin n)) (two : 2 ≤ n) : ¬graph.Connected ↔ 2 ≤ Nat.card graph.ConnectedComponent := by
  have inhabited : Nonempty (Fin n) := ⟨⟨0, by omega⟩⟩
  have finite : Finite graph.ConnectedComponent := Quot.finite _
  change _ ↔ 1 < Nat.card graph.ConnectedComponent
  rw [Finite.one_lt_card_iff_nontrivial, ← not_subsingleton_iff_nontrivial]
  refine not_congr ⟨fun connected => connected.preconnected.subsingleton_connectedComponent, fun alone => ⟨fun i j => ?_⟩⟩
  exact SimpleGraph.ConnectedComponent.exact (Subsingleton.elim _ _)

/-- What is asked of a Laplacian for weights, and for the graph they are put on. -/
structure IsLaplacian (w L : Matrix (Fin n) (Fin n) ℝ) (graph : SimpleGraph (Fin n)) : Prop where
  form : ∀ x, x ⬝ᵥ L *ᵥ x = ∑ i, ∑ j ∈ Finset.Ioi i, w i j * (x i - x j) ^ 2
  constant : ∀ c, L *ᵥ (fun _ => c) = 0
  positive : L.PosSemidef
  kernel : finrank ℝ L.toLin'.ker = Nat.card graph.ConnectedComponent
  second : ∀ two, secondEigenvalue positive.1 two = 0 ↔ ¬graph.Connected

theorem isLaplacian_iff (symmetric : ∀ i j, w i j = w j i) (nonneg : ∀ i j, 0 ≤ w i j) :
    IsLaplacian w (laplacian w) (support w) ↔ ∀ i, w i i = 0 := by
  constructor
  · intro facts i
    have constant := congrFun (facts.constant 1) i
    rw [mulVec_apply] at constant
    simpa using constant
  · intro loopless
    have constant : ∀ c, laplacian w *ᵥ (fun _ => c) = 0 := fun c =>
      (mulVec_eq_zero symmetric nonneg loopless).2 fun _ _ _ => rfl
    have positive := laplacian_posSemidef symmetric nonneg
    refine ⟨fun x => ?_, constant, positive, finrank_ker symmetric nonneg loopless, fun two => ?_⟩
    · rw [form_eq symmetric]
      simp only [loopless, zero_mul, Finset.sum_const_zero, add_zero]
    · rw [secondEigenvalue_eq_zero positive, finrank_ker symmetric nonneg loopless]
      exact (not_connected_iff _ (by simpa using two)).symm

/-- Over two vertices the smallest eigenvalue is zero, and the trace is the other one. -/
theorem IsLaplacian.pair {w L : Matrix (Fin 2) (Fin 2) ℝ} {graph : SimpleGraph (Fin 2)} (facts : IsLaplacian w L graph) (two) :
    L 0 0 + L 1 1 = secondEigenvalue facts.positive.1 two := by
  have trace := facts.positive.1.trace_eq_sum_eigenvalues
  have reordered := Equiv.sum_comp (Fintype.equivOfCardEq (Fintype.card_fin (Fintype.card (Fin 2)))).symm facts.positive.1.eigenvalues₀
  have smallest : facts.positive.1.eigenvalues₀ (1 : Fin 2) = 0 := by
    have inside : (fun _ => 1) ∈ L.toLin'.ker := facts.constant 1
    have nontrivial : 0 < finrank ℝ L.toLin'.ker := by
      refine finrank_pos_iff_exists_ne_zero.2 ⟨⟨fun _ => 1, inside⟩, fun zero => ?_⟩
      exact one_ne_zero (congrFun (congrArg Subtype.val zero) 0)
    exact (eigenvalue_eq_zero facts.positive _).2 nontrivial
  rw [trace_fin_two] at trace
  refine trace.trans (reordered.trans ?_)
  refine (Fin.sum_univ_two (facts.positive.1.eigenvalues₀ : Fin 2 → ℝ)).trans ?_
  rw [smallest, add_zero]
  rfl

end

end Legitimacy.WeightedLaplacian
