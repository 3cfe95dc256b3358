import Legitimacy.ExactSpectral.WeightedGraph
import Legitimacy.WeightedMeans

namespace Legitimacy

namespace ExactSpectral

open WeightedMeans

namespace WeightedGovernanceGraph

variable (weighted : WeightedGovernanceGraph) (signal : List ℚ)

def row (node : Nat) : List ℚ := (weighted.weights[node]?).getD []

def degree (node : Nat) : ℚ := (weighted.row node).sum

def maxDegree : ℚ := (((List.range weighted.nodeCount).map weighted.degree).max?).getD 0

def degreeRemoved (removed observer : Nat) : ℚ :=
  (((weighted.row observer).zipIdx.filter fun entry => entry.2 ≠ removed).map fun entry => entry.1).sum

def pairs (count : Nat) : List (Nat × Nat) := (List.range count).flatMap fun removed => (List.range count).map fun observer => (removed, observer)

def minRemovedDegree : ℚ :=
  if weighted.nodeCount = 0 then 0
  else (((pairs weighted.nodeCount).map fun pair => weighted.degreeRemoved pair.1 pair.2).min?).getD 0

def governance (observer : Nat) : ℚ :=
  safeDiv (((weighted.row observer).zip signal).map fun share => share.1 * share.2).sum (weighted.degree observer)

def governanceRemoved (removed observer : Nat) : ℚ :=
  safeDiv ((((weighted.row observer).zip signal).zipIdx.filter fun entry => entry.2 ≠ removed).map fun entry => entry.1.1 * entry.1.2).sum
    (weighted.degreeRemoved removed observer)

def perturbation (removed observer : Nat) : ℚ :=
  absRatio (weighted.governance signal observer - weighted.governanceRemoved signal removed observer)

def cv : ℚ :=
  if weighted.nodeCount = 0 then 0
  else (((pairs weighted.nodeCount).map fun pair => weighted.perturbation signal pair.1 pair.2).max?).getD 0

end WeightedGovernanceGraph

section

variable (approximation : FloatApproximation) (graph : GovernanceGraph) (signal : List ℚ)

def signalRange (signal : List ℚ) : ℚ := ((signal.flatMap fun left => signal.map fun right => absRatio (left - right)).max?).getD 0

def capacity (epsilon : ℚ) : Bool :=
  let weighted := WeightedGovernanceGraph.fromGraph approximation graph
  signalRange signal * weighted.maxDegree ≤ epsilon * weighted.minRemovedDegree

def capacityBound : ℚ :=
  let weighted := WeightedGovernanceGraph.fromGraph approximation graph
  safeDiv (signalRange signal * weighted.maxDegree) weighted.minRemovedDegree

def cv : ℚ := (WeightedGovernanceGraph.fromGraph approximation graph).cv signal

def spViolation (tolerance : ℚ) : Bool :=
  let weighted := WeightedGovernanceGraph.fromGraph approximation graph
  (WeightedGovernanceGraph.pairs weighted.nodeCount).any fun pair => tolerance ≤ weighted.perturbation signal pair.1 pair.2

def cStar (delta : ℚ) : ℚ := safeDiv delta ((WeightedGovernanceGraph.fromGraph approximation graph).cv signal)

end

section

theorem sum_filter_zipIdx {α : Type} (values : List α) (share : α → ℚ) (kept : Nat → Prop) [DecidablePred kept] :
    ((values.zipIdx.filter fun entry => kept entry.2).map fun entry => share entry.1).sum =
      ∑ place ∈ Finset.range values.length with kept place, (values[place]?).elim 0 share := by
  induction values using List.reverseRecOn with
  | nil => rfl
  | append_singleton rest last ih =>
    have before : ∀ place ∈ Finset.range rest.length, ((rest ++ [last])[place]?).elim 0 share = (rest[place]?).elim 0 share := by
      intro place member
      rw [List.getElem?_append_left (Finset.mem_range.1 member)]
    have earlier : ∑ place ∈ Finset.range rest.length with kept place, ((rest ++ [last])[place]?).elim 0 share =
        ∑ place ∈ Finset.range rest.length with kept place, (rest[place]?).elim 0 share :=
      Finset.sum_congr rfl fun place member => before place (Finset.mem_filter.1 member).1
    rw [List.zipIdx_append, List.filter_append, List.map_append, List.sum_append, ih, List.length_append, List.length_singleton, Finset.range_add_one,
      Finset.filter_insert]
    by_cases stays : kept rest.length
    · rw [if_pos stays, Finset.sum_insert (by simp), earlier, add_comm]
      simp [stays]
    · rw [if_neg stays, earlier]
      simp [stays]

theorem sum_map_places {α : Type} (values : List α) (share : α → ℚ) :
    (values.map share).sum = ∑ place ∈ Finset.range values.length, (values[place]?).elim 0 share := by
  rw [← Fin.sum_univ_fun_getElem, Finset.sum_range]
  exact Finset.sum_congr rfl fun place _ => by simp

theorem maxElim {values : List ℚ} (inhabited : values ≠ []) : values.max?.getD 0 ∈ values ∧ ∀ value ∈ values, value ≤ values.max?.getD 0 := by
  obtain ⟨greatest, found⟩ := Option.isSome_iff_exists.1 (List.isSome_max?_of_ne_nil inhabited)
  rw [found, Option.getD_some]
  exact List.max?_eq_some_iff.1 found

theorem minElim {values : List ℚ} (inhabited : values ≠ []) : values.min?.getD 0 ∈ values ∧ ∀ value ∈ values, values.min?.getD 0 ≤ value := by
  obtain ⟨least, found⟩ := Option.isSome_iff_exists.1 (List.isSome_min?_of_ne_nil inhabited)
  rw [found, Option.getD_some]
  exact List.min?_eq_some_iff.1 found

end

namespace WeightedGovernanceGraph

section

variable {weighted : WeightedGovernanceGraph} {signal : List ℚ} {removed observer node : Nat}

def signalAt (signal : List ℚ) (node : Nat) : ℚ := (signal[node]?).getD 0

abbrev places (weighted : WeightedGovernanceGraph) : Finset Nat := Finset.range weighted.nodeCount

section

variable (inside : observer < weighted.nodeCount)

include inside

theorem row_length : (weighted.row observer).length = weighted.nodeCount := by
  have found : weighted.weights[observer]? = some _ := List.getElem?_eq_getElem (weighted.square.1.symm ▸ inside)
  unfold row
  rw [found]
  exact weighted.square.2 _ (List.getElem_mem _)

theorem degree_eq : weighted.degree observer = ∑ node ∈ weighted.places, weighted.weights.entry observer node := by
  have total := sum_map_places (weighted.row observer) id
  rw [List.map_id, row_length inside] at total
  refine total.trans (Finset.sum_congr rfl fun node _ => ?_)
  unfold Weights.entry row
  cases ((weighted.weights[observer]?).getD [])[node]? <;> rfl

theorem degreeRemoved_eq :
    weighted.degreeRemoved removed observer = ∑ node ∈ weighted.places.erase removed, weighted.weights.entry observer node := by
  have total := sum_filter_zipIdx (weighted.row observer) id (· ≠ removed)
  rw [row_length inside, Finset.filter_ne'] at total
  refine total.trans (Finset.sum_congr rfl fun node _ => ?_)
  unfold Weights.entry row
  cases ((weighted.weights[observer]?).getD [])[node]? <;> rfl

section

variable (sized : signal.length = weighted.nodeCount)

include sized

theorem share_eq (member : node < weighted.nodeCount) :
    (((weighted.row observer).zip signal)[node]?).elim 0 (fun share => share.1 * share.2) =
      weighted.weights.entry observer node * signalAt signal node := by
  obtain ⟨weight, atRow⟩ : ∃ weight, (weighted.row observer)[node]? = some weight := ⟨_, List.getElem?_eq_getElem ((row_length inside).symm ▸ member)⟩
  obtain ⟨value, atSignal⟩ : ∃ value, signal[node]? = some value := ⟨_, List.getElem?_eq_getElem (sized.symm ▸ member)⟩
  have both : ((weighted.row observer).zip signal)[node]? = some (weight, value) := List.getElem?_zip_eq_some.2 ⟨atRow, atSignal⟩
  unfold Weights.entry signalAt
  unfold row at atRow
  rw [both, atRow, atSignal]
  rfl

theorem zip_length :
    ((weighted.row observer).zip signal).length = weighted.nodeCount := by
  rw [List.length_zip, row_length inside, sized, min_self]

theorem governance_eq :
    weighted.governance signal observer = weighted.places.centerMass (weighted.weights.entry observer) (signalAt signal) := by
  unfold governance
  rw [safeDiv_eq, centerMass_eq_div, degree_eq inside, sum_map_places, zip_length inside sized]
  congr 1
  exact Finset.sum_congr rfl fun node member => share_eq inside sized (Finset.mem_range.1 member)

theorem governanceRemoved_eq :
    weighted.governanceRemoved signal removed observer =
      (weighted.places.erase removed).centerMass (weighted.weights.entry observer) (signalAt signal) := by
  unfold governanceRemoved
  rw [safeDiv_eq, centerMass_eq_div, degreeRemoved_eq inside,
    sum_filter_zipIdx ((weighted.row observer).zip signal) (fun share => share.1 * share.2) (· ≠ removed), zip_length inside sized, Finset.filter_ne']
  congr 1
  exact Finset.sum_congr rfl fun node member => share_eq inside sized (Finset.mem_range.1 (Finset.mem_of_mem_erase member))

theorem perturbation_eq :
    weighted.perturbation signal removed observer = |weighted.places.centerMass (weighted.weights.entry observer) (signalAt signal) -
        (weighted.places.erase removed).centerMass (weighted.weights.entry observer) (signalAt signal)| := by
  rw [perturbation, absRatio_eq, governance_eq inside sized, governanceRemoved_eq inside sized]

end

end

theorem perturbation_nonneg : 0 ≤ weighted.perturbation signal removed observer := by
  rw [perturbation, absRatio_eq]
  exact abs_nonneg _

end

section

variable {weighted : WeightedGovernanceGraph} {signal : List ℚ}

theorem mem_pairs {count : Nat} {pair : Nat × Nat} : pair ∈ pairs count ↔ pair.1 < count ∧ pair.2 < count := by
  obtain ⟨removed, observer⟩ := pair
  simp [pairs]

theorem mem_pairs_map (share : Nat × Nat → ℚ) {count removed observer : Nat} (isRemoved : removed < count) (isObserver : observer < count) :
    share (removed, observer) ∈ (pairs count).map share :=
  List.mem_map_of_mem (mem_pairs.2 ⟨isRemoved, isObserver⟩)

theorem perturbation_le_cv {removed observer : Nat} (isRemoved : removed < weighted.nodeCount) (isObserver : observer < weighted.nodeCount) :
    weighted.perturbation signal removed observer ≤ weighted.cv signal := by
  unfold cv
  rw [if_neg (Nat.ne_of_gt (Nat.zero_lt_of_lt isRemoved))]
  have member := mem_pairs_map (fun pair => weighted.perturbation signal pair.1 pair.2) isRemoved isObserver
  exact (maxElim (List.ne_nil_of_mem member)).2 _ member

theorem exists_cv_eq (signal : List ℚ) (nonempty : 0 < weighted.nodeCount) : ∃ removed observer, removed < weighted.nodeCount ∧
    observer < weighted.nodeCount ∧ weighted.cv signal = weighted.perturbation signal removed observer := by
  unfold cv
  rw [if_neg nonempty.ne']
  have member := mem_pairs_map (fun pair => weighted.perturbation signal pair.1 pair.2) nonempty nonempty
  obtain ⟨pair, member, same⟩ := List.mem_map.1 (maxElim (List.ne_nil_of_mem member)).1
  exact ⟨pair.1, pair.2, (mem_pairs.1 member).1, (mem_pairs.1 member).2, same.symm⟩

theorem cv_of_empty (empty : weighted.nodeCount = 0) : weighted.cv signal = 0 := if_pos empty

theorem cv_nonneg : 0 ≤ weighted.cv signal := by
  rcases Nat.eq_zero_or_pos weighted.nodeCount with empty | nonempty
  · exact (cv_of_empty empty).ge
  · obtain ⟨removed, observer, -, -, same⟩ := exists_cv_eq signal nonempty
    rw [same]
    exact perturbation_nonneg

theorem le_cv_iff (nonempty : 0 < weighted.nodeCount) {tolerance : ℚ} : tolerance ≤ weighted.cv signal ↔
    ∃ removed observer, removed < weighted.nodeCount ∧ observer < weighted.nodeCount ∧ tolerance ≤ weighted.perturbation signal removed observer := by
  constructor
  · intro below
    obtain ⟨removed, observer, isRemoved, isObserver, same⟩ := exists_cv_eq signal nonempty
    exact ⟨removed, observer, isRemoved, isObserver, same ▸ below⟩
  · rintro ⟨removed, observer, isRemoved, isObserver, below⟩
    exact below.trans (perturbation_le_cv isRemoved isObserver)

theorem degree_le_maxDegree {node : Nat} (inside : node < weighted.nodeCount) : weighted.degree node ≤ weighted.maxDegree := by
  have member := List.mem_map_of_mem (f := weighted.degree) (List.mem_range.2 inside)
  exact (maxElim (List.ne_nil_of_mem member)).2 _ member

theorem minRemovedDegree_le {removed observer : Nat} (isRemoved : removed < weighted.nodeCount) (isObserver : observer < weighted.nodeCount) :
    weighted.minRemovedDegree ≤ weighted.degreeRemoved removed observer := by
  unfold minRemovedDegree
  rw [if_neg (Nat.ne_of_gt (Nat.zero_lt_of_lt isRemoved))]
  have member := mem_pairs_map (fun pair => weighted.degreeRemoved pair.1 pair.2) isRemoved isObserver
  exact (minElim (List.ne_nil_of_mem member)).2 _ member

theorem nonempty_of_minRemovedDegree (positive : 0 < weighted.minRemovedDegree) : 0 < weighted.nodeCount := by
  by_contra empty
  unfold minRemovedDegree at positive
  rw [if_pos (Nat.eq_zero_of_not_pos empty)] at positive
  exact lt_irrefl 0 positive

end

end WeightedGovernanceGraph

section

variable {signal : List ℚ}

theorem signalRange_spec {left right : ℚ} (isLeft : left ∈ signal) (isRight : right ∈ signal) : |left - right| ≤ signalRange signal := by
  have member : absRatio (left - right) ∈ signal.flatMap fun left => signal.map fun right => absRatio (left - right) :=
    List.mem_flatMap.2 ⟨left, isLeft, List.mem_map_of_mem isRight⟩
  rw [← absRatio_eq]
  exact (maxElim (List.ne_nil_of_mem member)).2 _ member

end

namespace WeightedGovernanceGraph

section

variable {weighted : WeightedGovernanceGraph} {signal : List ℚ}

def Insensitive (weighted : WeightedGovernanceGraph) (signal : List ℚ) : Prop :=
  ∀ observer < weighted.nodeCount, Uniform weighted.places (weighted.weights.entry observer) (signalAt signal)

def Nonnegative (weighted : WeightedGovernanceGraph) : Prop := ∀ row col, 0 ≤ weighted.weights.entry row col

theorem perturbation_eq_zero_iff {removed observer : Nat} (inside : observer < weighted.nodeCount) (sized : signal.length = weighted.nodeCount) :
    weighted.perturbation signal removed observer = 0 ↔ weighted.places.centerMass (weighted.weights.entry observer) (signalAt signal) =
      (weighted.places.erase removed).centerMass (weighted.weights.entry observer) (signalAt signal) := by
  rw [perturbation_eq inside sized, abs_eq_zero, sub_eq_zero]

theorem cv_eq_zero_iff (nonneg : weighted.Nonnegative) (sized : signal.length = weighted.nodeCount) :
    weighted.cv signal = 0 ↔ weighted.Insensitive signal := by
  have still : weighted.cv signal = 0 ↔
      ∀ observer < weighted.nodeCount, ∀ removed ∈ weighted.places, weighted.perturbation signal removed observer = 0 := by
    rcases Nat.eq_zero_or_pos weighted.nodeCount with empty | nonempty
    · simp [cv_of_empty empty, empty]
    · constructor
      · intro zero observer isObserver removed isRemoved
        have bounded := @perturbation_le_cv weighted signal removed observer (Finset.mem_range.1 isRemoved) isObserver
        exact le_antisymm (zero ▸ bounded) perturbation_nonneg
      · intro zero
        obtain ⟨removed, observer, isRemoved, isObserver, same⟩ := exists_cv_eq signal nonempty
        rw [same, zero observer isObserver removed (Finset.mem_range.2 isRemoved)]
  rw [still]
  refine forall₂_congr fun observer isObserver => ?_
  rw [← unmoved_iff_uniform fun node _ => nonneg observer node]
  exact forall₂_congr fun removed _ => perturbation_eq_zero_iff isObserver sized

theorem minRemovedDegree_nonneg (nonneg : weighted.Nonnegative) : 0 ≤ weighted.minRemovedDegree := by
  unfold minRemovedDegree
  split_ifs with empty
  · exact le_rfl
  · have nonempty := Nat.pos_of_ne_zero empty
    obtain ⟨attained, -⟩ := minElim (List.ne_nil_of_mem (mem_pairs_map (fun pair => weighted.degreeRemoved pair.1 pair.2) nonempty nonempty))
    obtain ⟨pair, member, same⟩ := List.mem_map.1 attained
    rw [← same, degreeRemoved_eq (mem_pairs.1 member).2]
    exact Finset.sum_nonneg fun node _ => nonneg _ node

theorem minRemovedDegree_le_maxDegree (nonneg : weighted.Nonnegative) (nonempty : 0 < weighted.nodeCount) :
    weighted.minRemovedDegree ≤ weighted.maxDegree :=
  calc weighted.minRemovedDegree
      ≤ weighted.degreeRemoved 0 0 := minRemovedDegree_le nonempty nonempty
    _ ≤ weighted.degree 0 := by
      rw [degreeRemoved_eq nonempty, degree_eq nonempty]
      exact Finset.sum_le_sum_of_subset_of_nonneg (Finset.erase_subset _ _) fun node _ _ => nonneg 0 node
    _ ≤ weighted.maxDegree := degree_le_maxDegree nonempty

theorem signalAt_mem (sized : signal.length = weighted.nodeCount) {node : Nat} (member : node ∈ weighted.places) : signalAt signal node ∈ signal := by
  have found : signal[node]? = some _ := List.getElem?_eq_getElem (sized.symm ▸ Finset.mem_range.1 member)
  unfold signalAt
  rw [found]
  exact List.getElem_mem _

theorem signalRange_nonneg (sized : signal.length = weighted.nodeCount) (nonempty : 0 < weighted.nodeCount) : 0 ≤ signalRange signal := by
  have first := signalAt_mem sized (Finset.mem_range.2 nonempty)
  exact (abs_nonneg _).trans (signalRange_spec first first)

theorem cv_le_of_minRemovedDegree (nonneg : weighted.Nonnegative) (sized : signal.length = weighted.nodeCount)
    (positive : 0 < weighted.minRemovedDegree) : weighted.cv signal * weighted.minRemovedDegree ≤ signalRange signal * weighted.maxDegree := by
  have nonempty := nonempty_of_minRemovedDegree positive
  obtain ⟨removed, observer, isRemoved, isObserver, same⟩ := exists_cv_eq signal nonempty
  have left : 0 < ∑ node ∈ weighted.places.erase removed, weighted.weights.entry observer node := by
    rw [← degreeRemoved_eq isObserver]
    exact positive.trans_le (minRemovedDegree_le isRemoved isObserver)
  have within : weighted.cv signal ≤ signalRange signal := by
    rw [same, perturbation_eq isObserver sized]
    exact abs_centerMass_sub_le (Finset.erase_subset _ _) (fun node _ => nonneg observer node) left fun one isOne other isOther =>
      signalRange_spec (signalAt_mem sized isOne) (signalAt_mem sized isOther)
  exact mul_le_mul within (minRemovedDegree_le_maxDegree nonneg nonempty) positive.le (signalRange_nonneg sized nonempty)

end

end WeightedGovernanceGraph

section

open WeightedGovernanceGraph

variable {approximation : FloatApproximation} {graph : GovernanceGraph} {signal : List ℚ}

theorem nodeCount_fromGraph : (fromGraph approximation graph).nodeCount = graph.nodes.size := Std.ExtTreeMap.length_keys

theorem fromGraph_nonnegative : (fromGraph approximation graph).Nonnegative := fun _ _ => fromGraph_nonneg approximation graph

theorem spViolation_iff {tolerance : ℚ} : spViolation approximation graph signal tolerance = true ↔
    ∃ removed observer, removed < graph.nodes.size ∧ observer < graph.nodes.size ∧
      tolerance ≤ (fromGraph approximation graph).perturbation signal removed observer := by
  unfold spViolation
  rw [List.any_eq_true, nodeCount_fromGraph]
  constructor
  · rintro ⟨pair, member, reached⟩
    exact ⟨pair.1, pair.2, (mem_pairs.1 member).1, (mem_pairs.1 member).2, of_decide_eq_true reached⟩
  · rintro ⟨removed, observer, isRemoved, isObserver, reached⟩
    exact ⟨(removed, observer), mem_pairs.2 ⟨isRemoved, isObserver⟩, decide_eq_true reached⟩

theorem spViolation_iff_le_cv (nonempty : 0 < graph.nodes.size) {tolerance : ℚ} :
    spViolation approximation graph signal tolerance = true ↔ tolerance ≤ cv approximation graph signal := by
  rw [spViolation_iff]
  unfold cv
  rw [le_cv_iff (by rwa [nodeCount_fromGraph]), nodeCount_fromGraph]

theorem cv_nonneg : 0 ≤ cv approximation graph signal := WeightedGovernanceGraph.cv_nonneg

theorem not_violation_of_cv_le {epsilon tolerance : ℚ} (bounded : cv approximation graph signal ≤ epsilon) (above : epsilon < tolerance) :
    spViolation approximation graph signal tolerance = false := by
  rw [Bool.eq_false_iff]
  intro violated
  obtain ⟨removed, observer, isRemoved, isObserver, reached⟩ := spViolation_iff.1 violated
  have nonempty : 0 < graph.nodes.size := Nat.zero_lt_of_lt isRemoved
  exact absurd ((spViolation_iff_le_cv nonempty).1 violated) (not_le.2 (bounded.trans_lt above))

variable (approximation graph signal)

/-- The bound holds where every removal leaves weight behind and, at zero, where no removal moves a mean. -/
theorem cv_le_capacity_bound (sized : signal.length = graph.nodes.size) :
    (cv approximation graph signal ≤ capacityBound approximation graph signal ↔
      0 < (fromGraph approximation graph).minRemovedDegree ∨ (fromGraph approximation graph).Insensitive signal) ∧
    ∀ epsilon, capacity approximation graph signal epsilon = true →
      (graph.nodes.size = 0 ∨ 0 < (fromGraph approximation graph).minRemovedDegree ∨
        0 ≤ epsilon ∧ (fromGraph approximation graph).Insensitive signal) →
      ∀ tolerance, epsilon < tolerance → spViolation approximation graph signal tolerance = false := by
  have counted : signal.length = (fromGraph approximation graph).nodeCount := by rw [sized, nodeCount_fromGraph]
  have zero := @cv_eq_zero_iff (fromGraph approximation graph) signal fromGraph_nonnegative counted
  constructor
  · unfold cv capacityBound
    rw [safeDiv_eq]
    rcases (minRemovedDegree_nonneg (@fromGraph_nonnegative approximation graph)).lt_or_eq with positive | none
    · exact iff_of_true ((le_div_iff₀ positive).2 (cv_le_of_minRemovedDegree fromGraph_nonnegative counted positive)) (.inl positive)
    · -- the bound is zero, which only a vulnerability of zero is below
      rw [← none, div_zero, ← zero]
      have nonneg := @WeightedGovernanceGraph.cv_nonneg (fromGraph approximation graph) signal
      constructor
      · exact fun below => .inr (le_antisymm below nonneg)
      · rintro (positive | same)
        · exact absurd positive (lt_irrefl 0)
        · exact same.le
  · rintro epsilon capable (empty | positive | ⟨nonneg, still⟩) tolerance above
    · rw [Bool.eq_false_iff]
      intro violated
      obtain ⟨removed, -, isRemoved, -⟩ := spViolation_iff.1 violated
      omega
    · have budget : signalRange signal * (fromGraph approximation graph).maxDegree ≤
          epsilon * (fromGraph approximation graph).minRemovedDegree := of_decide_eq_true capable
      have bounded := (cv_le_of_minRemovedDegree fromGraph_nonnegative counted positive).trans budget
      exact not_violation_of_cv_le (le_of_mul_le_mul_right bounded positive) above
    · exact not_violation_of_cv_le ((zero.2 still).trans_le nonneg) above

end

section

def exactOnly : FloatApproximation := ⟨fun _ => none, by simp⟩

def plainNode (id : NodeId) : GovernanceNode := .binary id id.asStr [] .escalate .firstMatch

def first : NodeId := ⟨"0", by decide⟩

def second : NodeId := ⟨"1", by decide⟩

def third : NodeId := ⟨"2", by decide⟩

def bridge : GovernanceGraph where
  nodes := ((∅ : BTreeMap NodeId GovernanceNode).insert first (plainNode first)).insert second (plainNode second)
  edges := [⟨first, second, .passThrough⟩]

def uniformTriangle : GovernanceGraph where
  nodes := (((∅ : BTreeMap NodeId GovernanceNode).insert first (plainNode first)).insert second (plainNode second)).insert third (plainNode third)
  edges := [⟨first, second, .passThrough⟩, ⟨first, third, .passThrough⟩, ⟨second, third, .passThrough⟩]

theorem cv_le_capacity_bound_triangle : cv exactOnly uniformTriangle [1, 2, 3] ≤ capacityBound exactOnly uniformTriangle [1, 2, 3] ∧
    spViolation exactOnly uniformTriangle [1, 2, 3] 5 = false := by
  have positive : 0 < (WeightedGovernanceGraph.fromGraph exactOnly uniformTriangle).minRemovedDegree := by decide +kernel
  have bounds := cv_le_capacity_bound exactOnly uniformTriangle [1, 2, 3] (by decide +kernel)
  exact ⟨bounds.1.2 (.inl positive), bounds.2 4 (by decide +kernel) (.inr (.inl positive)) 5 (by decide +kernel)⟩

/-- The removal of an only neighbour moves a mean to zero, and the bound does not see it. -/
theorem bridge_exceeds_capacity_bound : ¬cv exactOnly bridge [1, 1] ≤ capacityBound exactOnly bridge [1, 1] ∧
    capacity exactOnly bridge [1, 1] 0 = true ∧ spViolation exactOnly bridge [1, 1] 1 = true := by
  decide +kernel

end

end ExactSpectral

end Legitimacy
