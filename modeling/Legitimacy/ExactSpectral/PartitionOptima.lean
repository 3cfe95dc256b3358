import Legitimacy.ExactSpectral.PartitionSearch

namespace Legitimacy

namespace ExactSpectral

open CandidateSearch ExceptRun SetPartitions

section

variable {weighted : WeightedGovernanceGraph} {better : List Nat → List Nat → Except Panic Bool} {cost : Finset ℕ → ℚ} {nodeCount : Nat}
  {blocks : List (List Nat)}

theorem mapM_indexed {block : List Nat} (within : ∀ node ∈ block, node < weighted.nodeCount) :
    block.mapM (indexed weighted.nodeIds) = .ok (nodesOf weighted block) := by
  rw [mapM_eq_ok]
  induction block with
  | nil => exact .nil
  | cons node rest ih =>
    obtain ⟨id, found⟩ : ∃ id, weighted.nodeIds[node]? = some id := ⟨_, List.getElem?_eq_getElem (within node List.mem_cons_self)⟩
    have first : nodesOf weighted (node :: rest) = id :: nodesOf weighted rest := by
      unfold nodesOf
      rw [List.filterMap_cons, found]
    rw [first]
    exact .cons (indexed_eq_ok.2 found) (ih fun other listed => within other (List.mem_cons_of_mem node listed))

theorem partitionFromIndices_eq (partitions : IsPartition weighted.nodeCount blocks) :
    partitionFromIndices weighted blocks = .ok ⟨blocks.map (nodesOf weighted)⟩ := by
  unfold partitionFromIndices
  rw [mapM_of_ok fun block listed => mapM_indexed fun node member => partitions.lt_count listed member]
  rfl

def cutKey (nodeCount : Nat) (cost : Finset ℕ → ℚ) (side : List Nat) : ℚ ×ₗ List Bool :=
  toLex (cost side.toFinset, absences (List.range nodeCount) (canonicalMergedSide nodeCount side).toFinset)

/-- A cost that does not tell the sides of a cut apart. -/
def Balanced (nodeCount : Nat) (cost : Finset ℕ → ℚ) : Prop := ∀ side ⊆ Finset.range nodeCount, cost (Finset.range nodeCount \ side) = cost side

theorem Balanced.cost_canonical (balanced : Balanced nodeCount cost) {side : List Nat} (isSide : IsSide nodeCount side) :
    cost (canonicalMergedSide nodeCount side).toFinset = cost side.toFinset := by
  rcases canonicalMergedSide_cases nodeCount side with same | turned
  · rw [same]
  · rw [turned, isSide.toFinset_complement, balanced _ isSide.subset]

theorem leastCut_of_least (balanced : Balanced nodeCount cost) {best : List Nat} (isBest : best ∈ nontrivialSubsets nodeCount)
    (least : ∀ candidate ∈ nontrivialSubsets nodeCount, cutKey nodeCount cost best ≤ cutKey nodeCount cost candidate) :
    LeastCut nodeCount cost (canonicalMergedSide nodeCount best).toFinset := by
  obtain ⟨isSide, some, fewer⟩ := mem_nontrivialSubsets.1 isBest
  have same := balanced.cost_canonical isSide
  have below : ∀ other, IsCut nodeCount other → cost best.toFinset < cost other ∨ cost best.toFinset = cost other ∧
      absences (List.range nodeCount) (canonicalMergedSide nodeCount best).toFinset ≤
        absences (List.range nodeCount) (canonicalMergedSide nodeCount (sideOf nodeCount other)).toFinset := by
    intro other cut
    have members := toFinset_sideOf cut.2.1
    have listed := (isSide_sideOf other).isCut_iff.1 (members.symm ▸ cut)
    have atMost := Prod.Lex.le_iff.1 (least _ listed)
    rw [cutKey, cutKey, members] at atMost
    exact atMost
  refine ⟨isSide.isCut_canonical (isSide.isCut_iff.2 isBest), isSide.isCanonical (by omega), fun other cut => ?_, fun other cut canonical equal => ?_⟩
  · rw [same]
    rcases below other cut with less | ⟨equal, -⟩
    · exact less.le
    · exact equal.le
  · rw [same] at equal
    obtain ⟨-, ordered⟩ := (below other cut).resolve_left (equal ▸ lt_irrefl _)
    have members := toFinset_sideOf cut.2.1
    rw [(isSide_sideOf other).canonicalMergedSide_eq (members.symm ▸ canonical), members] at ordered
    have inside := isSide.canonicalMergedSide.subset
    rcases ordered.lt_or_eq with before | equals
    · exact .inr ((absences_range_lt inside).1 before)
    · exact .inl ((absences_range_inj inside cut.2.1).1 equals).symm

theorem bestCut_eq {candidates : List (List Nat)} {best : List Nat} (isBest : best ∈ nontrivialSubsets weighted.nodeCount)
    (run : bestOf better candidates = .ok (some best)) : bestCut weighted better candidates =
      .ok (some ⟨(mergeSidePartitionIndices weighted.nodeCount (canonicalMergedSide weighted.nodeCount best)).map (nodesOf weighted)⟩) := by
  obtain ⟨isSide, -, -⟩ := mem_nontrivialSubsets.1 isBest
  have cut := (isSide.isCut_canonical (isSide.isCut_iff.2 isBest)).1
  have merges := mergeSidePartitionIndices_merges isSide.canonicalMergedSide (List.toFinset_nonempty_iff _ |>.1 cut)
  unfold bestCut bestSubset
  rw [run]
  change (partitionFromIndices weighted _ >>= fun merged => .ok (some merged)) = _
  rw [partitionFromIndices_eq merges.partitions]
  rfl

theorem exists_bestCut (two : 2 ≤ weighted.nodeCount) (balanced : Balanced weighted.nodeCount cost)
    (compares : Compares better (cutKey weighted.nodeCount cost) (nontrivialSubsets weighted.nodeCount)) :
    ∃ side blocks, LeastCut weighted.nodeCount cost side ∧ MergesSide weighted.nodeCount side blocks ∧
      ∀ candidates, (∀ candidate, candidate ∈ candidates ↔ candidate ∈ nontrivialSubsets weighted.nodeCount) →
        bestCut weighted better candidates = .ok (some ⟨blocks.map (nodesOf weighted)⟩) := by
  have alone : [0] ∈ nontrivialSubsets weighted.nodeCount := mem_nontrivialSubsets.2
    ⟨⟨List.pairwise_singleton _ 0, fun node member => by rw [List.mem_singleton.1 member]; omega⟩, List.cons_ne_nil 0 [], by
      rw [List.length_singleton]; omega⟩
  obtain ⟨best, isBest, run, least⟩ := exists_bestOf compares (List.ne_nil_of_mem alone)
  obtain ⟨isSide, -, -⟩ := mem_nontrivialSubsets.1 isBest
  have isLeast := leastCut_of_least balanced isBest least
  refine ⟨_, _, isLeast, mergeSidePartitionIndices_merges isSide.canonicalMergedSide ((List.toFinset_nonempty_iff _).1 isLeast.cut.1),
    fun candidates same => ?_⟩
  have comparesCandidates : Compares better (cutKey weighted.nodeCount cost) candidates := fun left isLeft right isRight =>
    compares left ((same left).1 isLeft) right ((same right).1 isRight)
  obtain ⟨other, isOther, otherRun, -⟩ := exists_bestOf comparesCandidates (List.ne_nil_of_mem ((same [0]).2 alone))
  have otherBest := (same other).1 isOther
  obtain ⟨isOtherSide, -, -⟩ := mem_nontrivialSubsets.1 otherBest
  have equal : absences _ _ = absences _ _ := congrArg (fun key => (ofLex key).2) (key_bestOf compares same run otherRun)
  rw [absences_range_inj isSide.canonicalMergedSide.subset isOtherSide.canonicalMergedSide.subset] at equal
  rw [bestCut_eq otherBest otherRun, isOtherSide.canonicalMergedSide.eq_of_toFinset isSide.canonicalMergedSide equal.symm]

end

section

open WeightedGovernanceGraph

namespace WeightedGovernanceGraph

def volume (weighted : WeightedGovernanceGraph) (side : Finset ℕ) : ℚ := ∑ node ∈ side, weighted.degree node

def conductance (weighted : WeightedGovernanceGraph) (side : Finset ℕ) : ℚ :=
  (∑ row ∈ side, ∑ col ∈ weighted.places \ side, weighted.weights.entry row col) /
    min (weighted.volume side) (weighted.volume (weighted.places \ side))

/-- What the pairs on one side weigh beyond the product of their degrees, by twice the edge mass. -/
def modularity (weighted : WeightedGovernanceGraph) (side : Finset ℕ) : ℚ :=
  (∑ row ∈ weighted.places, ∑ col ∈ weighted.places, if row ∈ side ↔ col ∈ side then
    weighted.weights.entry row col - weighted.degree row * weighted.degree col / (2 * weighted.volume weighted.places) else 0) /
    (2 * weighted.volume weighted.places)

end WeightedGovernanceGraph

variable {weighted : WeightedGovernanceGraph} {side : List Nat}

theorem conductance_balanced (symmetric : ∀ row col, weighted.weights.entry row col = weighted.weights.entry col row) :
    Balanced weighted.nodeCount weighted.conductance := by
  intro side within
  unfold conductance
  rw [Finset.sdiff_sdiff_eq_self within, min_comm, Finset.sum_comm]
  simp only [symmetric]

theorem modularity_balanced : Balanced weighted.nodeCount weighted.modularity := by
  intro side _
  unfold modularity
  congr 1
  refine Finset.sum_congr rfl fun row isRow => Finset.sum_congr rfl fun col isCol => if_congr ?_ rfl rfl
  rw [Finset.mem_sdiff, Finset.mem_sdiff, and_iff_right isRow, and_iff_right isCol, not_iff_not]

theorem sideVolume_eq (isSide : IsSide weighted.nodeCount side) : sideVolume weighted side = weighted.volume side.toFinset :=
  (List.sum_toFinset weighted.degree isSide.nodup).symm

theorem blockSum_eq_sum {left right : List Nat} (isLeft : left.Nodup) (isRight : right.Nodup) (weights : Weights) :
    blockSum weights left right = ∑ row ∈ left.toFinset, ∑ col ∈ right.toFinset, weights.entry row col := by
  unfold blockSum
  rw [List.sum_toFinset _ isLeft]
  exact congrArg List.sum (List.map_congr_left fun row _ => (List.sum_toFinset _ isRight).symm)

theorem conductanceScore_eq (isSide : IsSide weighted.nodeCount side) :
    conductanceScore weighted side = .ok (weighted.conductance side.toFinset) := by
  unfold conductanceScore blockWeight
  dsimp only
  rw [coarseWeight_eq isSide.below isSide.complement.below]
  change Except.ok (safeDiv _ _) = _
  rw [safeDiv_eq, sideVolume_eq isSide, sideVolume_eq isSide.complement, blockSum_eq_sum isSide.nodup isSide.complement.nodup,
    isSide.toFinset_complement]
  rfl

theorem totalEdgeMass_eq : totalEdgeMass weighted = weighted.volume weighted.places := by
  unfold totalEdgeMass volume
  rw [List.sum_flatten, sum_map_places, weighted.square.1]
  refine Finset.sum_congr rfl fun row isRow => ?_
  unfold degree WeightedGovernanceGraph.row
  cases weighted.weights[row]? <;> rfl

theorem sum_range_map (count : Nat) (number : Nat → ℚ) : ((List.range count).map number).sum = ∑ node ∈ Finset.range count, number node := by
  rw [← List.toFinset_range, List.sum_toFinset _ List.nodup_range]

theorem sameBlock_iff (isSide : IsSide weighted.nodeCount side) {row col : Nat} (isRow : row < weighted.nodeCount)
    (isCol : col < weighted.nodeCount) :
    ((contains side row && contains side col) || (contains (complement weighted.nodeCount side) row && contains (complement weighted.nodeCount side) col)) =
      true ↔ (row ∈ side.toFinset ↔ col ∈ side.toFinset) := by
  rw [Bool.or_eq_true, Bool.and_eq_true, Bool.and_eq_true, contains_iff isSide.ascending, contains_iff isSide.ascending,
    contains_iff isSide.complement.ascending, contains_iff isSide.complement.ascending, isSide.mem_complement, isSide.mem_complement,
    List.mem_toFinset, List.mem_toFinset]
  by_cases atRow : row ∈ side
  · simp [atRow]
  · simp [atRow, isRow, isCol]

theorem modularityScore_eq (isSide : IsSide weighted.nodeCount side) : modularityScore weighted side = weighted.modularity side.toFinset := by
  unfold modularityScore modularity
  dsimp only
  rw [safeDiv_eq, totalEdgeMass_eq, sum_flatMap, sum_range_map]
  congr 1
  refine Finset.sum_congr rfl fun row isRow => ?_
  rw [List.map_map, sum_range_map]
  refine Finset.sum_congr rfl fun col isCol => ?_
  rw [Function.comp_apply, safeDiv_eq]
  exact if_congr (sameBlock_iff isSide (Finset.mem_range.1 isRow) (Finset.mem_range.1 isCol)) rfl rfl

theorem decide_cut {cost : Finset ℕ → ℚ} {left right : List Nat} (isLeft : IsSide weighted.nodeCount left)
    (isRight : IsSide weighted.nodeCount right) :
    (decide (cost left.toFinset < cost right.toFinset) || cost left.toFinset == cost right.toFinset &&
      subsetLexLt weighted.nodeCount (canonicalMergedSide weighted.nodeCount left) (canonicalMergedSide weighted.nodeCount right)) =
      decide (cutKey weighted.nodeCount cost left < cutKey weighted.nodeCount cost right) := by
  refine Bool.eq_iff_iff.2 ?_
  rw [Bool.or_eq_true, decide_eq_true_iff, Bool.and_eq_true, beq_iff_eq, subsetLexLt_iff isLeft.canonicalMergedSide isRight.canonicalMergedSide,
    decide_eq_true_iff, Prod.Lex.lt_iff]
  rfl

theorem cheegerBetter_compares : Compares (cheegerBetter weighted) (cutKey weighted.nodeCount weighted.conductance)
    (nontrivialSubsets weighted.nodeCount) := by
  intro left isLeft right isRight
  obtain ⟨asLeft, -, -⟩ := mem_nontrivialSubsets.1 isLeft
  obtain ⟨asRight, -, -⟩ := mem_nontrivialSubsets.1 isRight
  unfold cheegerBetter
  rw [conductanceScore_eq asLeft, conductanceScore_eq asRight]
  exact congrArg Except.ok (decide_cut asLeft asRight)

theorem modularityBetter_compares : Compares (modularityBetter weighted) (cutKey weighted.nodeCount fun side => -weighted.modularity side)
    (nontrivialSubsets weighted.nodeCount) := by
  intro left isLeft right isRight
  obtain ⟨asLeft, -, -⟩ := mem_nontrivialSubsets.1 isLeft
  obtain ⟨asRight, -, -⟩ := mem_nontrivialSubsets.1 isRight
  unfold modularityBetter
  rw [modularityScore_eq asLeft, modularityScore_eq asRight, ← decide_cut asLeft asRight]
  have same : (-weighted.modularity left.toFinset == -weighted.modularity right.toFinset) =
      (weighted.modularity left.toFinset == weighted.modularity right.toFinset) := by
    rw [Bool.eq_iff_iff, beq_iff_eq, beq_iff_eq, neg_inj]
  simp only [neg_lt_neg_iff, same]

end

section

variable {weighted : WeightedGovernanceGraph} {nodeCount node : Nat} {blocks others left right : List (List Nat)} {signal : List ℚ}

theorem insertIntoBlocks_eq (ascending : ∀ block ∈ blocks, block.Pairwise (· < ·)) (below : ∀ block ∈ blocks, ∀ other ∈ block, other < node) :
    insertIntoBlocks node blocks = insertions node blocks := by
  have sorted : ∀ block ∈ blocks, (block ++ [node]).insertionSort (· ≤ ·) = block ++ [node] := fun block listed =>
    insertionSort_ascending (List.pairwise_append.2 ⟨ascending block listed, List.pairwise_singleton _ node, fun other member last isLast => by
      rw [List.mem_singleton.1 isLast]
      exact below block listed other member⟩)
  have spread : ((List.range blocks.length).map fun index => blocks.modify index fun block => (block ++ [node]).insertionSort (· ≤ ·)) ++
      [blocks ++ [[node]]] = insertions node blocks := by
    clear ascending below
    induction blocks with
    | nil => rfl
    | cons block rest ih =>
      have tail := ih fun other listed => sorted other (List.mem_cons_of_mem block listed)
      rw [insertions, ← tail, List.length_cons, List.range_succ_eq_map, List.map_cons, List.modify_zero_cons, sorted block List.mem_cons_self,
        List.map_map, List.map_append, List.map_map]
      simp
  unfold insertIntoBlocks
  split_ifs with empty
  · rw [empty]
    rfl
  · exact spread

theorem allSetPartitions_eq (nodeCount : Nat) : allSetPartitions nodeCount = enumerate nodeCount := by
  induction nodeCount with
  | zero => rfl
  | succ count ih =>
    have step : allSetPartitions (count + 1) = (allSetPartitions count).flatMap (insertIntoBlocks count) := by
      unfold allSetPartitions
      rw [List.range_succ, List.foldl_append]
      rfl
    rw [step, ih, enumerate]
    refine List.flatMap_congr fun partition listed => ?_
    have partitions := mem_enumerate.1 listed
    exact insertIntoBlocks_eq partitions.ascending fun block isBlock other member => partitions.lt_count isBlock member

/-- At the first block where the partitions differ, that of the left one precedes. -/
def BlocksPrecede (left right : List (List Nat)) : Prop := ∃ shared one other leftRest rightRest,
  left = shared ++ one :: leftRest ∧ right = shared ++ other :: rightRest ∧ Precedes one.toFinset other.toFinset

def blocksKey (nodeCount : Nat) (blocks : List (List Nat)) : List (List Bool) :=
    blocks.map fun block => absences (List.range nodeCount) block.toFinset

theorem blocksKey_inj (isLeft : ∀ block ∈ left, IsSide nodeCount block) (isRight : ∀ block ∈ right, IsSide nodeCount block)
    (same : blocksKey nodeCount left = blocksKey nodeCount right) : left = right := by
  induction left generalizing right with
  | nil => exact (List.map_eq_nil_iff.1 same.symm).symm
  | cons block rest ih => cases right with
    | nil => cases same
    | cons other more =>
      obtain ⟨head, tail⟩ := List.cons.inj same
      have atLeft := isLeft block List.mem_cons_self
      have atRight := isRight other List.mem_cons_self
      rw [atLeft.eq_of_toFinset atRight ((absences_range_inj atLeft.subset atRight.subset).1 head),
        ih (fun next listed => isLeft next (List.mem_cons_of_mem block listed))
          (fun next listed => isRight next (List.mem_cons_of_mem other listed)) tail]

theorem blocksLexLt_iff (isLeft : ∀ block ∈ left, IsSide nodeCount block) (isRight : ∀ block ∈ right, IsSide nodeCount block) :
    blocksLexLt nodeCount left right = true ↔ blocksKey nodeCount left < blocksKey nodeCount right := by
  induction left generalizing right with
  | nil => cases right <;> simp [blocksKey, blocksLexLt]
  | cons block rest ih => cases right with
    | nil => simp [blocksKey, blocksLexLt]
    | cons other more =>
      have atLeft := isLeft block List.mem_cons_self
      have atRight := isRight other List.mem_cons_self
      have tail := ih (fun next listed => isLeft next (List.mem_cons_of_mem block listed)) fun next listed =>
          isRight next (List.mem_cons_of_mem other listed)
      have head : blocksKey nodeCount (block :: rest) < blocksKey nodeCount (other :: more) ↔
          absences (List.range nodeCount) block.toFinset < absences (List.range nodeCount) other.toFinset ∨
          absences (List.range nodeCount) block.toFinset = absences (List.range nodeCount) other.toFinset ∧
            blocksKey nodeCount rest < blocksKey nodeCount more := List.cons_lt_cons_iff
      unfold blocksLexLt at tail ⊢
      rw [head, ← tail, List.zip_cons_cons, List.find?_cons]
      by_cases same : block = other
      · subst same
        simp
      · have differ : absences (List.range nodeCount) block.toFinset ≠ absences (List.range nodeCount) other.toFinset := fun equal =>
          same (atLeft.eq_of_toFinset atRight ((absences_range_inj atLeft.subset atRight.subset).1 equal))
        simp [same, differ, subsetLexLt_iff atLeft atRight]

theorem blocksPrecede_of_lt (isLeft : ∀ block ∈ left, IsSide nodeCount block) (isRight : ∀ block ∈ right, IsSide nodeCount block)
    (long : left.length = right.length) (before : blocksKey nodeCount left < blocksKey nodeCount right) : BlocksPrecede left right := by
  induction left generalizing right with
  | nil =>
    rw [List.eq_nil_of_length_eq_zero long.symm] at before
    exact absurd before (lt_irrefl _)
  | cons block rest ih => cases right with
    | nil => cases long
    | cons other more =>
      have atLeft := isLeft block List.mem_cons_self
      have atRight := isRight other List.mem_cons_self
      rcases List.cons_lt_cons_iff.1 before with here | ⟨same, later⟩
      · exact ⟨[], block, other, rest, more, rfl, rfl, (absences_range_lt atLeft.subset).1 here⟩
      · obtain ⟨shared, one, next, leftRest, rightRest, splitLeft, splitRight, precedes⟩ := ih
          (fun next listed => isLeft next (List.mem_cons_of_mem block listed)) (fun next listed => isRight next (List.mem_cons_of_mem other listed))
          (Nat.succ.inj long) later
        obtain rfl := atLeft.eq_of_toFinset atRight ((absences_range_inj atLeft.subset atRight.subset).1 same)
        exact ⟨block :: shared, one, next, leftRest, rightRest, by rw [splitLeft]; rfl, by rw [splitRight]; rfl, precedes⟩

end

section

open WeightedGovernanceGraph

variable {weighted : WeightedGovernanceGraph} {blocks : List (List Nat)} {block : List Nat} {signal : List ℚ}

def mean (signal : List ℚ) (block : List Nat) : ℚ := (block.map (signalAt signal)).sum / block.length

def variance (signal : List ℚ) (block : List Nat) : ℚ := (block.map fun node => (signalAt signal node - mean signal block) ^ 2).sum / block.length

def totalVariance (signal : List ℚ) (blocks : List (List Nat)) : ℚ := (blocks.map (variance signal)).sum

theorem indexed_signal {node : Nat} (within : node < signal.length) : indexed signal node = .ok (signalAt signal node) := by
  obtain ⟨value, found⟩ : ∃ value, signal[node]? = some value := ⟨_, List.getElem?_eq_getElem within⟩
  rw [signalAt, found]
  exact indexed_eq_ok.2 found

theorem blockVariance_eq (within : ∀ node ∈ block, node < signal.length) : blockVariance signal block = .ok (variance signal block) := by
  have values := mapM_of_ok fun node member => indexed_signal (within node member)
  have isMean : blockMean signal block = .ok (mean signal block) := by
    unfold blockMean
    rw [values]
    exact congrArg Except.ok (safeDiv_eq _ _)
  have squares : (block.mapM fun index => do
      let value ← indexed signal index
      .ok ((value - mean signal block) * (value - mean signal block))) =
      .ok (block.map fun node => (signalAt signal node - mean signal block) ^ 2) := by
    refine mapM_of_ok fun node member => ?_
    rw [indexed_signal (within node member), sq]
    rfl
  unfold blockVariance
  rw [isMean]
  change ((block.mapM fun index => do
      let value ← indexed signal index
      .ok ((value - mean signal block) * (value - mean signal block))) >>= fun squares => .ok (safeDiv squares.sum block.length)) = _
  rw [squares]
  exact congrArg Except.ok (safeDiv_eq _ _)

theorem signalVarianceScore_eq (partitions : IsPartition signal.length blocks) :
    signalVarianceScore signal blocks = .ok (totalVariance signal blocks) := by
  unfold signalVarianceScore
  rw [canonicalizePartition_eq partitions, mapM_of_ok fun block listed => blockVariance_eq fun node member => partitions.lt_count listed member]
  rfl

def divisionKey (signal : List ℚ) (blocks : List (List Nat)) : ℚ ×ₗ List (List Bool) :=
  toLex (totalVariance signal blocks, blocksKey signal.length blocks)

theorem isSide_of_partition {nodeCount : Nat} (partitions : IsPartition nodeCount blocks) : ∀ block ∈ blocks, IsSide nodeCount block :=
  isSide_of_covers partitions.ascending partitions.covers

variable {candidates : List (List (List Nat))} (sized : signal.length = weighted.nodeCount)

include sized

theorem signalBetter_compares (each : ∀ candidate ∈ candidates, IsPartition weighted.nodeCount candidate) :
    Compares (signalBetter weighted signal) (divisionKey signal) candidates := by
  intro left isLeft right isRight
  have asLeft := each left isLeft
  have asRight := each right isRight
  have order := blocksLexLt_iff (isSide_of_partition asLeft) (isSide_of_partition asRight)
  unfold signalBetter partitionLexLt
  rw [← sized] at asLeft asRight order ⊢
  rw [signalVarianceScore_eq asLeft, signalVarianceScore_eq asRight]
  refine congrArg Except.ok (Bool.eq_iff_iff.2 ?_)
  rw [canonicalizePartition_eq asLeft, canonicalizePartition_eq asRight, Bool.or_eq_true, decide_eq_true_iff, Bool.and_eq_true, beq_iff_eq, order,
    decide_eq_true_iff, Prod.Lex.lt_iff]
  rfl

omit sized in
theorem bestDivision_eq {best : List (List Nat)} (partitions : IsPartition weighted.nodeCount best)
    (run : bestOf (signalBetter weighted signal) candidates = .ok (some best)) :
    bestDivision weighted signal candidates = .ok (some ⟨best.map (nodesOf weighted)⟩) := by
  unfold bestDivision bestPartition
  rw [run]
  change (partitionFromIndices weighted (canonicalizePartition weighted.nodeCount best) >>= fun named => .ok (some named)) = _
  rw [canonicalizePartition_eq partitions, partitionFromIndices_eq partitions]
  rfl

def divisions (nodeCount blockCount : Nat) : List (List (List Nat)) :=
  (allSetPartitions nodeCount).filter fun partition => partition.length = blockCount

omit sized in
theorem mem_divisions {nodeCount blockCount : Nat} : blocks ∈ divisions nodeCount blockCount ↔
    IsPartition nodeCount blocks ∧ blocks.length = blockCount := by
  unfold divisions
  rw [List.mem_filter, allSetPartitions_eq, mem_enumerate, decide_eq_true_eq]

omit sized in
theorem exists_division {nodeCount blockCount : Nat} (positive : 0 < blockCount) (few : blockCount ≤ nodeCount) :
    divisions nodeCount blockCount ≠ [] := by
  have isSide : IsSide nodeCount (List.range (nodeCount - blockCount + 1)) :=
    ⟨List.pairwise_lt_range, fun node member => by
      have := List.mem_range.1 member
      omega⟩
  have merges := mergeSidePartitionIndices_merges isSide (by simp)
  have count := isSide.card_complement
  rw [List.toFinset_range, Finset.card_sdiff_of_subset (Finset.range_subset_range.2 (by omega)), Finset.card_range, Finset.card_range] at count
  have long : (mergeSidePartitionIndices nodeCount (List.range (nodeCount - blockCount + 1))).length = blockCount := by
    unfold mergeSidePartitionIndices canonicalizePartition
    rw [List.length_insertionSort, List.length_map, List.length_cons, List.length_map]
    change (complement nodeCount _).length + 1 = blockCount
    omega
  exact List.ne_nil_of_mem (mem_divisions.2 ⟨merges.partitions, long⟩)

theorem exists_bestDivision {blockCount : Nat} (positive : 0 < blockCount) (few : blockCount ≤ weighted.nodeCount) :
    ∃ blocks, IsPartition weighted.nodeCount blocks ∧ blocks.length = blockCount ∧
      (∀ others, IsPartition weighted.nodeCount others → others.length = blockCount →
        totalVariance signal blocks ≤ totalVariance signal others ∧
        (totalVariance signal others = totalVariance signal blocks → others = blocks ∨ BlocksPrecede blocks others)) ∧
      ∀ candidates, (∀ candidate, candidate ∈ candidates ↔ candidate ∈ divisions weighted.nodeCount blockCount) →
        bestDivision weighted signal candidates = .ok (some ⟨blocks.map (nodesOf weighted)⟩) := by
  have compares := signalBetter_compares sized fun candidate (listed : candidate ∈ divisions weighted.nodeCount blockCount) =>
      (mem_divisions.1 listed).1
  obtain ⟨best, isBest, run, least⟩ := exists_bestOf compares (exists_division positive few)
  obtain ⟨partitions, long⟩ := mem_divisions.1 isBest
  refine ⟨best, partitions, long, fun others isOthers alsoLong => ?_, fun candidates same => ?_⟩
  · have atMost := Prod.Lex.le_iff.1 (least others (mem_divisions.2 ⟨isOthers, alsoLong⟩))
    change totalVariance signal best < totalVariance signal others ∨ totalVariance signal best = totalVariance signal others ∧
      blocksKey signal.length best ≤ blocksKey signal.length others at atMost
    rw [sized] at atMost
    rcases atMost with less | ⟨equal, ordered⟩
    · exact ⟨less.le, fun equal => absurd equal less.ne'⟩
    · refine ⟨equal.le, fun _ => ?_⟩
      have asBest := isSide_of_partition partitions
      have asOthers := isSide_of_partition isOthers
      rcases ordered.lt_or_eq with before | equals
      · exact .inr (blocksPrecede_of_lt asBest asOthers (long.trans alsoLong.symm) before)
      · exact .inl (blocksKey_inj asBest asOthers equals).symm
  · have comparesCandidates : Compares (signalBetter weighted signal) (divisionKey signal) candidates := fun left isLeft right isRight =>
      compares left ((same left).1 isLeft) right ((same right).1 isRight)
    obtain ⟨other, isOther, otherRun, -⟩ := exists_bestOf comparesCandidates (List.ne_nil_of_mem ((same best).2 isBest))
    obtain ⟨otherPartitions, -⟩ := mem_divisions.1 ((same other).1 isOther)
    have equal : blocksKey signal.length best = blocksKey signal.length other :=
        congrArg (fun key => (ofLex key).2) (key_bestOf compares same run otherRun)
    rw [sized] at equal
    rw [bestDivision_eq otherPartitions otherRun, blocksKey_inj (isSide_of_partition otherPartitions) (isSide_of_partition partitions) equal.symm]

end

section

open WeightedGovernanceGraph

theorem existsUnique_setPartition {nodeCount : Nat} (equivalence : Setoid (Fin nodeCount)) :
    ∃! blocks, blocks ∈ allSetPartitions nodeCount ∧ ∀ left right : Fin nodeCount, Together blocks left right ↔ equivalence left right := by
  classical
  have below : EquivalenceBelow nodeCount fun left right => ∃ (isLeft : left < nodeCount)
      (isRight : right < nodeCount), equivalence ⟨left, isLeft⟩ ⟨right, isRight⟩ :=
    ⟨fun number inside => ⟨inside, inside, equivalence.refl _⟩, fun _ _ ⟨isLeft, isRight, both⟩ => ⟨isRight, isLeft, equivalence.symm both⟩,
      fun _ _ _ ⟨isLeft, _, first⟩ ⟨_, isRight, second⟩ => ⟨isLeft, isRight, equivalence.trans first second⟩⟩
  have together : ∀ left right : Fin nodeCount, Together (classes nodeCount fun left right =>
      ∃ (isLeft : left < nodeCount) (isRight : right < nodeCount), equivalence ⟨left, isLeft⟩ ⟨right, isRight⟩) left right ↔
        equivalence left right := by
    intro left right
    rw [below.together_iff left.isLt right.isLt]
    exact ⟨fun ⟨_, _, both⟩ => both, fun both => ⟨left.isLt, right.isLt, both⟩⟩
  refine ⟨_, ⟨?_, together⟩, fun blocks ⟨listed, same⟩ => ?_⟩
  · rw [allSetPartitions_eq, mem_enumerate]
    exact below.isPartition
  · rw [allSetPartitions_eq, mem_enumerate] at listed
    exact listed.unique_below below.isPartition fun left isLeft right isRight => (same ⟨left, isLeft⟩ ⟨right, isRight⟩).trans
      (together ⟨left, isLeft⟩ ⟨right, isRight⟩).symm

variable (approximation : FloatApproximation) (graph : GovernanceGraph)

/-- The searches find the optimal partitions, whatever the order of the candidates, and all partitions are candidates. -/
theorem partition_searches_exact (two : 2 ≤ graph.nodes.size) :
    let weighted := fromGraph approximation graph
    (∃ side blocks, LeastCut weighted.nodeCount weighted.conductance side ∧ MergesSide weighted.nodeCount side blocks ∧
      cheegerMinConductancePartition approximation graph = .ok (some ⟨blocks.map (nodesOf weighted)⟩) ∧
      ∀ candidates, candidates.Perm (nontrivialSubsets weighted.nodeCount) →
        bestCut weighted (cheegerBetter weighted) candidates = .ok (some ⟨blocks.map (nodesOf weighted)⟩)) ∧
    (∃ side blocks, LeastCut weighted.nodeCount (fun side => -weighted.modularity side) side ∧ MergesSide weighted.nodeCount side blocks ∧
      modularityMaximizingPartition approximation graph = .ok (some ⟨blocks.map (nodesOf weighted)⟩) ∧
      ∀ candidates, candidates.Perm (nontrivialSubsets weighted.nodeCount) →
        bestCut weighted (modularityBetter weighted) candidates = .ok (some ⟨blocks.map (nodesOf weighted)⟩)) ∧
    (∀ signal : List ℚ, signal.length = weighted.nodeCount → ∃ blocks, IsPartition weighted.nodeCount blocks ∧
      blocks.length = (weighted.nodeCount + 1) / 2 ∧
      (∀ others, IsPartition weighted.nodeCount others → others.length = (weighted.nodeCount + 1) / 2 →
        totalVariance signal blocks ≤ totalVariance signal others ∧
        (totalVariance signal others = totalVariance signal blocks → others = blocks ∨ BlocksPrecede blocks others)) ∧
      signalPreservingPartition approximation graph signal = .ok (some ⟨blocks.map (nodesOf weighted)⟩) ∧
      ∀ candidates, candidates.Perm (divisions weighted.nodeCount ((weighted.nodeCount + 1) / 2)) →
        bestDivision weighted signal candidates = .ok (some ⟨blocks.map (nodesOf weighted)⟩)) ∧
    ∀ nodeCount, (allSetPartitions nodeCount).Nodup ∧ (∀ blocks, blocks ∈ allSetPartitions nodeCount ↔ IsPartition nodeCount blocks) ∧
      ∀ equivalence : Setoid (Fin nodeCount), ∃! blocks, blocks ∈ allSetPartitions nodeCount ∧
        ∀ left right : Fin nodeCount, Together blocks left right ↔ equivalence left right := by
  intro weighted
  have many : 2 ≤ weighted.nodeCount := two.trans_eq nodeCount_fromGraph.symm
  have some : weighted.nodeCount ≠ 0 := by omega
  have symmetric : ∀ row col, weighted.weights.entry row col = weighted.weights.entry col row := fun _ _ => fromGraph_symm _ _
  obtain ⟨cheegerSide, cheegerBlocks, cheegerLeast, cheegerMerges, cheegerFound⟩ :=
      exists_bestCut many (conductance_balanced symmetric) cheegerBetter_compares
  obtain ⟨modularSide, modularBlocks, modularLeast, modularMerges, modularFound⟩ := exists_bestCut many (fun side within => congrArg Neg.neg
    (modularity_balanced side within)) modularityBetter_compares
  refine ⟨⟨cheegerSide, cheegerBlocks, cheegerLeast, cheegerMerges, (if_neg some).trans (cheegerFound _ fun _ => Iff.rfl),
      fun candidates perm => cheegerFound candidates fun _ => perm.mem_iff⟩,
    ⟨modularSide, modularBlocks, modularLeast, modularMerges, (if_neg some).trans (modularFound _ fun _ => Iff.rfl),
      fun candidates perm => modularFound candidates fun _ => perm.mem_iff⟩, fun signal sized => ?_, fun nodeCount =>
        ⟨?_, fun blocks => ?_, existsUnique_setPartition⟩⟩
  · obtain ⟨blocks, partitions, long, least, found⟩ := exists_bestDivision sized (by omega : 0 < (weighted.nodeCount + 1) / 2) (by omega)
    exact ⟨blocks, partitions, long, least, (if_neg some).trans (found _ fun _ => Iff.rfl), fun candidates perm => found candidates fun _ =>
      perm.mem_iff⟩
  · rw [allSetPartitions_eq]
    exact nodup_enumerate nodeCount
  · rw [allSetPartitions_eq]
    exact mem_enumerate

theorem partition_searches_exact_triangle : ∃ side blocks,
    LeastCut 3 (fromGraph exactOnly uniformTriangle).conductance side ∧ MergesSide 3 side blocks ∧
    cheegerMinConductancePartition exactOnly uniformTriangle = .ok (some ⟨blocks.map (nodesOf (fromGraph exactOnly uniformTriangle))⟩) := by
  obtain ⟨⟨side, blocks, least, merges, found, -⟩, -⟩ := partition_searches_exact exactOnly uniformTriangle (by decide +kernel)
  have three : (fromGraph exactOnly uniformTriangle).nodeCount = 3 := by decide +kernel
  rw [three] at least merges
  exact ⟨side, blocks, least, merges, found⟩

end

end ExactSpectral

end Legitimacy
