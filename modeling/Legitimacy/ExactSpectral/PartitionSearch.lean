import Legitimacy.CandidateSearch
import Legitimacy.ExactSpectral.Composition
import Mathlib.Algebra.Order.Group.Finset

namespace Legitimacy

namespace ExactSpectral

open CandidateSearch ExceptRun SetPartitions

section

def searchSide (node : Nat) : Nat → List Nat → Bool
  | 0, _ => false
  | rounds + 1, side =>
    match side[side.length / 2]? with
    | none => false
    | some middle =>
      if middle = node then true
      else if middle < node then searchSide node rounds (side.drop (side.length / 2 + 1))
      else searchSide node rounds (side.take (side.length / 2))

def contains (side : List Nat) (node : Nat) : Bool := searchSide node side.length side

def complement (nodeCount : Nat) (side : List Nat) : List Nat := (List.range nodeCount).filter fun node => !contains side node

def subsetLexLt (nodeCount : Nat) (left right : List Nat) : Bool :=
  match (List.range nodeCount).find? fun node => contains left node != contains right node with
  | some node => contains left node
  | none => false

def allSubsets (nodeCount : Nat) : List (List Nat) :=
  (List.range nodeCount).foldl (fun subsets node => subsets ++ subsets.map fun subset => subset ++ [node]) [[]]

def nontrivialSubsets (nodeCount : Nat) : List (List Nat) :=
  (allSubsets nodeCount).filter fun subset => subset ≠ [] ∧ subset.length < nodeCount

def canonicalMergedSide (nodeCount : Nat) (side : List Nat) : List Nat :=
  let other := complement nodeCount side
  match compare side.length other.length with
  | .lt => side
  | .gt => other
  | .eq => if subsetLexLt nodeCount side other then side else other

def canonicalizePartition (nodeCount : Nat) (partition : List (List Nat)) : List (List Nat) :=
  (partition.map fun block => block.insertionSort (· ≤ ·)).insertionSort fun left right => left = right ∨ subsetLexLt nodeCount left right

def mergeSidePartitionIndices (nodeCount : Nat) (side : List Nat) : List (List Nat) :=
  canonicalizePartition nodeCount (side :: ((List.range nodeCount).filter fun node => !contains side node).map fun node => [node])

def blocksLexLt (nodeCount : Nat) (left right : List (List Nat)) : Bool :=
  match (left.zip right).find? fun blocks => blocks.1 ≠ blocks.2 with
  | some blocks => subsetLexLt nodeCount blocks.1 blocks.2
  | none => left.length < right.length

def partitionLexLt (nodeCount : Nat) (left right : List (List Nat)) : Bool :=
  blocksLexLt nodeCount (canonicalizePartition nodeCount left) (canonicalizePartition nodeCount right)

def insertIntoBlocks (node : Nat) (partition : List (List Nat)) : List (List (List Nat)) :=
  if partition = [] then [[[node]]]
  else ((List.range partition.length).map fun index => partition.modify index fun block => (block ++ [node]).insertionSort (· ≤ ·)) ++
    [partition ++ [[node]]]

def allSetPartitions (nodeCount : Nat) : List (List (List Nat)) :=
  (List.range nodeCount).foldl (fun partitions node => partitions.flatMap (insertIntoBlocks node)) [[]]

def bestSubset (candidates : List (List Nat)) (better : List Nat → List Nat → Except Panic Bool) : Except Panic (Option (List Nat)) :=
  bestOf better candidates

def bestPartition (candidates : List (List (List Nat))) (better : List (List Nat) → List (List Nat) → Except Panic Bool) :
    Except Panic (Option (List (List Nat))) :=
  bestOf better candidates

def partitionFromIndices (weighted : WeightedGovernanceGraph) (blocks : List (List Nat)) : Except Panic Partition := do
  let blocks ← blocks.mapM fun block => block.mapM (indexed weighted.nodeIds)
  .ok ⟨blocks⟩

variable (weighted : WeightedGovernanceGraph)

def totalEdgeMass : ℚ := weighted.weights.flatten.sum

def sideVolume (side : List Nat) : ℚ := (side.map weighted.degree).sum

def blockWeight (left right : List Nat) : Except Panic ℚ := coarseWeight weighted left right

def conductanceScore (side : List Nat) : Except Panic ℚ := do
  let other := complement weighted.nodeCount side
  let denominator := min (sideVolume weighted side) (sideVolume weighted other)
  let cut ← blockWeight weighted side other
  .ok (safeDiv cut denominator)

def modularityScore (side : List Nat) : ℚ :=
  let other := complement weighted.nodeCount side
  let mass := totalEdgeMass weighted
  let inner := ((List.range weighted.nodeCount).flatMap fun left => (List.range weighted.nodeCount).map fun right => (left, right)).map fun pair =>
    let sameBlock := (contains side pair.1 && contains side pair.2) || (contains other pair.1 && contains other pair.2)
    if sameBlock then weighted.weights.entry pair.1 pair.2 - safeDiv (weighted.degree pair.1 * weighted.degree pair.2) (2 * mass) else 0
  safeDiv inner.sum (2 * mass)

def cheegerBetter (candidate best : List Nat) : Except Panic Bool := do
  let candidateScore ← conductanceScore weighted candidate
  let bestScore ← conductanceScore weighted best
  let candidateSide := canonicalMergedSide weighted.nodeCount candidate
  let bestSide := canonicalMergedSide weighted.nodeCount best
  .ok (candidateScore < bestScore || candidateScore == bestScore && subsetLexLt weighted.nodeCount candidateSide bestSide)

def modularityBetter (candidate best : List Nat) : Except Panic Bool :=
  let candidateScore := modularityScore weighted candidate
  let bestScore := modularityScore weighted best
  let candidateSide := canonicalMergedSide weighted.nodeCount candidate
  let bestSide := canonicalMergedSide weighted.nodeCount best
  .ok (bestScore < candidateScore || candidateScore == bestScore && subsetLexLt weighted.nodeCount candidateSide bestSide)

def bestCut (better : List Nat → List Nat → Except Panic Bool) (candidates : List (List Nat)) : Except Panic (Option Partition) := do
  match ← bestSubset candidates better with
  | none => .ok none
  | some side => do
    let merged ← partitionFromIndices weighted
      (mergeSidePartitionIndices weighted.nodeCount (canonicalMergedSide weighted.nodeCount side))
    .ok (some merged)

variable (signal : List ℚ)

def blockMean (block : List Nat) : Except Panic ℚ := do
  let values ← block.mapM (indexed signal)
  .ok (safeDiv values.sum block.length)

def blockVariance (block : List Nat) : Except Panic ℚ := do
  let mean ← blockMean signal block
  let squares ← block.mapM fun index => do
    let value ← indexed signal index
    .ok ((value - mean) * (value - mean))
  .ok (safeDiv squares.sum block.length)

def signalVarianceScore (partition : List (List Nat)) : Except Panic ℚ := do
  let variances ← (canonicalizePartition signal.length partition).mapM (blockVariance signal)
  .ok variances.sum

def signalBetter (candidate best : List (List Nat)) : Except Panic Bool := do
  let candidateScore ← signalVarianceScore signal candidate
  let bestScore ← signalVarianceScore signal best
  .ok (candidateScore < bestScore || candidateScore == bestScore && partitionLexLt weighted.nodeCount candidate best)

def bestDivision (candidates : List (List (List Nat))) : Except Panic (Option Partition) := do
  match ← bestPartition candidates (signalBetter weighted signal) with
  | none => .ok none
  | some partition => do
    let named ← partitionFromIndices weighted (canonicalizePartition weighted.nodeCount partition)
    .ok (some named)

variable (approximation : FloatApproximation) (graph : GovernanceGraph)

def cheegerMinConductancePartition : Except Panic (Option Partition) :=
  let weighted := WeightedGovernanceGraph.fromGraph approximation graph
  if weighted.nodeCount = 0 then .ok none else bestCut weighted (cheegerBetter weighted) (nontrivialSubsets weighted.nodeCount)

def modularityMaximizingPartition : Except Panic (Option Partition) :=
  let weighted := WeightedGovernanceGraph.fromGraph approximation graph
  if weighted.nodeCount = 0 then .ok none else bestCut weighted (modularityBetter weighted) (nontrivialSubsets weighted.nodeCount)

def signalPreservingPartition (signal : List ℚ) : Except Panic (Option Partition) :=
  let weighted := WeightedGovernanceGraph.fromGraph approximation graph
  if weighted.nodeCount = 0 then .ok none
  else
    let blockCount := (weighted.nodeCount + 1) / 2
    bestDivision weighted signal ((allSetPartitions weighted.nodeCount).filter fun partition => partition.length = blockCount)

end

section

variable {nodeCount node : Nat} {side left right : List Nat}

theorem searchSide_iff (ascending : side.Pairwise (· < ·)) {rounds : Nat} (enough : side.length ≤ rounds) :
    searchSide node rounds side = true ↔ node ∈ side := by
  induction rounds generalizing side with
  | zero =>
    obtain rfl := List.eq_nil_of_length_eq_zero (Nat.le_zero.1 enough)
    simp [searchSide]
  | succ rounds ih =>
    unfold searchSide
    cases found : side[side.length / 2]? with
    | none =>
      have empty : side.length = 0 := by
        have := List.getElem?_eq_none_iff.1 found
        omega
      rw [List.eq_nil_of_length_eq_zero empty]
      simp
    | some middle =>
      obtain ⟨within, atMiddle⟩ := List.getElem?_eq_some_iff.1 found
      have split : side = side.take (side.length / 2) ++ middle :: side.drop (side.length / 2 + 1) := by
        rw [← atMiddle, ← List.drop_eq_getElem_cons within, List.take_append_drop]
      have parts := ascending
      rw [split] at parts
      obtain ⟨lower, upper, across⟩ := List.pairwise_append.1 parts
      obtain ⟨above, upper⟩ := List.pairwise_cons.1 upper
      have members : node ∈ side ↔ node ∈ side.take (side.length / 2) ∨ node = middle ∨ node ∈ side.drop (side.length / 2 + 1) := by
        conv_lhs => rw [split]
        rw [List.mem_append, List.mem_cons]
      have before : node ∈ side.take (side.length / 2) → node < middle := fun member => across node member middle List.mem_cons_self
      have after : node ∈ side.drop (side.length / 2 + 1) → middle < node := above node
      rw [members]
      dsimp only
      split_ifs with same below
      · simp [same]
      · rw [ih upper (by rw [List.length_drop]; omega)]
        constructor
        · exact fun member => .inr (.inr member)
        · rintro (early | equal | late)
          · exact absurd (before early) (Nat.lt_asymm below)
          · exact absurd equal.symm same
          · exact late
      · rw [ih lower (by rw [List.length_take]; omega)]
        constructor
        · exact .inl
        · rintro (early | equal | late)
          · exact early
          · exact absurd equal.symm same
          · exact absurd (after late) below

theorem contains_iff (ascending : side.Pairwise (· < ·)) : contains side node = true ↔ node ∈ side := searchSide_iff ascending le_rfl

/-- The form in which sides are enumerated and kept. -/
structure IsSide (nodeCount : Nat) (side : List Nat) : Prop where
  ascending : side.Pairwise (· < ·)
  below : ∀ node ∈ side, node < nodeCount

namespace IsSide

theorem subset (isSide : IsSide nodeCount side) : side.toFinset ⊆ Finset.range nodeCount := fun node member =>
  Finset.mem_range.2 (isSide.below node (List.mem_toFinset.1 member))

theorem nodup (isSide : IsSide nodeCount side) : side.Nodup := isSide.ascending.imp fun before => Nat.ne_of_lt before

theorem card (isSide : IsSide nodeCount side) : side.toFinset.card = side.length := List.toFinset_card_of_nodup isSide.nodup

theorem eq_of_toFinset (isLeft : IsSide nodeCount left) (isRight : IsSide nodeCount right) (same : left.toFinset = right.toFinset) : left = right :=
  isLeft.ascending.eq_of_mem_iff isRight.ascending fun node => by rw [← List.mem_toFinset, same, List.mem_toFinset]

theorem mem_complement (isSide : IsSide nodeCount side) : node ∈ complement nodeCount side ↔ node < nodeCount ∧ node ∉ side := by
  unfold complement
  rw [List.mem_filter, List.mem_range, Bool.not_eq_true', ← Bool.not_eq_true, contains_iff isSide.ascending]

theorem complement (isSide : IsSide nodeCount side) : IsSide nodeCount (complement nodeCount side) :=
  ⟨List.Pairwise.filter _ List.pairwise_lt_range, fun _ member => (isSide.mem_complement.1 member).1⟩

theorem toFinset_complement (isSide : IsSide nodeCount side) :
    (ExactSpectral.complement nodeCount side).toFinset = Finset.range nodeCount \ side.toFinset := by
  ext node
  rw [List.mem_toFinset, isSide.mem_complement, Finset.mem_sdiff, Finset.mem_range, List.mem_toFinset]

end IsSide

/-- The side that has the members of a set. -/
def sideOf (nodeCount : Nat) (members : Finset ℕ) : List Nat := (List.range nodeCount).filter fun node => node ∈ members

theorem isSide_sideOf (members : Finset ℕ) : IsSide nodeCount (sideOf nodeCount members) :=
  ⟨List.Pairwise.filter _ List.pairwise_lt_range, fun _ member => List.mem_range.1 (List.mem_of_mem_filter member)⟩

theorem toFinset_sideOf {members : Finset ℕ} (within : members ⊆ Finset.range nodeCount) : (sideOf nodeCount members).toFinset = members := by
  ext node
  rw [List.mem_toFinset, sideOf, List.mem_filter, List.mem_range, decide_eq_true_eq]
  exact ⟨And.right, fun member => ⟨Finset.mem_range.1 (within member), member⟩⟩

theorem subsetLexLt_iff (isLeft : IsSide nodeCount left) (isRight : IsSide nodeCount right) : subsetLexLt nodeCount left right = true ↔
    absences (List.range nodeCount) left.toFinset < absences (List.range nodeCount) right.toFinset := by
  unfold subsetLexLt
  generalize List.range nodeCount = nodes
  induction nodes with
  | nil => simp [absences]
  | cons node rest ih =>
    have head : absences (node :: rest) left.toFinset < absences (node :: rest) right.toFinset ↔
        decide (node ∉ left.toFinset) < decide (node ∉ right.toFinset) ∨
        decide (node ∉ left.toFinset) = decide (node ∉ right.toFinset) ∧ absences rest left.toFinset < absences rest right.toFinset :=
          List.cons_lt_cons_iff
    rw [List.find?_cons, head, ← ih]
    have inLeft : contains left node = decide (node ∈ left) := Bool.eq_iff_iff.2 ((contains_iff isLeft.ascending).trans decide_eq_true_iff.symm)
    have inRight : contains right node = decide (node ∈ right) := Bool.eq_iff_iff.2 ((contains_iff isRight.ascending).trans decide_eq_true_iff.symm)
    by_cases atLeft : node ∈ left
    · by_cases atRight : node ∈ right
      · simp [inLeft, inRight, atLeft, atRight]
      · simp [inLeft, inRight, atLeft, atRight]
    · by_cases atRight : node ∈ right
      · simp [inLeft, inRight, atLeft, atRight]
      · simp [inLeft, inRight, atLeft, atRight]

theorem allSubsets_succ (nodeCount : Nat) :
    allSubsets (nodeCount + 1) = allSubsets nodeCount ++ (allSubsets nodeCount).map fun subset => subset ++ [nodeCount] := by
  unfold allSubsets
  rw [List.range_succ, List.foldl_append]
  rfl

theorem mem_allSubsets : side ∈ allSubsets nodeCount ↔ IsSide nodeCount side := by
  induction nodeCount generalizing side with
  | zero =>
    constructor
    · intro member
      rw [List.mem_singleton.1 member]
      exact ⟨List.Pairwise.nil, by simp⟩
    · intro isSide
      have none : side = [] := List.eq_nil_iff_forall_not_mem.2 fun node member => Nat.not_lt_zero node (isSide.below node member)
      exact List.mem_singleton.2 none
  | succ nodeCount ih =>
    rw [allSubsets_succ, List.mem_append, List.mem_map, ih]
    constructor
    · rintro (isSide | ⟨rest, listed, rfl⟩)
      · exact ⟨isSide.ascending, fun node member => Nat.lt_succ_of_lt (isSide.below node member)⟩
      · have isRest := ih.1 listed
        refine ⟨List.pairwise_append.2 ⟨isRest.ascending, List.pairwise_singleton _ _, fun node member last isLast => ?_⟩, fun node member => ?_⟩
        · rw [List.mem_singleton.1 isLast]
          exact isRest.below node member
        · rcases List.mem_append.1 member with early | last
          · exact Nat.lt_succ_of_lt (isRest.below node early)
          · rw [List.mem_singleton.1 last]
            exact Nat.lt_succ_self nodeCount
    · intro isSide
      by_cases member : nodeCount ∈ side
      · -- the last number of an ascending side
        obtain ⟨rest, after, rfl⟩ := List.append_of_mem member
        obtain ⟨first, last, across⟩ := List.pairwise_append.1 isSide.ascending
        have none : after = [] := List.eq_nil_iff_forall_not_mem.2 fun node later => by
          have above := (List.pairwise_cons.1 last).1 node later
          have below := isSide.below node (List.mem_append_right rest (List.mem_cons_of_mem nodeCount later))
          omega
        subst none
        exact .inr ⟨rest, ih.2 ⟨first, fun node early => across node early nodeCount List.mem_cons_self⟩, rfl⟩
      · refine .inl ⟨isSide.ascending, fun node listed => ?_⟩
        have below := isSide.below node listed
        have apart : node ≠ nodeCount := fun same => member (same ▸ listed)
        omega

theorem mem_nontrivialSubsets : side ∈ nontrivialSubsets nodeCount ↔ IsSide nodeCount side ∧ side ≠ [] ∧ side.length < nodeCount := by
  unfold nontrivialSubsets
  rw [List.mem_filter, mem_allSubsets, decide_eq_true_eq]

end

section

def IsCut (nodeCount : Nat) (side : Finset ℕ) : Prop := side.Nonempty ∧ side ⊂ Finset.range nodeCount

/-- The smaller side of its cut; of two equal ones, the one with the first node. -/
def IsCanonical (nodeCount : Nat) (side : Finset ℕ) : Prop :=
  side.card < (Finset.range nodeCount \ side).card ∨ side.card = (Finset.range nodeCount \ side).card ∧ Precedes side (Finset.range nodeCount \ side)

structure LeastCut (nodeCount : Nat) (cost : Finset ℕ → ℚ) (side : Finset ℕ) : Prop where
  cut : IsCut nodeCount side
  canonical : IsCanonical nodeCount side
  least : ∀ other, IsCut nodeCount other → cost side ≤ cost other
  first : ∀ other, IsCut nodeCount other → IsCanonical nodeCount other → cost other = cost side → other = side ∨ Precedes side other

/-- The partition that merges one side and nothing else. -/
structure MergesSide (nodeCount : Nat) (side : Finset ℕ) (blocks : List (List Nat)) : Prop where
  partitions : IsPartition nodeCount blocks
  together : ∀ left < nodeCount, ∀ right < nodeCount, (Together blocks left right ↔ left = right ∨ left ∈ side ∧ right ∈ side)

variable {nodeCount : Nat} {side other : List Nat}

theorem canonicalMergedSide_cases (nodeCount : Nat) (side : List Nat) :
    canonicalMergedSide nodeCount side = side ∨ canonicalMergedSide nodeCount side = complement nodeCount side := by
  unfold canonicalMergedSide
  dsimp only
  split
  · exact .inl rfl
  · exact .inr rfl
  · split_ifs
    · exact .inl rfl
    · exact .inr rfl

theorem IsSide.canonicalMergedSide (isSide : IsSide nodeCount side) : IsSide nodeCount (canonicalMergedSide nodeCount side) := by
  rcases canonicalMergedSide_cases nodeCount side with same | turned
  · rwa [same]
  · rw [turned]
    exact isSide.complement

theorem IsSide.card_complement (isSide : IsSide nodeCount side) :
    (Finset.range nodeCount \ side.toFinset).card = (ExactSpectral.complement nodeCount side).length := by
  rw [← isSide.toFinset_complement, isSide.complement.card]

theorem precedes_iff (isSide : IsSide nodeCount side) (isOther : IsSide nodeCount other) :
    subsetLexLt nodeCount side other = true ↔ Precedes side.toFinset other.toFinset := by
  rw [subsetLexLt_iff isSide isOther, absences_range_lt isSide.subset]

theorem precedes_or (members : Finset ℕ) (nonempty : 0 < nodeCount) :
    Precedes members (Finset.range nodeCount \ members) ∨ Precedes (Finset.range nodeCount \ members) members := by
  have inside : 0 ∈ Finset.range nodeCount := Finset.mem_range.2 nonempty
  by_cases member : 0 ∈ members
  · exact .inl ⟨0, fun other below => absurd below (Nat.not_lt_zero other), member, fun turned => (Finset.mem_sdiff.1 turned).2 member⟩
  · exact .inr ⟨0, fun other below => absurd below (Nat.not_lt_zero other), Finset.mem_sdiff.2 ⟨inside, member⟩, member⟩

theorem IsSide.isCanonical (isSide : IsSide nodeCount side) (nonempty : 0 < nodeCount) :
    IsCanonical nodeCount (ExactSpectral.canonicalMergedSide nodeCount side).toFinset := by
  have card := isSide.card
  have cardComplement := isSide.card_complement
  have turned := isSide.toFinset_complement
  unfold IsCanonical ExactSpectral.canonicalMergedSide
  dsimp only
  split
  · rename_i smaller
    have less := Nat.compare_eq_lt.1 smaller
    exact .inl (by omega)
  · rename_i larger
    have more := Nat.compare_eq_gt.1 larger
    rw [turned, Finset.sdiff_sdiff_eq_self isSide.subset]
    exact .inl (by omega)
  · rename_i equal
    have same := Nat.compare_eq_eq.1 equal
    split_ifs with before
    · refine .inr ⟨by omega, ?_⟩
      rw [precedes_iff isSide isSide.complement, turned] at before
      exact before
    · rw [turned, Finset.sdiff_sdiff_eq_self isSide.subset]
      refine .inr ⟨by omega, ?_⟩
      rw [precedes_iff isSide isSide.complement, turned] at before
      exact (precedes_or side.toFinset nonempty).resolve_left before

theorem IsSide.canonicalMergedSide_eq (isSide : IsSide nodeCount side) (canonical : IsCanonical nodeCount side.toFinset) :
    ExactSpectral.canonicalMergedSide nodeCount side = side := by
  have card := isSide.card
  have cardComplement := isSide.card_complement
  unfold ExactSpectral.canonicalMergedSide
  dsimp only
  rcases canonical with smaller | ⟨same, before⟩
  · rw [Nat.compare_eq_lt.2 (by omega)]
  · rw [Nat.compare_eq_eq.2 (by omega)]
    rw [← isSide.toFinset_complement, ← precedes_iff isSide isSide.complement] at before
    exact if_pos before

theorem IsSide.isCut_iff (isSide : IsSide nodeCount side) : IsCut nodeCount side.toFinset ↔ side ∈ nontrivialSubsets nodeCount := by
  rw [mem_nontrivialSubsets]
  unfold IsCut
  have card := isSide.card
  rw [List.toFinset_nonempty_iff]
  constructor
  · rintro ⟨nonempty, proper⟩
    have fewer := Finset.card_lt_card proper
    rw [Finset.card_range] at fewer
    exact ⟨isSide, nonempty, by omega⟩
  · rintro ⟨-, nonempty, fewer⟩
    refine ⟨nonempty, isSide.subset, fun whole => ?_⟩
    have enough := Finset.card_le_card whole
    rw [Finset.card_range] at enough
    omega

theorem IsSide.isCut_canonical (isSide : IsSide nodeCount side) (cut : IsCut nodeCount side.toFinset) :
    IsCut nodeCount (ExactSpectral.canonicalMergedSide nodeCount side).toFinset := by
  rcases canonicalMergedSide_cases nodeCount side with same | turned
  · rwa [same]
  · rw [turned, isSide.toFinset_complement]
    obtain ⟨nonempty, proper⟩ := cut
    refine ⟨Finset.sdiff_nonempty.2 proper.2, Finset.sdiff_subset, fun whole => ?_⟩
    obtain ⟨node, member⟩ := nonempty
    exact (Finset.mem_sdiff.1 (whole (proper.1 member))).2 member

end

section

variable {nodeCount : Nat} {blocks : List (List Nat)} {left right side : List Nat}

theorem insertionSort_ascending {values : List Nat} (ascending : values.Pairwise (· < ·)) : values.insertionSort (· ≤ ·) = values :=
  List.Pairwise.insertionSort_eq (ascending.imp fun before => before.le)

/-- Of disjoint sides the first is that with the smaller head. -/
theorem precedes_iff_headD (isLeft : IsSide nodeCount left) (isRight : IsSide nodeCount right) (someLeft : left ≠ []) (someRight : right ≠ [])
    (disjoint : left.Disjoint right) : Precedes left.toFinset right.toFinset ↔ left.headD 0 < right.headD 0 := by
  have neither : ∀ {node}, (node ∈ left.toFinset ↔ node ∈ right.toFinset) ↔ node ∉ left ∧ node ∉ right := by
    intro node
    rw [List.mem_toFinset, List.mem_toFinset]
    constructor
    · intro both
      by_cases member : node ∈ left
      · exact absurd (both.1 member) (disjoint member)
      · exact ⟨member, fun also => member (both.2 also)⟩
    · exact fun absent => iff_of_false absent.1 absent.2
  constructor
  · rintro ⟨node, before, inLeft, notRight⟩
    have least := headD_le isLeft.ascending (List.mem_toFinset.1 inLeft)
    by_contra notBelow
    have isHead := headD_mem someRight
    rcases (Nat.le_of_not_lt notBelow).trans least |>.lt_or_eq with below | same
    · exact (neither.1 (before _ below)).2 isHead
    · rw [same] at isHead
      exact notRight (List.mem_toFinset.2 isHead)
  · intro below
    have absent : ∀ other < right.headD 0, other ∉ right := fun other before member => absurd (headD_le isRight.ascending member)
        (Nat.not_le.2 before)
    refine ⟨left.headD 0, fun other before => neither.2 ⟨fun member => ?_, absent other (before.trans below)⟩,
      List.mem_toFinset.2 (headD_mem someLeft),
      fun member => absent _ below (List.mem_toFinset.1 member)⟩
    exact absurd (headD_le isLeft.ascending member) (Nat.not_le.2 before)

theorem canonicalizePartition_map (ascending : ∀ block ∈ blocks, block.Pairwise (· < ·)) :
    (blocks.map fun block => block.insertionSort (· ≤ ·)) = blocks :=
  (List.map_congr_left fun block listed => insertionSort_ascending (ascending block listed)).trans (List.map_id blocks)

theorem isSide_of_covers (ascending : ∀ block ∈ blocks, block.Pairwise (· < ·)) (covers : blocks.flatten.Perm (List.range nodeCount)) :
    ∀ block ∈ blocks, IsSide nodeCount block := fun block listed =>
  ⟨ascending block listed, fun _ member => List.mem_range.1 (covers.mem_iff.1 (List.mem_flatten.2 ⟨block, listed, member⟩))⟩

theorem canonicalizePartition_isPartition (nonempty : ∀ block ∈ blocks, block ≠ []) (ascending : ∀ block ∈ blocks, block.Pairwise (· < ·))
    (covers : blocks.flatten.Perm (List.range nodeCount)) :
    IsPartition nodeCount (canonicalizePartition nodeCount blocks) ∧ (canonicalizePartition nodeCount blocks).Perm blocks := by
  have isSide := isSide_of_covers ascending covers
  unfold canonicalizePartition
  rw [canonicalizePartition_map ascending]
  have perm := List.perm_insertionSort (fun left right => left = right ∨ subsetLexLt nodeCount left right = true) blocks
  have agree : ∀ left ∈ blocks, ∀ right ∈ blocks, (left = right ∨ subsetLexLt nodeCount left right = true) ↔
      absences (List.range nodeCount) left.toFinset ≤ absences (List.range nodeCount) right.toFinset := by
    intro left isLeft right isRight
    rw [subsetLexLt_iff (isSide left isLeft) (isSide right isRight), le_iff_eq_or_lt,
      absences_range_inj (isSide left isLeft).subset (isSide right isRight).subset]
    exact or_congr_left ⟨fun same => by rw [same], (isSide left isLeft).eq_of_toFinset (isSide right isRight)⟩
  have sorted : blocks.insertionSort (fun left right => left = right ∨ subsetLexLt nodeCount left right = true) =
      blocks.insertionSort fun left right => absences (List.range nodeCount) left.toFinset ≤ absences (List.range nodeCount) right.toFinset := by
    simpa using List.map_insertionSort _ _ id blocks agree
  have separate : (blocks.insertionSort fun left right => left = right ∨ subsetLexLt nodeCount left right = true).Pairwise List.Disjoint :=
    (List.nodup_flatten.1 ((perm.flatten.trans covers).nodup_iff.2 List.nodup_range)).2
  refine ⟨⟨fun block listed => nonempty block (perm.mem_iff.1 listed), fun block listed => ascending block (perm.mem_iff.1 listed), ?_,
    perm.flatten.trans covers⟩, perm⟩
  have ordered := List.pairwise_insertionSort
    (fun left right : List Nat => absences (List.range nodeCount) left.toFinset ≤ absences (List.range nodeCount) right.toFinset) blocks
  rw [← sorted] at ordered
  refine (ordered.and separate).imp_of_mem fun {left right} isLeft isRight both => ?_
  have listedLeft := perm.mem_iff.1 isLeft
  have listedRight := perm.mem_iff.1 isRight
  rw [← precedes_iff_headD (isSide left listedLeft) (isSide right listedRight) (nonempty left listedLeft) (nonempty right listedRight) both.2,
    ← absences_range_lt (isSide left listedLeft).subset]
  refine lt_of_le_of_ne both.1 fun same => ?_
  rw [absences_range_inj (isSide left listedLeft).subset (isSide right listedRight).subset] at same
  have isHead := headD_mem (nonempty left listedLeft)
  exact both.2 isHead (List.mem_toFinset.1 (same ▸ List.mem_toFinset.2 isHead))

theorem canonicalizePartition_eq (partitions : IsPartition nodeCount blocks) : canonicalizePartition nodeCount blocks = blocks := by
  obtain ⟨canonical, perm⟩ := canonicalizePartition_isPartition partitions.nonempty partitions.ascending partitions.covers
  refine canonical.unique partitions fun left right => ?_
  exact exists_congr fun block => and_congr_left fun _ => perm.mem_iff

theorem mergeSidePartitionIndices_merges (isSide : IsSide nodeCount side) (some : side ≠ []) :
    MergesSide nodeCount side.toFinset (mergeSidePartitionIndices nodeCount side) := by
  have listed : ∀ {block}, block ∈ side :: (complement nodeCount side).map (fun node => [node]) ↔
      block = side ∨ ∃ node, (node < nodeCount ∧ node ∉ side) ∧ [node] = block := by
    intro block
    simp only [List.mem_cons, List.mem_map, isSide.mem_complement]
  have nonempty : ∀ block ∈ side :: (complement nodeCount side).map (fun node => [node]), block ≠ [] := by
    intro block member
    rcases listed.1 member with rfl | ⟨node, -, rfl⟩
    · exact some
    · exact List.cons_ne_nil node []
  have ascending : ∀ block ∈ side :: (complement nodeCount side).map (fun node => [node]), block.Pairwise (· < ·) := by
    intro block member
    rcases listed.1 member with rfl | ⟨node, -, rfl⟩
    · exact isSide.ascending
    · exact List.pairwise_singleton _ node
  have covers : (side :: (complement nodeCount side).map (fun node => [node])).flatten.Perm (List.range nodeCount) := by
    rw [List.flatten_cons, ← List.flatMap_def, List.flatMap_singleton']
    have distinct : (side ++ complement nodeCount side).Nodup :=
        List.nodup_append'.2 ⟨isSide.nodup, isSide.complement.nodup, fun node member turned =>
      (isSide.mem_complement.1 turned).2 member⟩
    refine (List.perm_ext_iff_of_nodup distinct List.nodup_range).2 fun node => ?_
    rw [List.mem_append, isSide.mem_complement, List.mem_range]
    constructor
    · rintro (member | ⟨below, -⟩)
      · exact isSide.below node member
      · exact below
    · intro below
      by_cases member : node ∈ side
      · exact .inl member
      · exact .inr ⟨below, member⟩
  obtain ⟨partitions, perm⟩ := canonicalizePartition_isPartition nonempty ascending covers
  refine ⟨partitions, fun left isLeft right _ => ?_⟩
  rw [List.mem_toFinset, List.mem_toFinset]
  constructor
  · rintro ⟨block, member, atLeft, atRight⟩
    rcases listed.1 (perm.mem_iff.1 member) with rfl | ⟨node, -, rfl⟩
    · exact .inr ⟨atLeft, atRight⟩
    · exact .inl ((List.mem_singleton.1 atLeft).trans (List.mem_singleton.1 atRight).symm)
  · rintro (rfl | both)
    · obtain ⟨block, member, atLeft⟩ := partitions.mem_iff.2 isLeft
      exact ⟨block, member, atLeft, atLeft⟩
    · exact ⟨side, perm.mem_iff.2 (listed.2 (.inl rfl)), both⟩

end

end ExactSpectral

end Legitimacy
