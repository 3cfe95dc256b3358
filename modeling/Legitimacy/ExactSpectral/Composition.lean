import Legitimacy.ExactSpectral.CoarseGrain

namespace Legitimacy

namespace ExactSpectral

open ExceptRun FloatOrder SetPartitions

section

variable (approximation : FloatApproximation) {count : Nat}

theorem rationalToFloat_isCount (positive : 0 < count) (small : count < 2 ^ 53) : IsCount (rationalToFloat count).toModel.unpack count := by
  have quotient : rationalToFloat count = Float.ofNat count / Float.ofNat 1 := rfl
  rw [quotient, unpack_div, unpack_ofNat_one]
  exact (isCount_ofNat positive small).div_one.unpack_pack

theorem edgeWeight_edgeTransform (small : count < 2 ^ 53) : edgeWeight approximation (edgeTransform count) = count := by
  unfold edgeTransform
  split_ifs with one
  · exact one.symm
  · rcases Nat.eq_zero_or_pos count with rfl | positive
    · have zero : ((rationalToFloat (0 : Nat)).abs == 0) = true := by decide +kernel
      change rationalFromFloat approximation (rationalToFloat (0 : Nat)).abs = _
      unfold rationalFromFloat
      rw [zero, if_pos rfl]
      split_ifs <;> rfl
    · exact rationalFromFloat_isCount approximation (rationalToFloat_isCount positive small).abs_eq positive small

theorem validateTransform_edgeTransform (small : count < 2 ^ 53) : validateTransform (edgeTransform count) = .ok ⟨⟩ := by
  unfold edgeTransform
  split_ifs with one
  · rfl
  · have finite : (rationalToFloat count).isFinite = true := by
      rcases Nat.eq_zero_or_pos count with rfl | positive
      · decide +kernel
      · exact (rationalToFloat_isCount positive small).normal.isFinite
    exact if_pos finite

end

section

def blockSum (weights : Weights) (left right : List Nat) : ℚ := (left.map fun row => (right.map fun col => weights.entry row col).sum).sum

variable {weights : Weights} {left right : List Nat}

theorem sum_flatMap {α β : Type} (values : List α) (parts : α → List β) (number : β → ℚ) :
    ((values.flatMap parts).map number).sum = (values.map fun value => ((parts value).map number).sum).sum := by
  induction values with
  | nil => rfl
  | cons value rest ih => rw [List.flatMap_cons, List.map_append, List.sum_append, ih, List.map_cons, List.sum_cons]

theorem sum_comm {α β : Type} (rows : List α) (cols : List β) (number : α → β → ℚ) :
    (rows.map fun row => (cols.map (number row)).sum).sum = (cols.map fun col => (rows.map fun row => number row col).sum).sum := by
  induction rows with
  | nil => simp
  | cons row rest ih =>
    simp only [List.map_cons, List.sum_cons]
    rw [List.sum_map_add, ih]

theorem blockSum_perm {rows cols : List Nat} (permLeft : left.Perm rows) (permRight : right.Perm cols) :
    blockSum weights left right = blockSum weights rows cols := by
  unfold blockSum
  rw [(permLeft.map _).sum_eq]
  exact congrArg List.sum (List.map_congr_left fun row _ => (permRight.map _).sum_eq)

theorem blockSum_flatMap (parts : Nat → List Nat) : blockSum weights (left.flatMap parts) (right.flatMap parts) =
    (left.map fun row => (right.map fun col => blockSum weights (parts row) (parts col)).sum).sum := by
  unfold blockSum
  rw [sum_flatMap]
  refine congrArg List.sum (List.map_congr_left fun place _ => ?_)
  refine Eq.trans ?_ (sum_comm (parts place) right fun row col => ((parts col).map fun next => weights.entry row next).sum)
  exact congrArg List.sum (List.map_congr_left fun row _ => sum_flatMap right parts _)

theorem blockSum_comm (symmetric : ∀ row col, weights.entry row col = weights.entry col row) :
    blockSum weights left right = blockSum weights right left := by
  unfold blockSum
  rw [sum_comm]
  simp only [symmetric]

end

section

variable {approximation : FloatApproximation} {weighted : WeightedGovernanceGraph} {blocks : List (List Nat)}

/-- Every weight between disjoint sets of nodes survives its encoding as an edge. -/
def WeightedGovernanceGraph.Encodable (approximation : FloatApproximation) (weighted : WeightedGovernanceGraph) : Prop :=
  ∀ left right : List Nat, (left ++ right).Nodup → validateTransform (edgeTransform (blockSum weighted.weights left right)) = .ok ⟨⟩ ∧
    edgeWeight approximation (edgeTransform (blockSum weighted.weights left right)) = blockSum weighted.weights left right

/-- The edge that stands for what two blocks weigh together. -/
def coarseEdge (weighted : WeightedGovernanceGraph) (pair : List Nat × List Nat) : Option GovernanceEdge := do
  if blockSum weighted.weights pair.1 pair.2 = 0 then none
  else
    let source ← weighted.nodeIds[pair.1.headD 0]?
    let target ← weighted.nodeIds[pair.2.headD 0]?
    some ⟨source, target, edgeTransform (blockSum weighted.weights pair.1 pair.2)⟩

def coarseIds (weighted : WeightedGovernanceGraph) (blocks : List (List Nat)) : List NodeId :=
  blocks.filterMap fun block => weighted.nodeIds[block.headD 0]?

def coarseGraph (weighted : WeightedGovernanceGraph) (blocks : List (List Nat)) : GovernanceGraph where
  nodes := ((coarseIds weighted blocks).foldl withCoarseNode .new).nodes
  edges := (laterPairs blocks).filterMap (coarseEdge weighted)

theorem CoarseIds.eq {ids : List NodeId} (isIds : CoarseIds weighted blocks ids) : coarseIds weighted blocks = ids := by
  induction isIds with
  | nil => rfl
  | @cons block id rest others atBlock _ ih =>
    unfold coarseIds at ih ⊢
    rw [@List.filterMap_cons_some _ _ (fun block => weighted.nodeIds[block.headD 0]?) block rest id atBlock, ih]

theorem coarseIds_isIds (partitions : IsPartition weighted.nodeCount blocks) : CoarseIds weighted blocks (coarseIds weighted blocks) := by
  obtain ⟨ids, isIds⟩ := exists_coarseIds partitions
  exact isIds.eq ▸ isIds

theorem mapM_of_ok {ε α β : Type} {next : α → Except ε β} {result : α → β} {values : List α}
    (each : ∀ value ∈ values, next value = .ok (result value)) :
    values.mapM next = .ok (values.map result) :=
  mapM_eq_ok.2 (List.forall₂_map_right_iff.2 (List.forall₂_same.2 each))

theorem coarseWeight_eq {left right : List Nat} (isLeft : ∀ row ∈ left, row < weighted.nodeCount)
    (isRight : ∀ col ∈ right, col < weighted.nodeCount) :
    coarseWeight weighted left right = .ok (blockSum weighted.weights left right) := by
  have each : ∀ pair ∈ left.flatMap fun row => right.map fun col => (row, col),
      (do let values ← indexed weighted.weights pair.1
          indexed values pair.2) = .ok (weighted.weights.entry pair.1 pair.2) := by
    intro pair listed
    obtain ⟨row, isRow, inRow⟩ := List.mem_flatMap.1 listed
    obtain ⟨col, isCol, rfl⟩ := List.mem_map.1 inRow
    have inside : row < weighted.weights.length := weighted.square.1.symm ▸ isLeft row isRow
    obtain ⟨values, found⟩ : ∃ values, weighted.weights[row]? = some values := ⟨_, List.getElem?_eq_getElem inside⟩
    have long := weighted.square.2 values (List.mem_of_getElem? found)
    obtain ⟨weight, atCol⟩ : ∃ weight, values[col]? = some weight := ⟨_, List.getElem?_eq_getElem (long.symm ▸ isRight col isCol)⟩
    refine bind_eq_ok.2 ⟨values, indexed_eq_ok.2 found, indexed_eq_ok.2 ?_⟩
    rw [Weights.entry, found, Option.getD_some, atCol, Option.getD_some]
  unfold coarseWeight
  rw [mapM_of_ok each]
  change Except.ok (List.map _ _).sum = _
  rw [sum_flatMap]
  simp only [List.map_map]
  rfl

structure Separate (weighted : WeightedGovernanceGraph) (pair : List Nat × List Nat) : Prop where
  someLeft : pair.1 ≠ []
  someRight : pair.2 ≠ []
  apart : (pair.1 ++ pair.2).Nodup
  isLeft : ∀ row ∈ pair.1, row < weighted.nodeCount
  isRight : ∀ col ∈ pair.2, col < weighted.nodeCount

/-- Adding the edges of pairs of blocks adds those that weigh something. -/
theorem foldlM_addCoarseEdge (encodable : weighted.Encodable approximation) {pairs : List (List Nat × List Nat)}
    (each : ∀ pair ∈ pairs, Separate weighted pair) (builder : GraphBuilder) :
    pairs.foldlM (addCoarseEdge weighted) builder = .ok { builder with edges := builder.edges ++ pairs.filterMap (coarseEdge weighted) } := by
  induction pairs generalizing builder with
  | nil => simp [pure, Except.pure]
  | cons pair rest ih =>
    obtain ⟨someLeft, someRight, apart, isLeft, isRight⟩ := each pair List.mem_cons_self
    have tail := ih fun other listed => each other (List.mem_cons_of_mem pair listed)
    obtain ⟨source, atSource⟩ : ∃ source, weighted.nodeIds[pair.1.headD 0]? = some source :=
      ⟨_, List.getElem?_eq_getElem (isLeft _ (headD_mem someLeft))⟩
    obtain ⟨target, atTarget⟩ : ∃ target, weighted.nodeIds[pair.2.headD 0]? = some target :=
      ⟨_, List.getElem?_eq_getElem (isRight _ (headD_mem someRight))⟩
    rw [List.foldlM_cons, bind_eq_ok]
    by_cases none : blockSum weighted.weights pair.1 pair.2 = 0
    · have skipped : coarseEdge weighted pair = Option.none := if_pos none
      rw [List.filterMap_cons_none skipped]
      refine ⟨builder, ?_, tail builder⟩
      unfold addCoarseEdge
      rw [coarseWeight_eq isLeft isRight]
      exact if_pos none
    · have added : coarseEdge weighted pair = some ⟨source, target, edgeTransform (blockSum weighted.weights pair.1 pair.2)⟩ := by
        unfold coarseEdge
        rw [if_neg none, atSource, atTarget]
        rfl
      rw [List.filterMap_cons_some added]
      refine ⟨{ builder with edges := builder.edges ++ [⟨source, target, edgeTransform (blockSum weighted.weights pair.1 pair.2)⟩] }, ?_,
        (tail _).trans (by simp)⟩
      unfold addCoarseEdge
      rw [coarseWeight_eq isLeft isRight]
      refine (if_neg none).trans (bind_eq_ok.2 ⟨source, (coarseNodeId_eq_ok someLeft).2 atSource, bind_eq_ok.2
        ⟨target, (coarseNodeId_eq_ok someRight).2 atTarget, unwrap_eq_ok.2 (bind_eq_ok.2 ⟨_, bind_eq_ok.2 ⟨⟨⟩, ?_, rfl⟩, rfl⟩)⟩⟩)
      exact (encodable pair.1 pair.2 apart).1

end

section

variable {α β : Type} {values : List α}

theorem laterPairs_map (image : α → β) (values : List α) :
    laterPairs (values.map image) = (laterPairs values).map fun pair => (image pair.1, image pair.2) := by
  induction values with
  | nil => rfl
  | cons first rest ih => simp [laterPairs, ih]

theorem mem_laterPairs {relation : α → α → Prop} (related : values.Pairwise relation) {pair : α × α} (member : pair ∈ laterPairs values) :
    pair.1 ∈ values ∧ pair.2 ∈ values ∧ relation pair.1 pair.2 := by
  induction related with
  | nil => cases member
  | @cons first rest head _ ih =>
    rcases List.mem_append.1 member with here | later
    · obtain ⟨other, listed, rfl⟩ := List.mem_map.1 here
      exact ⟨List.mem_cons_self, List.mem_cons_of_mem first listed, head other listed⟩
    · obtain ⟨isLeft, isRight, holds⟩ := ih later
      exact ⟨List.mem_cons_of_mem first isLeft, List.mem_cons_of_mem first isRight, holds⟩

theorem mem_laterPairs_iff {numbers : List Nat} (ascending : numbers.Pairwise (· < ·)) {left right : Nat} :
    (left, right) ∈ laterPairs numbers ↔ left ∈ numbers ∧ right ∈ numbers ∧ left < right := by
  refine ⟨mem_laterPairs ascending, ?_⟩
  rintro ⟨isLeft, isRight, below⟩
  induction ascending with
  | nil => cases isLeft
  | @cons first rest head _ ih =>
    rcases List.mem_cons.1 isRight with rfl | rightLater
    · rcases List.mem_cons.1 isLeft with rfl | leftLater
      · exact absurd below (lt_irrefl _)
      · exact absurd below (Nat.lt_asymm (head left leftLater))
    · rcases List.mem_cons.1 isLeft with rfl | leftLater
      · exact List.mem_append_left _ (List.mem_map_of_mem rightLater)
      · exact List.mem_append_right _ (ih leftLater rightLater)

theorem nodup_laterPairs (distinct : values.Nodup) : (laterPairs values).Nodup := by
  induction values with
  | nil => exact List.nodup_nil
  | cons first rest ih =>
    obtain ⟨absent, apart⟩ := List.nodup_cons.1 distinct
    refine List.nodup_append'.2 ⟨apart.map fun _ _ same => (Prod.mk.inj same).2, ih apart, fun pair here later => absent ?_⟩
    obtain ⟨other, -, rfl⟩ := List.mem_map.1 here
    exact (mem_laterPairs (List.pairwise_of_forall (fun _ _ => trivial) : rest.Pairwise fun _ _ => True) later).1

end

section

variable {approximation : FloatApproximation} {regexes : RegexEngine} {weighted : WeightedGovernanceGraph} {blocks : List (List Nat)}

theorem separate_of_mem (partitions : IsPartition weighted.nodeCount blocks) {pair : List Nat × List Nat} (member : pair ∈ laterPairs blocks) :
    Separate weighted pair := by
  obtain ⟨isLeft, isRight, disjoint⟩ := mem_laterPairs partitions.disjoint member
  have distinct : ∀ block ∈ blocks, block.Nodup := fun block listed => (partitions.ascending block listed).imp fun below => Nat.ne_of_lt below
  exact ⟨partitions.nonempty _ isLeft, partitions.nonempty _ isRight, List.nodup_append'.2 ⟨distinct _ isLeft, distinct _ isRight, disjoint⟩,
    fun _ inside => partitions.lt_count isLeft inside, fun _ inside => partitions.lt_count isRight inside⟩

theorem mem_coarseGraph_nodes {id : NodeId} : id ∈ (coarseGraph weighted blocks).nodes ↔ id ∈ coarseIds weighted blocks := by
  have empty : id ∉ GraphBuilder.new.nodes := Std.ExtTreeMap.not_mem_empty
  unfold coarseGraph
  rw [mem_foldl_withCoarseNode, or_iff_right empty]

theorem coarseGraph_keys (partitions : IsPartition weighted.nodeCount blocks) :
    (coarseGraph weighted blocks).nodes.keys = coarseIds weighted blocks :=
  keys_fromNew (coarseIds_isIds partitions) partitions

theorem coarseEdge_eq_some {pair : List Nat × List Nat} {edge : GovernanceEdge} : coarseEdge weighted pair = some edge ↔
    blockSum weighted.weights pair.1 pair.2 ≠ 0 ∧ weighted.nodeIds[pair.1.headD 0]? = some edge.fromNode ∧
      weighted.nodeIds[pair.2.headD 0]? = some edge.toNode ∧ edge.transform = edgeTransform (blockSum weighted.weights pair.1 pair.2) := by
  unfold coarseEdge
  split_ifs with none
  · simp [none]
  · simp only [Option.bind_eq_bind, Option.bind_eq_some_iff, Option.some.injEq, ne_eq, none, not_false_eq_true, true_and]
    constructor
    · rintro ⟨source, atSource, target, atTarget, rfl⟩
      exact ⟨atSource, atTarget, rfl⟩
    · rintro ⟨atSource, atTarget, same⟩
      refine ⟨edge.fromNode, atSource, edge.toNode, atTarget, ?_⟩
      rw [← same]

theorem coarseGrain_eq {graph : GovernanceGraph} (encodable : (WeightedGovernanceGraph.fromGraph approximation graph).Encodable approximation)
    (partition : Partition) : coarseGrain approximation regexes graph partition =
      .ok (coarseGraph (.fromGraph approximation graph) (normalizePartition (.fromGraph approximation graph) partition)) := by
  have partitions := normalizePartition_isPartition (.fromGraph approximation graph) partition
  have noEdges : ∀ ids : List NodeId, (ids.foldl withCoarseNode .new).edges = [] := fun _ => edges_foldl_withCoarseNode _
  have edgesRun := foldlM_addCoarseEdge encodable fun pair member => separate_of_mem partitions member
  unfold coarseGrain
  rw [bind_eq_ok]
  refine ⟨_, foldlM_fromNew (coarseIds_isIds partitions) partitions, bind_eq_ok.2 ⟨_, edgesRun _, unwrap_eq_ok.2 (bind_eq_ok.2 ⟨⟨⟩, ?_, ?_⟩)⟩⟩
  · refine forM_eq_ok.2 fun edge listed => ?_
    rw [noEdges, List.nil_append] at listed
    obtain ⟨pair, member, made⟩ := List.mem_filterMap.1 listed
    obtain ⟨isLeft, isRight, -⟩ := mem_laterPairs partitions.disjoint member
    obtain ⟨-, atSource, atTarget, -⟩ := coarseEdge_eq_some.1 made
    have source := mem_coarseGraph_nodes.2 (List.mem_filterMap.2 ⟨_, isLeft, atSource⟩)
    have target := mem_coarseGraph_nodes.2 (List.mem_filterMap.2 ⟨_, isRight, atTarget⟩)
    exact guard_eq_ok.2 ⟨not_not.2 source, guard_eq_ok.2 ⟨not_not.2 target, rfl⟩⟩
  · rw [noEdges, List.nil_append]
    rfl

end

section

variable {approximation : FloatApproximation} {weighted : WeightedGovernanceGraph} {blocks : List (List Nat)} {row col : Nat}

theorem coarseIds_getElem? (partitions : IsPartition weighted.nodeCount blocks) {place : Nat} (within : place < blocks.length) :
    (coarseIds weighted blocks)[place]? = weighted.nodeIds[(blockAt blocks place).headD 0]? := by
  have isIds := coarseIds_isIds partitions
  have inside : place < (coarseIds weighted blocks).length := isIds.length_eq ▸ within
  have found := isIds.get within inside
  rw [List.get_eq_getElem, List.get_eq_getElem] at found
  rw [blockAt, List.getElem?_eq_getElem within, List.getElem?_eq_getElem inside]
  exact found.symm

theorem length_coarseIds (partitions : IsPartition weighted.nodeCount blocks) : (coarseIds weighted blocks).length = blocks.length :=
  (coarseIds_isIds partitions).length_eq.symm

/-- One where the pair is that of the row and the column, in either order. -/
def meets (pair : Nat × Nat) (row col : Nat) : ℚ := (if pair = (row, col) then 1 else 0) + if pair = (col, row) then 1 else 0

theorem joins_coarseEdge (partitions : IsPartition weighted.nodeCount blocks) {pair : Nat × Nat} (isLeft : pair.1 < blocks.length)
    (isRight : pair.2 < blocks.length) {edge : GovernanceEdge}
      (made : coarseEdge weighted (blockAt blocks pair.1, blockAt blocks pair.2) = some edge) :
    (joins (coarseIds weighted blocks) edge row col : ℚ) = meets pair row col := by
  obtain ⟨-, atSource, atTarget, -⟩ := coarseEdge_eq_some.1 made
  rw [← coarseIds_getElem? partitions isLeft] at atSource
  rw [← coarseIds_getElem? partitions isRight] at atTarget
  have distinct := nodup_of_ascending ((coarseIds_isIds partitions).ascending partitions.ordered)
  have isSource : ∀ place : Nat, (coarseIds weighted blocks)[place]? = some edge.fromNode ↔ pair.1 = place := by
    intro place
    rw [← idxOf?_eq_some distinct, (idxOf?_eq_some distinct).2 atSource, Option.some.injEq]
  have isTarget : ∀ place : Nat, (coarseIds weighted blocks)[place]? = some edge.toNode ↔ pair.2 = place := by
    intro place
    rw [← idxOf?_eq_some distinct, (idxOf?_eq_some distinct).2 atTarget, Option.some.injEq]
  unfold joins meets
  simp only [isSource, isTarget, Prod.ext_iff]
  push_cast
  rfl

theorem exists_coarseEdge (partitions : IsPartition weighted.nodeCount blocks) {pair : Nat × Nat} (isLeft : pair.1 < blocks.length)
    (isRight : pair.2 < blocks.length) :
    (coarseEdge weighted (blockAt blocks pair.1, blockAt blocks pair.2) = none ∧
      blockSum weighted.weights (blockAt blocks pair.1) (blockAt blocks pair.2) = 0) ∨
    ∃ edge, coarseEdge weighted (blockAt blocks pair.1, blockAt blocks pair.2) = some edge := by
  by_cases none : blockSum weighted.weights (blockAt blocks pair.1) (blockAt blocks pair.2) = 0
  · exact .inl ⟨if_pos none, none⟩
  · have length := length_coarseIds partitions
    have atSource := coarseIds_getElem? partitions isLeft
    have atTarget := coarseIds_getElem? partitions isRight
    rw [List.getElem?_eq_getElem (length.symm ▸ isLeft)] at atSource
    rw [List.getElem?_eq_getElem (length.symm ▸ isRight)] at atTarget
    exact .inr ⟨⟨_, _, edgeTransform _⟩, coarseEdge_eq_some.2 ⟨none, atSource.symm, atTarget.symm, rfl⟩⟩

theorem sum_coarseEdges (partitions : IsPartition weighted.nodeCount blocks) (encodable : weighted.Encodable approximation)
    {pairs : List (Nat × Nat)} (each : ∀ pair ∈ pairs, pair.1 < pair.2 ∧ pair.2 < blocks.length) :
    ((pairs.filterMap fun pair => coarseEdge weighted (blockAt blocks pair.1, blockAt blocks pair.2)).map fun edge =>
        edgeWeight approximation edge.transform * joins (coarseIds weighted blocks) edge row col).sum =
      (pairs.map fun pair => blockSum weighted.weights (blockAt blocks pair.1) (blockAt blocks pair.2) * meets pair row col).sum := by
  induction pairs with
  | nil => rfl
  | cons pair rest ih =>
    obtain ⟨below, isRight⟩ := each pair List.mem_cons_self
    have isLeft := below.trans isRight
    have tail := ih fun other listed => each other (List.mem_cons_of_mem pair listed)
    rw [List.filterMap_cons, List.map_cons, List.sum_cons, ← tail]
    rcases exists_coarseEdge partitions isLeft isRight with ⟨skipped, none⟩ | ⟨edge, made⟩
    · rw [skipped, none, zero_mul, zero_add]
    · rw [made]
      change (edgeWeight approximation edge.transform * _ :: _).sum = _
      rw [List.sum_cons, joins_coarseEdge partitions isLeft isRight made]
      obtain ⟨-, -, -, same⟩ := coarseEdge_eq_some.1 made
      rw [same, (encodable _ _ (partitions.nodup_two_blocks (Nat.ne_of_lt below))).2]

theorem sum_meets {pairs : List (Nat × Nat)} (distinct : pairs.Nodup) (number : Nat × Nat → ℚ) :
    (pairs.map fun pair => number pair * meets pair row col).sum =
      (if (row, col) ∈ pairs then number (row, col) else 0) + if (col, row) ∈ pairs then number (col, row) else 0 := by
  have one : ∀ target : Nat × Nat, (pairs.map fun pair => if pair = target then number pair else 0).sum =
      if target ∈ pairs then number target else 0 := by
    intro target
    induction pairs with
    | nil => simp
    | cons pair rest ih =>
      obtain ⟨absent, apart⟩ := List.nodup_cons.1 distinct
      rw [List.map_cons, List.sum_cons, ih apart]
      by_cases same : pair = target
      · subst same
        simp [absent]
      · simp [same, Ne.symm same]
  rw [← one, ← one, ← List.sum_map_add]
  refine congrArg List.sum (List.map_congr_left fun pair _ => ?_)
  unfold meets
  rw [mul_add, mul_ite, mul_ite, mul_one, mul_zero]

/-- The coarse weights are the block sums off the diagonal; the weight inside a block is dropped. -/
theorem coarseGraph_entry (partitions : IsPartition weighted.nodeCount blocks) (encodable : weighted.Encodable approximation)
    (symmetric : ∀ row col, weighted.weights.entry row col = weighted.weights.entry col row) :
    (WeightedGovernanceGraph.fromGraph approximation (coarseGraph weighted blocks)).weights.entry row col =
      if row = col then 0 else blockSum weighted.weights (blockAt blocks row) (blockAt blocks col) := by
  have ascending : (List.range blocks.length).Pairwise (· < ·) := List.pairwise_lt_range
  have edges : (coarseGraph weighted blocks).edges = (laterPairs (List.range blocks.length)).filterMap fun pair =>
      coarseEdge weighted (blockAt blocks pair.1, blockAt blocks pair.2) := by
    change (laterPairs blocks).filterMap _ = _
    conv_lhs => rw [← map_blockAt_range blocks]
    rw [laterPairs_map, List.filterMap_map]
    rfl
  have pairwise : ∀ pair ∈ laterPairs (List.range blocks.length), pair.1 < pair.2 ∧ pair.2 < blocks.length := by
    intro pair member
    obtain ⟨-, isRight, below⟩ := mem_laterPairs ascending member
    exact ⟨below, List.mem_range.1 isRight⟩
  rw [WeightedGovernanceGraph.fromGraph_entry, coarseGraph_keys partitions, edges, sum_coarseEdges partitions encodable pairwise,
    sum_meets (nodup_laterPairs List.nodup_range) fun pair => blockSum weighted.weights (blockAt blocks pair.1) (blockAt blocks pair.2)]
  simp only [mem_laterPairs_iff ascending, List.mem_range]
  have outside : ∀ {left right : Nat}, ¬right < blocks.length → blockSum weighted.weights (blockAt blocks left) (blockAt blocks right) = 0 := by
    intro left right beyond
    rw [blockAt_eq_nil beyond]
    simp [blockSum]
  have one : ∀ {left right : Nat}, left < right →
      (if left < blocks.length ∧ right < blocks.length ∧ left < right then
        blockSum weighted.weights (blockAt blocks left) (blockAt blocks right) else 0) =
      blockSum weighted.weights (blockAt blocks left) (blockAt blocks right) := by
    intro left right below
    split_ifs with inside
    · rfl
    · exact (outside fun within => inside ⟨below.trans within, within, below⟩).symm
  rcases Nat.lt_trichotomy row col with below | same | above
  · rw [one below, if_neg (fun inside => Nat.lt_asymm below inside.2.2), add_zero, if_neg (Nat.ne_of_lt below)]
  · subst same
    simp
  · rw [one above, if_neg (fun inside => Nat.lt_asymm above inside.2.2), zero_add, if_neg (Nat.ne_of_gt above), blockSum_comm symmetric]

end

section

variable {approximation : FloatApproximation} {weighted : WeightedGovernanceGraph} {blocks merges : List (List Nat)}
  (partitions : IsPartition weighted.nodeCount blocks) (encodable : weighted.Encodable approximation)
  (symmetric : ∀ row col, weighted.weights.entry row col = weighted.weights.entry col row)

include partitions encodable symmetric

theorem coarseGraph_blockSum {left right : List Nat} (apart : (left ++ right).Nodup) :
    blockSum (WeightedGovernanceGraph.fromGraph approximation (coarseGraph weighted blocks)).weights left right =
      blockSum weighted.weights (left.flatMap (blockAt blocks)) (right.flatMap (blockAt blocks)) := by
  obtain ⟨-, -, disjoint⟩ := List.nodup_append'.1 apart
  rw [blockSum_flatMap]
  unfold blockSum
  refine congrArg List.sum (List.map_congr_left fun row isRow => congrArg List.sum (List.map_congr_left fun col isCol => ?_))
  have differ : row ≠ col := fun same => disjoint isRow (same ▸ isCol)
  rw [coarseGraph_entry partitions encodable symmetric, if_neg differ]
  rfl

theorem coarseGraph_encodable : (WeightedGovernanceGraph.fromGraph approximation (coarseGraph weighted blocks)).Encodable approximation := by
  intro left right apart
  rw [coarseGraph_blockSum partitions encodable symmetric apart]
  refine encodable _ _ ?_
  rw [← List.flatMap_append]
  exact partitions.nodup_flatMap_blockAt apart

omit encodable symmetric in
theorem coarseGraph_nodeIds : (WeightedGovernanceGraph.fromGraph approximation (coarseGraph weighted blocks)).nodeIds = coarseIds weighted blocks :=
  coarseGraph_keys partitions

omit encodable symmetric in
theorem coarseGraph_nodeCount : (WeightedGovernanceGraph.fromGraph approximation (coarseGraph weighted blocks)).nodeCount = blocks.length :=
  (congrArg List.length (coarseGraph_keys partitions)).trans (length_coarseIds partitions)

omit encodable symmetric in
theorem coarser_id (merging : IsPartition blocks.length merges) {places : List Nat} (isMerge : places ∈ merges) :
    (WeightedGovernanceGraph.fromGraph approximation (coarseGraph weighted blocks)).nodeIds[places.headD 0]? =
      weighted.nodeIds[(unite blocks places).headD 0]? := by
  have within := fun place (member : place ∈ places) => merging.lt_count isMerge member
  have some := merging.nonempty places isMerge
  rw [coarseGraph_nodeIds partitions, coarseIds_getElem? partitions (within _ (headD_mem some)),
    partitions.headD_unite some (merging.ascending places isMerge) within]

theorem coarseGraph_coarsen (merging : IsPartition blocks.length merges) :
    coarseGraph (.fromGraph approximation (coarseGraph weighted blocks)) merges = coarseGraph weighted (coarsen blocks merges) := by
  set rough := WeightedGovernanceGraph.fromGraph approximation (coarseGraph weighted blocks) with isRough
  have ids : coarseIds rough merges = coarseIds weighted (coarsen blocks merges) := by
    unfold coarseIds coarsen
    rw [List.filterMap_map]
    exact List.filterMap_congr fun places isMerge => coarser_id partitions merging isMerge
  have edges : (laterPairs merges).filterMap (coarseEdge rough) = (laterPairs (coarsen blocks merges)).filterMap (coarseEdge weighted) := by
    unfold coarsen
    rw [laterPairs_map, List.filterMap_map]
    refine List.filterMap_congr fun pair member => ?_
    obtain ⟨isLeft, isRight, disjoint⟩ := mem_laterPairs merging.disjoint member
    have apart : (pair.1 ++ pair.2).Nodup := List.nodup_append'.2 ⟨(merging.ascending _ isLeft).imp fun below => Nat.ne_of_lt below,
      (merging.ascending _ isRight).imp fun below => Nat.ne_of_lt below, disjoint⟩
    have weight : blockSum rough.weights pair.1 pair.2 = blockSum weighted.weights (unite blocks pair.1) (unite blocks pair.2) := by
      rw [coarseGraph_blockSum partitions encodable symmetric apart]
      exact blockSum_perm (List.perm_insertionSort _ _).symm (List.perm_insertionSort _ _).symm
    unfold coarseEdge
    dsimp only [Function.comp]
    rw [weight, coarser_id partitions merging isLeft, coarser_id partitions merging isRight]
  unfold coarseGraph
  rw [ids, edges]

end

section

def nodesOf (weighted : WeightedGovernanceGraph) (block : List Nat) : List NodeId := block.filterMap fun index => weighted.nodeIds[index]?

/-- The nodes that a coarse node stands for, by its id. -/
def nodesCalled (weighted : WeightedGovernanceGraph) (blocks : List (List Nat)) (name : NodeId) : List NodeId :=
  (blocks.filter fun block => weighted.nodeIds[block.headD 0]? = some name).flatMap (nodesOf weighted)

/-- The composed partition: the coarser blocks with the nodes for the names, and the coarse nodes that these leave out. -/
def Partition.compose (weighted : WeightedGovernanceGraph) (partition coarser : Partition) : Partition :=
  ⟨(coarser.blocks.map fun names => names.flatMap (nodesCalled weighted (normalizePartition weighted partition))) ++
    (normalizePartition weighted partition).map (nodesOf weighted)⟩

variable {weighted rough : WeightedGovernanceGraph} {blocks : List (List Nat)} {number place : Nat}

theorem mem_named {names : List NodeId} : number ∈ named weighted names ↔ ∃ name ∈ names, weighted.nodeIds[number]? = some name := by
  unfold named
  rw [List.mem_filterMap]
  exact exists_congr fun name => and_congr_right fun _ => idxOf?_eq_some weighted.nodup

theorem mem_named_nodesOf {block : List Nat} (below : number < weighted.nodeCount) :
    number ∈ named weighted (nodesOf weighted block) ↔ number ∈ block := by
  obtain ⟨own, found⟩ : ∃ own, weighted.nodeIds[number]? = some own := ⟨_, List.getElem?_eq_getElem below⟩
  rw [mem_named]
  constructor
  · rintro ⟨name, listed, atNumber⟩
    obtain ⟨index, member, atIndex⟩ := List.mem_filterMap.1 listed
    rw [← idxOf?_eq_some weighted.nodup] at atNumber atIndex
    exact Option.some.inj (atNumber.symm.trans atIndex) ▸ member
  · exact fun member => ⟨own, List.mem_filterMap.2 ⟨number, member, found⟩, found⟩

theorem named_flatMap {α : Type} (values : List α) (parts : α → List NodeId) :
    named weighted (values.flatMap parts) = values.flatMap fun value => named weighted (parts value) := by
  unfold named
  rw [List.filterMap_flatMap]

theorem mem_named_nodesCalled (partitions : IsPartition weighted.nodeCount blocks) (isIds : rough.nodeIds = coarseIds weighted blocks)
    (member : number ∈ blockAt blocks place) {names : List NodeId} :
    number ∈ named weighted (names.flatMap (nodesCalled weighted blocks)) ↔ place ∈ named rough names := by
  obtain ⟨block, atPlace, inBlock⟩ := mem_blockAt.1 member
  have listed := List.mem_of_getElem? atPlace
  have within := (List.getElem?_eq_some_iff.1 atPlace).1
  have below := partitions.lt_count listed inBlock
  have same : blockAt blocks place = block := by rw [blockAt, atPlace, Option.getD_some]
  have each : ∀ name, number ∈ named weighted (nodesCalled weighted blocks name) ↔ rough.nodeIds[place]? = some name := by
    intro name
    rw [isIds, coarseIds_getElem? partitions within, same]
    unfold nodesCalled
    rw [named_flatMap, List.mem_flatMap]
    constructor
    · rintro ⟨other, called, inside⟩
      obtain ⟨alsoListed, isName⟩ := List.mem_filter.1 called
      rw [partitions.eq_of_mem listed alsoListed inBlock ((mem_named_nodesOf below).1 inside)]
      exact of_decide_eq_true isName
    · exact fun isName => ⟨block, List.mem_filter.2 ⟨listed, decide_eq_true isName⟩, (mem_named_nodesOf below).2 inBlock⟩
  rw [named_flatMap, List.mem_flatMap, mem_named]
  exact exists_congr fun name => and_congr_right fun _ => each name

theorem findIdx?_blockAt (partitions : IsPartition weighted.nodeCount blocks) (member : number ∈ blockAt blocks place) :
    blocks.findIdx? (fun block => number ∈ block) = some place := by
  obtain ⟨block, atPlace, inBlock⟩ := mem_blockAt.1 member
  obtain ⟨within, rfl⟩ := List.getElem?_eq_some_iff.1 atPlace
  refine List.findIdx?_eq_some_iff_getElem.2 ⟨within, decide_eq_true inBlock, fun other before also => ?_⟩
  have inOther := mem_blockAt.2 ⟨_, List.getElem?_eq_getElem (before.trans within), of_decide_eq_true also⟩
  exact absurd (partitions.blockAt_inj inOther member) (Nat.ne_of_lt before)

theorem claimant_compose {partition coarser : Partition} (isIds : rough.nodeIds = coarseIds weighted (normalizePartition weighted partition))
    (member : number ∈ blockAt (normalizePartition weighted partition) place) :
    claimant weighted (Partition.compose weighted partition coarser).blocks number =
      (claimant rough coarser.blocks place).or (some (place + coarser.blocks.length)) := by
  have partitions := normalizePartition_isPartition weighted partition
  obtain ⟨block, atPlace, inBlock⟩ := mem_blockAt.1 member
  have below := partitions.lt_count (List.mem_of_getElem? atPlace) inBlock
  unfold claimant Partition.compose
  rw [List.findIdx?_append, List.findIdx?_map, List.findIdx?_map, List.length_map]
  congr 1
  · refine congrArg (List.findIdx? · coarser.blocks) (funext fun names => ?_)
    exact decide_eq_decide.2 (mem_named_nodesCalled partitions isIds member)
  · have same : ((fun names => decide (number ∈ named weighted names)) ∘ nodesOf weighted) = fun block => decide (number ∈ block) :=
      funext fun block => decide_eq_decide.2 (mem_named_nodesOf below)
    rw [same, findIdx?_blockAt partitions member]
    rfl

theorem claimant_lt {names : List (List NodeId)} {found : Nat} (claimed : claimant rough names place = some found) : found < names.length :=
  (List.findIdx?_eq_some_iff_getElem.1 claimed).1

/-- The composed partition merges the blocks of the one as the other merges the coarse nodes. -/
theorem normalizePartition_compose {partition coarser : Partition}
    (isIds : rough.nodeIds = coarseIds weighted (normalizePartition weighted partition)) :
    normalizePartition weighted (Partition.compose weighted partition coarser) =
      coarsen (normalizePartition weighted partition) (normalizePartition rough coarser) := by
  have partitions := normalizePartition_isPartition weighted partition
  have counted : rough.nodeCount = (normalizePartition weighted partition).length := by
    unfold WeightedGovernanceGraph.nodeCount
    rw [isIds, length_coarseIds partitions]
  have merging := normalizePartition_isPartition rough coarser
  rw [counted] at merging
  refine IsPartition.unique_below (normalizePartition_isPartition weighted _) (partitions.coarsen merging) fun left isLeft right isRight => ?_
  obtain ⟨one, within, atLeft⟩ := partitions.exists_blockAt isLeft
  obtain ⟨other, -, atRight⟩ := partitions.exists_blockAt isRight
  have merged : Together (coarsen (normalizePartition weighted partition) (normalizePartition rough coarser)) left right ↔
      Together (normalizePartition rough coarser) one other := by
    rw [together_coarsen]
    constructor
    · rintro ⟨first, second, atFirst, atSecond, both⟩
      rwa [partitions.blockAt_inj atLeft atFirst, partitions.blockAt_inj atRight atSecond]
    · exact fun both => ⟨one, other, atLeft, atRight, both⟩
  rw [merged, together_normalizePartition isLeft, together_normalizePartition (counted ▸ within), claimant_compose isIds atLeft,
    claimant_compose isIds atRight]
  constructor
  · rintro (same | ⟨found, atOne, atOther⟩)
    · subst same
      exact .inl (partitions.blockAt_inj atLeft atRight)
    · cases claimedOne : claimant rough coarser.blocks one with
      | none => cases claimedOther : claimant rough coarser.blocks other with
        | none =>
          rw [claimedOne, Option.none_or, Option.some.injEq] at atOne
          rw [claimedOther, Option.none_or, Option.some.injEq] at atOther
          exact .inl (by omega)
        | some index =>
          rw [claimedOne, Option.none_or, Option.some.injEq] at atOne
          rw [claimedOther, Option.some_or, Option.some.injEq] at atOther
          have := claimant_lt claimedOther
          omega
      | some index => cases claimedOther : claimant rough coarser.blocks other with
        | none =>
          rw [claimedOne, Option.some_or, Option.some.injEq] at atOne
          rw [claimedOther, Option.none_or, Option.some.injEq] at atOther
          have := claimant_lt claimedOne
          omega
        | some next =>
          rw [claimedOne, Option.some_or] at atOne
          rw [claimedOther, Option.some_or] at atOther
          exact .inr ⟨found, atOne, atOther⟩
  · rintro (same | ⟨found, atOne, atOther⟩)
    · subst same
      obtain ⟨found, isFound⟩ : ∃ found, (claimant rough coarser.blocks one).or (some (one + coarser.blocks.length)) = some found := by
        cases claimant rough coarser.blocks one <;> simp
      exact .inr ⟨found, isFound, isFound⟩
    · exact .inr ⟨found, by rw [atOne, Option.some_or], by rw [atOther, Option.some_or]⟩

end

section

variable {approximation : FloatApproximation} {ids : List NodeId} {left right : List Nat}

theorem sum_map_ite (places : List Nat) (holds : Nat → Prop) [DecidablePred holds] (number : Nat) :
    (places.map fun place => if holds place then number else 0).sum = places.countP holds * number := by
  induction places with
  | nil => simp
  | cons place rest ih =>
    rw [List.map_cons, List.sum_cons, ih, List.countP_cons]
    by_cases here : holds place
    · simp [here, Nat.add_mul, Nat.add_comm]
    · simp [here]

theorem sum_pairs (rows cols : List Nat) (isRow isCol : Nat → Prop) [DecidablePred isRow] [DecidablePred isCol] :
    (rows.map fun row => (cols.map fun col => if isRow row ∧ isCol col then 1 else 0).sum).sum = rows.countP isRow * cols.countP isCol := by
  rw [← sum_map_ite]
  refine congrArg List.sum (List.map_congr_left fun row _ => ?_)
  split_ifs with here
  · simp only [here, true_and]
    rw [sum_map_ite, Nat.mul_one]
  · simp [here]

theorem countP_id_le (distinct : ids.Nodup) {places : List Nat} (apart : places.Nodup) (id : NodeId) :
    places.countP (fun place => ids[place]? = some id) ≤ 1 := by
  simp only [← idxOf?_eq_some distinct]
  cases found : ids.idxOf? id with
  | none => simp
  | some index =>
    have single := List.nodup_iff_count_le_one.1 apart index
    refine le_trans (List.countP_mono_left fun place _ same => ?_) single
    have equal : index = place := Option.some.inj (of_decide_eq_true same)
    simp [equal]

theorem crossings_le_one (distinct : ids.Nodup) (apart : (left ++ right).Nodup) (edge : GovernanceEdge) :
    (left.map fun row => (right.map fun col => joins ids edge row col).sum).sum ≤ 1 := by
  have source := countP_id_le distinct apart edge.fromNode
  have target := countP_id_le distinct apart edge.toNode
  rw [List.countP_append] at source target
  unfold joins
  simp only [List.sum_map_add]
  have backward : (left.map fun row => (right.map fun col => if ids[col]? = some edge.fromNode ∧
      ids[row]? = some edge.toNode then 1 else 0).sum).sum =
      left.countP (fun place => ids[place]? = some edge.toNode) * right.countP fun place => ids[place]? = some edge.fromNode := by
    rw [← sum_pairs]
    exact congrArg List.sum (List.map_congr_left fun row _ => congrArg List.sum (List.map_congr_left fun col _ => if_congr and_comm rfl rfl))
  rw [backward, sum_pairs]
  have product := Nat.mul_le_mul source target
  rw [Nat.add_mul, Nat.mul_add, Nat.mul_add] at product
  have turned := Nat.mul_comm (left.countP fun place => ids[place]? = some edge.toNode) (right.countP fun place => ids[place]? = some edge.fromNode)
  omega

def crossings (ids : List NodeId) (edges : List GovernanceEdge) (left right : List Nat) : Nat :=
  (edges.map fun edge => (left.map fun row => (right.map fun col => joins ids edge row col).sum).sum).sum

theorem crossings_le (distinct : ids.Nodup) (apart : (left ++ right).Nodup) (edges : List GovernanceEdge) :
    crossings ids edges left right ≤ edges.length := by
  unfold crossings
  induction edges with
  | nil => exact le_rfl
  | cons edge rest ih =>
    have one := crossings_le_one distinct apart edge
    rw [List.map_cons, List.sum_cons, List.length_cons]
    omega

theorem blockSum_eq_crossings {graph : GovernanceGraph} (passing : ∀ edge ∈ graph.edges, edge.transform = .passThrough) :
    blockSum (WeightedGovernanceGraph.fromGraph approximation graph).weights left right = crossings graph.nodes.keys graph.edges left right := by
  have entry : ∀ row col, (WeightedGovernanceGraph.fromGraph approximation graph).weights.entry row col =
      (graph.edges.map fun edge => (joins graph.nodes.keys edge row col : ℚ)).sum := by
    intro row col
    rw [WeightedGovernanceGraph.fromGraph_entry]
    refine congrArg List.sum (List.map_congr_left fun edge listed => ?_)
    rw [passing edge listed]
    exact one_mul _
  unfold blockSum crossings
  simp only [entry]
  have swapped : ∀ row, (right.map fun col => (graph.edges.map fun edge => (joins graph.nodes.keys edge row col : ℚ)).sum).sum =
      (graph.edges.map fun edge => (right.map fun col => (joins graph.nodes.keys edge row col : ℚ)).sum).sum :=
        fun row => sum_comm right graph.edges _
  simp only [swapped]
  rw [sum_comm]
  simp [Nat.cast_list_sum, Function.comp_def]

theorem encodable_of_passing {graph : GovernanceGraph} (passing : ∀ edge ∈ graph.edges, edge.transform = .passThrough)
    (inRange : graph.edges.length < 2 ^ 53) : (WeightedGovernanceGraph.fromGraph approximation graph).Encodable approximation := by
  intro left right apart
  have distinct := (WeightedGovernanceGraph.fromGraph approximation graph).nodup
  have small := (crossings_le distinct apart graph.edges).trans_lt inRange
  rw [blockSum_eq_crossings passing]
  exact ⟨validateTransform_edgeTransform small, edgeWeight_edgeTransform approximation small⟩

end

section

variable {signal : List ℚ} {blocks merges : List (List Nat)} {count : Nat}

def signalSum (signal : List ℚ) (block : List Nat) : ℚ := (block.map fun index => (signal[index]?).getD 0).sum

theorem blockSignal_eq {block : List Nat} (within : ∀ index ∈ block, index < signal.length) :
    blockSignal signal block = .ok (signalSum signal block) := by
  have each : ∀ index ∈ block, indexed signal index = .ok ((signal[index]?).getD 0) := by
    intro index listed
    obtain ⟨value, found⟩ : ∃ value, signal[index]? = some value := ⟨_, List.getElem?_eq_getElem (within index listed)⟩
    rw [found, Option.getD_some]
    exact indexed_eq_ok.2 found
  unfold blockSignal
  rw [mapM_of_ok each]
  rfl

theorem coarseSignal_eq {approximation : FloatApproximation} {graph : GovernanceGraph} (long : graph.nodes.size ≤ signal.length)
    (partition : Partition) :
    coarseSignal approximation graph signal partition =
      .ok ((normalizePartition (.fromGraph approximation graph) partition).map (signalSum signal)) := by
  have partitions := normalizePartition_isPartition (.fromGraph approximation graph) partition
  rw [nodeCount_fromGraph] at partitions
  exact mapM_of_ok fun block listed => blockSignal_eq fun index member => (partitions.lt_count listed member).trans_le long

theorem signalSum_coarsen (merging : IsPartition blocks.length merges) :
    merges.map (signalSum (blocks.map (signalSum signal))) = (coarsen blocks merges).map (signalSum signal) := by
  unfold coarsen
  rw [List.map_map]
  refine List.map_congr_left fun places isMerge => ?_
  have united : signalSum signal (unite blocks places) = signalSum signal (places.flatMap (blockAt blocks)) :=
      ((List.perm_insertionSort _ _).map _).sum_eq
  rw [Function.comp_apply, united]
  unfold signalSum
  rw [sum_flatMap]
  refine congrArg List.sum (List.map_congr_left fun place member => ?_)
  have within := merging.lt_count isMerge member
  rw [List.getElem?_map, blockAt, List.getElem?_eq_getElem within]
  rfl

end

section

variable (approximation : FloatApproximation) (regexes : RegexEngine)

/-- Coarse graining never panics, and twice gives the graph and the signal of once by the composed partition. -/
theorem coarseGrain_composes (graph : GovernanceGraph) (passing : ∀ edge ∈ graph.edges, edge.transform = .passThrough)
    (inRange : graph.edges.length < 2 ^ 53) (partition coarser : Partition) : ∃ coarse composed,
    coarseGrain approximation regexes graph partition = .ok coarse ∧
    coarseGrain approximation regexes coarse coarser = .ok composed ∧
    coarseGrain approximation regexes graph (Partition.compose (.fromGraph approximation graph) partition coarser) = .ok composed ∧
    (∀ row col, (WeightedGovernanceGraph.fromGraph approximation composed).weights.entry row col =
      (WeightedGovernanceGraph.fromGraph approximation composed).weights.entry col row) ∧
    ∀ signal : List ℚ, graph.nodes.size ≤ signal.length → ∃ reduced result,
      coarseSignal approximation graph signal partition = .ok reduced ∧
      coarseSignal approximation coarse reduced coarser = .ok result ∧
      coarseSignal approximation graph signal (Partition.compose (.fromGraph approximation graph) partition coarser) = .ok result := by
  have encodable := @encodable_of_passing approximation graph passing inRange
  set weighted := WeightedGovernanceGraph.fromGraph approximation graph with isWeighted
  have symmetric : ∀ row col, weighted.weights.entry row col = weighted.weights.entry col row := fun _ _ => WeightedGovernanceGraph.fromGraph_symm _ _
  have partitions := normalizePartition_isPartition weighted partition
  have isIds := @coarseGraph_nodeIds approximation _ _ partitions
  have merging := normalizePartition_isPartition (.fromGraph approximation (coarseGraph weighted (normalizePartition weighted partition))) coarser
  rw [coarseGraph_nodeCount partitions] at merging
  have normalized := @normalizePartition_compose weighted _ partition coarser isIds
  refine ⟨_, _, coarseGrain_eq encodable partition, coarseGrain_eq (coarseGraph_encodable partitions encodable symmetric) coarser, ?_,
    fun _ _ => WeightedGovernanceGraph.fromGraph_symm _ _, fun signal long => ?_⟩
  · rw [coarseGrain_eq encodable, ← isWeighted, normalized, coarseGraph_coarsen partitions encodable symmetric merging]
  · refine ⟨_, _, coarseSignal_eq long partition, coarseSignal_eq ?_ coarser, ?_⟩
    · rw [List.length_map, ← @nodeCount_fromGraph approximation, coarseGraph_nodeCount partitions]
    · rw [coarseSignal_eq long, ← isWeighted, normalized, signalSum_coarsen merging]

theorem coarseGrain_composes_triangle : ∃ coarse composed,
    coarseGrain exactOnly noPatterns uniformTriangle firstTwo = .ok coarse ∧
    coarseGrain exactOnly noPatterns coarse ⟨[[third, first]]⟩ = .ok composed ∧
    coarseGrain exactOnly noPatterns uniformTriangle (Partition.compose (.fromGraph exactOnly uniformTriangle) firstTwo ⟨[[third, first]]⟩) =
      .ok composed := by
  obtain ⟨coarse, composed, atCoarse, atComposed, atOnce, -⟩ :=
    coarseGrain_composes exactOnly noPatterns uniformTriangle (by simp [uniformTriangle]) (by decide) firstTwo ⟨[[third, first]]⟩
  exact ⟨coarse, composed, atCoarse, atComposed, atOnce⟩

end

end ExactSpectral

end Legitimacy
