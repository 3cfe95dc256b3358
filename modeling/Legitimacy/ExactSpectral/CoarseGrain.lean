import Legitimacy.ExactSpectral.Vulnerability
import Legitimacy.GraphPolicy
import Legitimacy.SetPartitions

namespace Legitimacy

namespace ExactSpectral

open ExceptRun SetPartitions

section

inductive Panic where
  | unwrapped (error : LegitimacyError)
  | indexOutOfBounds

def unwrap {α : Type} (outcome : Except LegitimacyError α) : Except Panic α := outcome.mapError .unwrapped

def indexed {α : Type} (values : List α) (index : Nat) : Except Panic α := (values[index]?).elim (.error .indexOutOfBounds) .ok

structure Partition where
  blocks : List (List NodeId)

/-- The indices that no earlier block has; `seen` are those that one has. -/
def unseenIndices (seen : List Nat) : List Nat → List Nat
  | [] => []
  | index :: rest => if index ∈ seen then unseenIndices seen rest else index :: unseenIndices (index :: seen) rest

def claimBlocks (weighted : WeightedGovernanceGraph) (seen : List Nat) : List (List NodeId) → List (List Nat)
  | [] => []
  | block :: rest =>
    let indices := unseenIndices seen (block.filterMap fun node => weighted.nodeIds.idxOf? node)
    indices.insertionSort (· ≤ ·) :: claimBlocks weighted (indices ++ seen) rest

def normalizePartition (weighted : WeightedGovernanceGraph) (partition : Partition) : List (List Nat) :=
  let blocks := (claimBlocks weighted [] partition.blocks).filter (· ≠ [])
  let singletons := ((List.range weighted.nodeCount).filter fun index => index ∉ blocks.flatten).map fun index => [index]
  (blocks ++ singletons).insertionSort fun left right => left.headD 0 ≤ right.headD 0

def coarseNodeId (weighted : WeightedGovernanceGraph) (block : List Nat) : Except Panic NodeId := do
  let first ← indexed block 0
  indexed weighted.nodeIds first

def coarseNode (original : NodeId) : GovernanceNode := .binary original s!"merged({original.asStr})" [] .escalate .firstMatch

def rationalToFloat (value : ℚ) : Float := Float.ofInt value.num / Float.ofNat value.den

def edgeTransform (weight : ℚ) : EdgeTransform := if weight = 1 then .passThrough else .claimModification (rationalToFloat weight)

def coarseWeight (weighted : WeightedGovernanceGraph) (leftBlock rightBlock : List Nat) : Except Panic ℚ := do
  let weights ← (leftBlock.flatMap fun left => rightBlock.map fun right => (left, right)).mapM fun pair => do
    let row ← indexed weighted.weights pair.1
    indexed row pair.2
  .ok weights.sum

def laterPairs {α : Type} : List α → List (α × α)
  | [] => []
  | first :: rest => rest.map (first, ·) ++ laterPairs rest

def addCoarseNode (regexes : RegexEngine) (weighted : WeightedGovernanceGraph) (builder : GraphBuilder) (block : List Nat) :
    Except Panic GraphBuilder := do
  let original ← coarseNodeId weighted block
  unwrap (builder.addNode regexes (coarseNode original))

def addCoarseEdge (weighted : WeightedGovernanceGraph) (builder : GraphBuilder) (pair : List Nat × List Nat) : Except Panic GraphBuilder := do
  let weight ← coarseWeight weighted pair.1 pair.2
  if weight = 0 then .ok builder
  else
    let source ← coarseNodeId weighted pair.1
    let target ← coarseNodeId weighted pair.2
    unwrap (builder.addEdge source target (edgeTransform weight))

variable (approximation : FloatApproximation) (regexes : RegexEngine) (graph : GovernanceGraph)

def coarseGrain (partition : Partition) : Except Panic GovernanceGraph := do
  let weighted := WeightedGovernanceGraph.fromGraph approximation graph
  let normalized := normalizePartition weighted partition
  let builder ← normalized.foldlM (addCoarseNode regexes weighted) .new
  let builder ← (laterPairs normalized).foldlM (addCoarseEdge weighted) builder
  unwrap builder.build

def blockSignal (signal : List ℚ) (block : List Nat) : Except Panic ℚ := do
  let values ← block.mapM (indexed signal)
  .ok values.sum

def coarseSignal (signal : List ℚ) (partition : Partition) : Except Panic (List ℚ) :=
  (normalizePartition (WeightedGovernanceGraph.fromGraph approximation graph) partition).mapM (blockSignal signal)

def breaksMonotonicity (signal : List ℚ) (delta : ℚ) (partition : Partition) : Except Panic Bool := do
  let coarseGraph ← coarseGrain approximation regexes graph partition
  let coarseSignal ← coarseSignal approximation graph signal partition
  .ok (cStar approximation coarseGraph coarseSignal delta < cStar approximation graph signal delta)

end

section

variable {α : Type}

theorem unwrap_eq_ok {outcome : Except LegitimacyError α} {result : α} : unwrap outcome = .ok result ↔ outcome = .ok result := mapError_eq_ok

theorem indexed_eq_ok {values : List α} {index : Nat} {value : α} : indexed values index = .ok value ↔ values[index]? = some value := elim_eq_ok

end

section

variable {weighted : WeightedGovernanceGraph} {seen indices : List Nat}

theorem mem_unseenIndices {index : Nat} : index ∈ unseenIndices seen indices ↔ index ∈ indices ∧ index ∉ seen := by
  induction indices generalizing seen with
  | nil => simp [unseenIndices]
  | cons first rest ih =>
    rw [unseenIndices]
    split_ifs with known
    · rw [ih, List.mem_cons]
      constructor
      · exact fun ⟨later, fresh⟩ => ⟨.inr later, fresh⟩
      · rintro ⟨rfl | later, fresh⟩
        · exact absurd known fresh
        · exact ⟨later, fresh⟩
    · rw [List.mem_cons, ih, List.mem_cons]
      by_cases same : index = first
      · subst same
        simp [known]
      · simp [same]

theorem nodup_unseenIndices (seen indices : List Nat) : (unseenIndices seen indices).Nodup := by
  induction indices generalizing seen with
  | nil => exact List.nodup_nil
  | cons first rest ih =>
    rw [unseenIndices]
    split_ifs with known
    · exact ih seen
    · exact List.nodup_cons.2 ⟨fun member => (mem_unseenIndices.1 member).2 List.mem_cons_self, ih (first :: seen)⟩

def named (weighted : WeightedGovernanceGraph) (block : List NodeId) : List Nat := block.filterMap fun node => weighted.nodeIds.idxOf? node

theorem named_lt {block : List NodeId} {index : Nat} (member : index ∈ named weighted block) : index < weighted.nodeCount := by
  obtain ⟨node, -, found⟩ := List.mem_filterMap.1 member
  exact idxOf?_lt found

variable {blocks : List (List NodeId)}

theorem claimBlocks_ascending : ∀ block ∈ claimBlocks weighted seen blocks, block.Pairwise (· < ·) := by
  induction blocks generalizing seen with
  | nil => simp [claimBlocks]
  | cons first rest ih =>
    intro block listed
    rcases List.mem_cons.1 listed with rfl | later
    · exact ascending_insertionSort (nodup_unseenIndices seen _)
    · exact ih block later

theorem mem_claimBlocks {index : Nat} :
    index ∈ (claimBlocks weighted seen blocks).flatten ↔ index ∉ seen ∧ ∃ block ∈ blocks, index ∈ named weighted block := by
  induction blocks generalizing seen with
  | nil => simp [claimBlocks]
  | cons first rest ih =>
    rw [claimBlocks, List.flatten_cons, List.mem_append, (List.perm_insertionSort _ _).mem_iff, ih, mem_unseenIndices, List.mem_append,
      mem_unseenIndices]
    by_cases here : index ∈ named weighted first
    · have found : ∃ block ∈ first :: rest, index ∈ named weighted block := ⟨first, List.mem_cons_self, here⟩
      simp only [named] at here
      simp only [here, found, true_and, and_true]
      tauto
    · have moved : (∃ block ∈ first :: rest, index ∈ named weighted block) ↔ ∃ block ∈ rest, index ∈ named weighted block := by
        simp [here]
      simp only [named] at here
      rw [moved]
      simp [here]

theorem claimBlocks_disjoint : (claimBlocks weighted seen blocks).Pairwise List.Disjoint := by
  induction blocks generalizing seen with
  | nil => exact List.Pairwise.nil
  | cons first rest ih =>
    refine List.pairwise_cons.2 ⟨fun block listed index isFirst isBlock => ?_, ih⟩
    have later := mem_claimBlocks.1 (List.mem_flatten.2 ⟨block, listed, isBlock⟩)
    exact later.1 (List.mem_append_left _ ((List.perm_insertionSort _ _).mem_iff.1 isFirst))

theorem normalizePartition_isPartition (weighted : WeightedGovernanceGraph) (partition : Partition) :
    IsPartition weighted.nodeCount (normalizePartition weighted partition) := by
  unfold normalizePartition
  set blocks := (claimBlocks weighted [] partition.blocks).filter (· ≠ []) with isBlocks
  set singletons := ((List.range weighted.nodeCount).filter fun index => index ∉ blocks.flatten).map fun index => [index] with isSingletons
  have perm := List.perm_insertionSort (fun left right : List Nat => left.headD 0 ≤ right.headD 0) (blocks ++ singletons)
  have nonempty : ∀ block ∈ blocks ++ singletons, block ≠ [] := by
    intro block listed
    rcases List.mem_append.1 listed with claimed | alone
    · exact of_decide_eq_true (List.mem_filter.1 claimed).2
    · obtain ⟨index, -, rfl⟩ := List.mem_map.1 alone
      exact List.cons_ne_nil _ _
  have ascending : ∀ block ∈ blocks ++ singletons, block.Pairwise (· < ·) := by
    intro block listed
    rcases List.mem_append.1 listed with claimed | alone
    · exact claimBlocks_ascending block (List.mem_filter.1 claimed).1
    · obtain ⟨index, -, rfl⟩ := List.mem_map.1 alone
      exact List.pairwise_singleton _ _
  have flattened : singletons.flatten = (List.range weighted.nodeCount).filter fun index => index ∉ blocks.flatten := by
    rw [isSingletons, ← List.flatMap_def, List.flatMap_singleton']
  have distinct : (blocks ++ singletons).flatten.Nodup := by
    rw [List.flatten_append, flattened, List.nodup_append']
    refine ⟨List.nodup_flatten.2 ⟨fun block listed => ?_, claimBlocks_disjoint.filter _⟩, List.nodup_range.filter _, fun index claimed rest => ?_⟩
    · exact (ascending block (List.mem_append_left _ listed)).imp fun below => Nat.ne_of_lt below
    · exact of_decide_eq_true (List.mem_filter.1 rest).2 claimed
  have covers : (blocks ++ singletons).flatten.Perm (List.range weighted.nodeCount) := by
    refine (List.perm_ext_iff_of_nodup distinct List.nodup_range).2 fun index => ?_
    rw [List.flatten_append, flattened, List.mem_append, List.mem_filter, List.mem_range]
    constructor
    · rintro (claimed | rest)
      · obtain ⟨block, listed, member⟩ := List.mem_flatten.1 claimed
        obtain ⟨-, names, -, isNamed⟩ := mem_claimBlocks.1 (List.mem_flatten.2 ⟨block, (List.mem_filter.1 listed).1, member⟩)
        exact named_lt isNamed
      · exact rest.1
    · intro below
      by_cases claimed : index ∈ blocks.flatten
      · exact .inl claimed
      · exact .inr ⟨below, decide_eq_true claimed⟩
  refine ⟨fun block listed => nonempty block (perm.mem_iff.1 listed), fun block listed => ascending block (perm.mem_iff.1 listed), ?_,
    perm.flatten.trans covers⟩
  -- disjoint blocks have different heads
  have sorted := List.pairwise_insertionSort (fun left right : List Nat => left.headD 0 ≤ right.headD 0) (blocks ++ singletons)
  have separate := (List.nodup_flatten.1 (perm.flatten.nodup_iff.2 distinct)).2
  refine (sorted.and separate).imp_of_mem fun {left right} isLeft isRight both => Nat.lt_of_le_of_ne both.1 fun same => ?_
  refine both.2 (headD_mem (nonempty left (perm.mem_iff.1 isLeft))) ?_
  rw [same]
  exact headD_mem (nonempty right (perm.mem_iff.1 isRight))

/-- The first block that names an index. -/
def claimant (weighted : WeightedGovernanceGraph) (blocks : List (List NodeId)) (index : Nat) : Option Nat :=
  blocks.findIdx? fun block => index ∈ named weighted block

theorem together_claimBlocks {left right : Nat} : Together (claimBlocks weighted seen blocks) left right ↔
    left ∉ seen ∧ right ∉ seen ∧ ∃ place, claimant weighted blocks left = some place ∧ claimant weighted blocks right = some place := by
  induction blocks generalizing seen with
  | nil => simp [claimBlocks, Together, claimant]
  | cons first rest ih =>
    have head : ∀ {index}, index ∈ (unseenIndices seen (named weighted first)).insertionSort (· ≤ ·) ↔ index ∈ named weighted first ∧ index ∉ seen :=
      fun {index} => by rw [(List.perm_insertionSort _ _).mem_iff, mem_unseenIndices]
    have split : Together (claimBlocks weighted seen (first :: rest)) left right ↔
        (left ∈ named weighted first ∧ left ∉ seen) ∧ (right ∈ named weighted first ∧ right ∉ seen) ∨
          Together (claimBlocks weighted (unseenIndices seen (named weighted first) ++ seen) rest) left right := by
      rw [← head, ← head]
      simp only [Together, claimBlocks, List.mem_cons, exists_eq_or_imp]
      rfl
    rw [split, ih]
    unfold claimant
    simp only [List.mem_append, mem_unseenIndices, not_or, List.findIdx?_cons]
    by_cases isLeft : left ∈ named weighted first
    · by_cases isRight : right ∈ named weighted first
      · simp [isLeft, isRight]
      · simp [isLeft, isRight]
    · by_cases isRight : right ∈ named weighted first
      · simp [isLeft, isRight]
      · simp [isLeft, isRight]

/-- Nodes share a block where they are the same or the same block claims them first. -/
theorem together_normalizePartition {partition : Partition} {left right : Nat} (isLeft : left < weighted.nodeCount) :
    Together (normalizePartition weighted partition) left right ↔
      left = right ∨ ∃ place, claimant weighted partition.blocks left = some place ∧ claimant weighted partition.blocks right = some place := by
  have claimed : ∀ {one other}, Together ((claimBlocks weighted [] partition.blocks).filter (· ≠ [])) one other ↔
      ∃ place, claimant weighted partition.blocks one = some place ∧ claimant weighted partition.blocks other = some place := by
    intro one other
    have kept : Together ((claimBlocks weighted [] partition.blocks).filter (· ≠ [])) one other ↔
        Together (claimBlocks weighted [] partition.blocks) one other := by
      refine exists_congr fun block => ⟨fun ⟨listed, both⟩ => ⟨(List.mem_filter.1 listed).1, both⟩, fun ⟨listed, both⟩ => ⟨?_, both⟩⟩
      exact List.mem_filter.2 ⟨listed, decide_eq_true (List.ne_nil_of_mem both.1)⟩
    rw [kept, together_claimBlocks]
    simp
  rw [← claimed]
  have listed : ∀ {block}, block ∈ normalizePartition weighted partition ↔ block ∈ (claimBlocks weighted [] partition.blocks).filter (· ≠ []) ∨
      ∃ index < weighted.nodeCount, index ∉ ((claimBlocks weighted [] partition.blocks).filter (· ≠ [])).flatten ∧ block = [index] := by
    intro block
    unfold normalizePartition
    rw [(List.perm_insertionSort _ _).mem_iff, List.mem_append, List.mem_map]
    simp only [List.mem_filter, List.mem_range, decide_eq_true_eq, and_assoc, @eq_comm _ _ block]
  constructor
  · rintro ⟨block, member, atLeft, atRight⟩
    rcases listed.1 member with inside | ⟨index, -, -, rfl⟩
    · exact .inr ⟨block, inside, atLeft, atRight⟩
    · exact .inl ((List.mem_singleton.1 atLeft).trans (List.mem_singleton.1 atRight).symm)
  · rintro (rfl | ⟨block, inside, both⟩)
    · obtain ⟨block, member, atLeft⟩ := (normalizePartition_isPartition weighted partition).mem_iff.2 isLeft
      exact ⟨block, member, atLeft, atLeft⟩
    · exact ⟨block, listed.2 (.inl inside), both⟩

end

section

variable {regexes : RegexEngine} {weighted : WeightedGovernanceGraph} {blocks : List (List Nat)} {ids : List NodeId}

theorem coarseNodeId_eq_ok {block : List Nat} (some : block ≠ []) {id : NodeId} :
    coarseNodeId weighted block = .ok id ↔ weighted.nodeIds[block.headD 0]? = .some id := by
  obtain ⟨first, rest, rfl⟩ := List.exists_cons_of_ne_nil some
  unfold coarseNodeId
  rw [bind_eq_ok]
  simp only [indexed_eq_ok, List.getElem?_cons_zero, Option.some.injEq, exists_eq_left', List.headD_cons]

def withCoarseNode (builder : GraphBuilder) (id : NodeId) : GraphBuilder :=
  { builder with nodes := builder.nodes.insert id (coarseNode id) }

theorem addCoarseNode_eq_ok {builder next : GraphBuilder} {block : List Nat} (some : block ≠ []) :
    addCoarseNode regexes weighted builder block = .ok next ↔
      ∃ id, weighted.nodeIds[block.headD 0]? = .some id ∧ id ∉ builder.nodes ∧ next = withCoarseNode builder id := by
  unfold addCoarseNode
  rw [bind_eq_ok]
  refine exists_congr fun id => and_congr (coarseNodeId_eq_ok some) ?_
  unfold GraphBuilder.addNode
  rw [unwrap_eq_ok, bind_eq_ok]
  have valid : validateGovernanceNode regexes (coarseNode id) = .ok () := rfl
  constructor
  · rintro ⟨⟨⟩, -, run⟩
    obtain ⟨fresh, made⟩ := guard_eq_ok.1 run
    exact ⟨fresh, (Except.ok.inj made).symm⟩
  · rintro ⟨fresh, rfl⟩
    exact ⟨⟨⟩, valid, guard_eq_ok.2 ⟨fresh, rfl⟩⟩

def CoarseIds (weighted : WeightedGovernanceGraph) (blocks : List (List Nat)) (ids : List NodeId) : Prop :=
  List.Forall₂ (fun block id => weighted.nodeIds[block.headD 0]? = some id) blocks ids

theorem exists_coarseIds (partitions : IsPartition weighted.nodeCount blocks) : ∃ ids, CoarseIds weighted blocks ids := by
  have each : ∀ block ∈ blocks, ∃ id, weighted.nodeIds[block.headD 0]? = some id := fun block listed =>
    ⟨_, List.getElem?_eq_getElem (partitions.lt_count listed (headD_mem (partitions.nonempty block listed)))⟩
  clear partitions
  induction blocks with
  | nil => exact ⟨[], .nil⟩
  | cons block rest ih =>
    obtain ⟨id, atBlock⟩ := each block List.mem_cons_self
    obtain ⟨ids, atRest⟩ := ih fun other listed => each other (List.mem_cons_of_mem block listed)
    exact ⟨id :: ids, .cons atBlock atRest⟩

theorem CoarseIds.ascending (isIds : CoarseIds weighted blocks ids) (ordered : blocks.Pairwise fun left right => left.headD 0 < right.headD 0) :
    ids.Pairwise fun left right => compare left right = .lt := by
  induction isIds with
  | nil => exact List.Pairwise.nil
  | @cons block id rest others atBlock atRest ih =>
    obtain ⟨before, later⟩ := List.pairwise_cons.1 ordered
    refine List.pairwise_cons.2 ⟨fun other listed => ?_, ih later⟩
    obtain ⟨next, member, atNext⟩ := exists_partner atRest.flip listed
    have below := before next member
    have ascending := List.pairwise_iff_getElem.1 weighted.ascending
    obtain ⟨inside, rfl⟩ := List.getElem?_eq_some_iff.1 atBlock
    obtain ⟨alsoInside, rfl⟩ := List.getElem?_eq_some_iff.1 atNext
    exact ascending _ _ inside alsoInside below

theorem foldlM_addCoarseNode (isIds : CoarseIds weighted blocks ids) (nonempty : ∀ block ∈ blocks, block ≠ []) (builder : GraphBuilder)
    (distinct : ids.Nodup) (fresh : ∀ id ∈ ids, id ∉ builder.nodes) :
    blocks.foldlM (addCoarseNode regexes weighted) builder = .ok (ids.foldl withCoarseNode builder) := by
  induction isIds generalizing builder with
  | nil => rfl
  | @cons block id rest others atBlock atRest ih =>
    obtain ⟨absent, apart⟩ := List.nodup_cons.1 distinct
    have step : addCoarseNode regexes weighted builder block = .ok (withCoarseNode builder id) :=
      (addCoarseNode_eq_ok (nonempty block List.mem_cons_self)).2 ⟨id, atBlock, fresh id List.mem_cons_self, rfl⟩
    rw [List.foldlM_cons, bind_eq_ok]
    refine ⟨_, step, ih (fun other listed => nonempty other (List.mem_cons_of_mem block listed)) _ apart fun other listed already => ?_⟩
    rcases Std.ExtTreeMap.mem_insert.1 already with same | before
    · exact absent (Std.LawfulEqCmp.eq_of_compare same ▸ listed)
    · exact fresh other (List.mem_cons_of_mem id listed) before

theorem mem_foldl_withCoarseNode {id : NodeId} (builder : GraphBuilder) :
    id ∈ (ids.foldl withCoarseNode builder).nodes ↔ id ∈ builder.nodes ∨ id ∈ ids := by
  induction ids generalizing builder with
  | nil => simp
  | cons first rest ih =>
    rw [List.foldl_cons, ih, List.mem_cons]
    have inserted : id ∈ (withCoarseNode builder first).nodes ↔ id = first ∨ id ∈ builder.nodes := by
      unfold withCoarseNode
      rw [Std.ExtTreeMap.mem_insert, Std.LawfulEqCmp.compare_eq_iff_eq]
      exact or_congr_left eq_comm
    rw [inserted]
    tauto

theorem edges_foldl_withCoarseNode (builder : GraphBuilder) : (ids.foldl withCoarseNode builder).edges = builder.edges := by
  induction ids generalizing builder with
  | nil => rfl
  | cons first rest ih => exact ih (withCoarseNode builder first)

theorem keys_eq_of_ascending {nodes : BTreeMap NodeId GovernanceNode} (ascending : ids.Pairwise fun left right => compare left right = .lt)
    (members : ∀ id, id ∈ nodes ↔ id ∈ ids) : nodes.keys = ids := by
  have perm : nodes.keys.Perm ids := (List.perm_ext_iff_of_nodup Std.ExtTreeMap.nodup_keys (nodup_of_ascending ascending)).2 fun id => by
    rw [Std.ExtTreeMap.mem_keys, members]
  refine perm.eq_of_pairwise (fun left right _ _ before after => ?_) Std.ExtTreeMap.ordered_keys ascending
  rw [@Std.OrientedCmp.eq_swap _ compare _ right left, before] at after
  cases after

variable {approximation : FloatApproximation} {graph coarse : GovernanceGraph} {partition : Partition} {signal : List ℚ}

theorem addCoarseEdge_nodes {builder next : GraphBuilder} {pair : List Nat × List Nat} (run : addCoarseEdge weighted builder pair = .ok next) :
    next.nodes = builder.nodes := by
  obtain ⟨weight, -, run⟩ := bind_eq_ok.1 run
  split at run
  · rw [Except.ok.inj run]
  · obtain ⟨source, -, run⟩ := bind_eq_ok.1 run
    obtain ⟨target, -, run⟩ := bind_eq_ok.1 run
    obtain ⟨edge, -, made⟩ := bind_eq_ok.1 (unwrap_eq_ok.1 run)
    rw [← Except.ok.inj made]

theorem build_eq_ok {builder : GraphBuilder} (run : unwrap builder.build = .ok coarse) : coarse = ⟨builder.nodes, builder.edges⟩ := by
  obtain ⟨⟨⟩, -, made⟩ := bind_eq_ok.1 (unwrap_eq_ok.1 run)
  exact (Except.ok.inj made).symm

theorem foldlM_fromNew (isIds : CoarseIds weighted blocks ids) (partitions : IsPartition weighted.nodeCount blocks) :
    blocks.foldlM (addCoarseNode regexes weighted) .new = .ok (ids.foldl withCoarseNode .new) :=
  foldlM_addCoarseNode isIds partitions.nonempty _ (nodup_of_ascending (isIds.ascending partitions.ordered)) fun _ _ => Std.ExtTreeMap.not_mem_empty

theorem keys_fromNew (isIds : CoarseIds weighted blocks ids) (partitions : IsPartition weighted.nodeCount blocks) :
    (ids.foldl withCoarseNode .new).nodes.keys = ids := by
  refine keys_eq_of_ascending (isIds.ascending partitions.ordered) fun id => ?_
  have empty : id ∉ GraphBuilder.new.nodes := Std.ExtTreeMap.not_mem_empty
  rw [mem_foldl_withCoarseNode, or_iff_right empty]

theorem coarseGrain_keys (run : coarseGrain approximation regexes graph partition = .ok coarse) :
    CoarseIds (.fromGraph approximation graph) (normalizePartition (.fromGraph approximation graph) partition) coarse.nodes.keys := by
  have partitions := normalizePartition_isPartition (.fromGraph approximation graph) partition
  obtain ⟨ids, isIds⟩ := exists_coarseIds partitions
  obtain ⟨builder, nodesRun, run⟩ := bind_eq_ok.1 run
  rw [foldlM_fromNew isIds partitions] at nodesRun
  obtain rfl := Except.ok.inj nodesRun
  obtain ⟨final, edgesRun, built⟩ := bind_eq_ok.1 run
  have same : final.nodes = (ids.foldl withCoarseNode .new).nodes :=
    foldlM_invariant (fun _ (builder : GraphBuilder) => builder.nodes = (ids.foldl withCoarseNode .new).nodes) rfl
      (fun _ _ _ _ _ _ kept stepped => (addCoarseEdge_nodes stepped).trans kept) edgesRun
  rw [build_eq_ok built, same, keys_fromNew isIds partitions]
  exact isIds

theorem coarse_size (run : coarseGrain approximation regexes graph partition = .ok coarse) :
    coarse.nodes.size = (normalizePartition (.fromGraph approximation graph) partition).length := by
  rw [← Std.ExtTreeMap.length_keys, (coarseGrain_keys run).length_eq]

end

section

open WeightedGovernanceGraph

variable (approximation : FloatApproximation) (regexes : RegexEngine) (graph : GovernanceGraph) (signal : List ℚ)

theorem spViolation_iff_capability (nonempty : 0 < graph.nodes.size) {delta capability : ℚ} (positive : 0 < delta) (capable : 0 < capability) :
    spViolation approximation graph signal (delta / capability) = false ↔
      capability < cStar approximation graph signal delta ∨ cv approximation graph signal = 0 := by
  rw [Bool.eq_false_iff, Ne, spViolation_iff_le_cv nonempty, not_le]
  unfold cStar
  rw [safeDiv_eq]
  change cv approximation graph signal < delta / capability ↔ capability < delta / cv approximation graph signal ∨ cv approximation graph signal = 0
  rcases (@cv_nonneg approximation graph signal).lt_or_eq with vulnerable | safe
  · rw [lt_div_iff₀ capable, lt_div_iff₀ vulnerable, mul_comm, or_iff_left vulnerable.ne']
  · rw [← safe]
    exact iff_of_true (div_pos positive capable) (.inr rfl)

theorem cStar_lt_iff {coarse : GovernanceGraph} {reduced : List ℚ} {delta : ℚ} (positive : 0 < delta) :
    cStar approximation coarse reduced delta < cStar approximation graph signal delta ↔
      0 < cv approximation graph signal ∧ (cv approximation coarse reduced = 0 ∨
        cv approximation graph signal < cv approximation coarse reduced) := by
  unfold cStar
  rw [safeDiv_eq, safeDiv_eq]
  change delta / cv approximation coarse reduced < delta / cv approximation graph signal ↔ _
  have fineNonneg := @cv_nonneg approximation graph signal
  rcases (@cv_nonneg approximation coarse reduced).lt_or_eq with vulnerable | safe
  · rcases fineNonneg.lt_or_eq with fine | fine
    · rw [div_lt_div_iff_of_pos_left positive vulnerable fine]
      simp [fine, vulnerable.ne']
    · rw [← fine, div_zero]
      exact iff_of_false (not_lt.2 (div_pos positive vulnerable).le) fun both => lt_irrefl 0 both.1
  · rw [← safe, div_zero]
    rcases fineNonneg.lt_or_eq with fine | fine
    · exact iff_of_true (div_pos positive fine) ⟨fine, .inl rfl⟩
    · rw [← fine, div_zero]
      exact iff_of_false (lt_irrefl 0) fun both => lt_irrefl 0 both.1

/-- The threshold is exact, and a broken monotonicity is a larger vulnerability, unless the coarse graph is insensitive and the fine one is not. -/
theorem critical_capability_exact (nonempty : 0 < graph.nodes.size) (sized : signal.length = graph.nodes.size) {delta : ℚ} (positive : 0 < delta)
    (partition : Partition) {coarse : GovernanceGraph} {reduced : List ℚ} (grained : coarseGrain approximation regexes graph partition = .ok coarse)
    (signaled : coarseSignal approximation graph signal partition = .ok reduced) :
    ((∀ capability, 0 < capability → (spViolation approximation graph signal (delta / capability) = false ↔
        capability < cStar approximation graph signal delta ∨ cv approximation graph signal = 0)) ∧
      (breaksMonotonicity approximation regexes graph signal delta partition = .ok true →
        cv approximation graph signal < cv approximation coarse reduced)) ↔
      ((fromGraph approximation coarse).Insensitive reduced → (fromGraph approximation graph).Insensitive signal) := by
  have breaks : breaksMonotonicity approximation regexes graph signal delta partition = .ok true ↔
      cStar approximation coarse reduced delta < cStar approximation graph signal delta := by
    unfold breaksMonotonicity
    rw [grained, signaled]
    exact ⟨fun same => of_decide_eq_true (Except.ok.inj same), fun below => congrArg Except.ok (decide_eq_true below)⟩
  have counted : signal.length = (fromGraph approximation graph).nodeCount := by rw [sized, nodeCount_fromGraph]
  have coarseCounted : reduced.length = (fromGraph approximation coarse).nodeCount := by
    rw [nodeCount_fromGraph, coarse_size grained, ← (mapM_eq_ok.1 signaled).length_eq]
  have fine : cv approximation graph signal = 0 ↔ _ := cv_eq_zero_iff fromGraph_nonnegative counted
  have rough : cv approximation coarse reduced = 0 ↔ _ := cv_eq_zero_iff fromGraph_nonnegative coarseCounted
  rw [breaks, cStar_lt_iff approximation graph signal positive, ← fine, ← rough]
  have nonneg := @cv_nonneg approximation graph signal
  constructor
  · rintro ⟨-, larger⟩ safe
    by_contra vulnerable
    have := larger ⟨lt_of_le_of_ne nonneg (Ne.symm vulnerable), .inl safe⟩
    rw [safe] at this
    exact absurd this (not_lt.2 nonneg)
  · refine fun safe => ⟨fun capability capable => spViolation_iff_capability approximation graph signal nonempty positive capable, ?_⟩
    rintro ⟨vulnerable, zero | larger⟩
    · exact absurd (safe zero) vulnerable.ne'
    · exact larger

end

section

def noPatterns : RegexEngine := fun _ => .error "no pattern"

def firstTwo : Partition := ⟨[[first, second]]⟩

theorem critical_capability_exact_triangle : ∃ coarse reduced, coarseGrain exactOnly noPatterns uniformTriangle firstTwo = .ok coarse ∧
    coarseSignal exactOnly uniformTriangle [1, 2, 3] firstTwo = .ok reduced ∧
    (((∀ capability, 0 < capability → (spViolation exactOnly uniformTriangle [1, 2, 3] (1 / 10 / capability) = false ↔
        capability < cStar exactOnly uniformTriangle [1, 2, 3] (1 / 10) ∨ cv exactOnly uniformTriangle [1, 2, 3] = 0)) ∧
      (breaksMonotonicity exactOnly noPatterns uniformTriangle [1, 2, 3] (1 / 10) firstTwo = .ok true →
        cv exactOnly uniformTriangle [1, 2, 3] < cv exactOnly coarse reduced)) ↔
      ((WeightedGovernanceGraph.fromGraph exactOnly coarse).Insensitive reduced →
        (WeightedGovernanceGraph.fromGraph exactOnly uniformTriangle).Insensitive [1, 2, 3])) := by
  obtain ⟨coarse, grained⟩ := exists_of_toBool (by decide +kernel : (coarseGrain exactOnly noPatterns uniformTriangle firstTwo).toBool = true)
  obtain ⟨reduced, signaled⟩ := exists_of_toBool (by decide +kernel : (coarseSignal exactOnly uniformTriangle [1, 2, 3] firstTwo).toBool = true)
  exact ⟨coarse, reduced, grained, signaled, critical_capability_exact exactOnly noPatterns uniformTriangle [1, 2, 3] (by decide +kernel)
    (by decide +kernel) (by norm_num) firstTwo grained signaled⟩

/-- Merging the ends of a bridge leaves nothing vulnerable and is reported all the same. -/
theorem bridge_reports_safe_merge : breaksMonotonicity exactOnly noPatterns bridge [1, 1] (1 / 10) firstTwo = .ok true ∧
    cv exactOnly bridge [1, 1] = 1 ∧
    (do
      let coarse ← coarseGrain exactOnly noPatterns bridge firstTwo
      let reduced ← coarseSignal exactOnly bridge [1, 1] firstTwo
      .ok (cv exactOnly coarse reduced)) = .ok 0 := by
  decide +kernel

end

end ExactSpectral

end Legitimacy
