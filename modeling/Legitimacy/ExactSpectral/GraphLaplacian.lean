import Legitimacy.ExactSpectral.Vulnerability
import Legitimacy.WeightedLaplacian

namespace Legitimacy

namespace ExactSpectral

section

def exactValue (value : Float) : ℚ :=
  match value.toModel.unpack with
  | .finite sign mantissa exponent _ => sign.apply (mantissa : Int) * 2 ^ exponent
  | _ => 0

def analysisWeight : EdgeTransform → ℚ
  | .passThrough => 1
  | .claimModification delta => max |exactValue delta| 1

theorem analysisWeight_pos (transform : EdgeTransform) : 0 < analysisWeight transform := by
  cases transform with
  | passThrough => exact zero_lt_one
  | claimModification delta => exact lt_max_of_lt_right zero_lt_one

def Weights.write (weights : Weights) (row col : Nat) (weight : ℚ) : Weights := weights.modify row fun values => values.set col weight

def writeEdge (nodeIds : List NodeId) (adjacency : Weights) (edge : GovernanceEdge) : Weights :=
  match nodeIds.idxOf? edge.fromNode, nodeIds.idxOf? edge.toNode with
  | some left, some right =>
    let weight := analysisWeight edge.transform
    (adjacency.write left right weight).write right left weight
  | _, _ => adjacency

def adjacency (graph : GovernanceGraph) : Weights := graph.edges.foldl (writeEdge graph.nodes.keys) (Weights.zero graph.nodes.keys.length)

/-- Each degree is the sum of a whole row, what is on the diagonal included. -/
def degreesLessWeights (weights : Weights) : Weights :=
  weights.zipIdx.map fun (values, row) => values.zipIdx.map fun (value, col) => if row = col then values.sum else -value

def analysisLaplacian (graph : GovernanceGraph) : Weights := degreesLessWeights (adjacency graph)

def laplacianMatrix (weights : Weights) : Weights := degreesLessWeights weights

/-- The answers in closed form; from three nodes on the source iterates over floats. -/
def fiedlerEigenvalue (laplacian : Weights) (n : Nat) : Option ℚ :=
  if n ≤ 1 then some 0
  else if n = 2 then some (laplacian.entry 0 0 + laplacian.entry 1 1)
  else none

end

section

variable {weights : Weights} {count row col source target : Nat}

theorem Weights.Square.write (square : weights.Square count) (weight : ℚ) : (weights.write source target weight).Square count := by
  refine ⟨by rw [Weights.write, List.length_modify, square.1], fun values member => ?_⟩
  obtain ⟨place, atPlace⟩ := List.mem_iff_getElem?.1 member
  rw [Weights.write, List.getElem?_modify] at atPlace
  obtain ⟨before, found, rfl⟩ := Option.map_eq_some_iff.1 atPlace
  have length := square.2 before (List.mem_of_getElem? found)
  split_ifs
  · rw [List.length_set, length]
  · exact length

theorem Weights.Square.entry_write (square : weights.Square count) (isRow : source < count) (isCol : target < count) (weight : ℚ) :
    (weights.write source target weight).entry row col = if source = row ∧ target = col then weight else weights.entry row col := by
  unfold Weights.entry Weights.write
  rw [List.getElem?_modify]
  by_cases sameRow : source = row
  · subst sameRow
    obtain ⟨values, found⟩ : ∃ values, weights[source]? = some values := ⟨_, List.getElem?_eq_getElem (square.1.symm ▸ isRow)⟩
    have length := square.2 values (List.mem_of_getElem? found)
    rw [found]
    simp only [Option.map_eq_map, Option.map_some, if_true, Option.getD_some, List.getElem?_set, true_and]
    by_cases sameCol : target = col
    · subst sameCol
      simp [length, isCol]
    · simp [sameCol]
  · simp [sameRow]

theorem Weights.Square.writeEdge {nodeIds : List NodeId} (square : weights.Square nodeIds.length) (edge : GovernanceEdge) :
    (ExactSpectral.writeEdge nodeIds weights edge).Square nodeIds.length := by
  unfold ExactSpectral.writeEdge
  split
  · exact (square.write _).write _
  · exact square

variable {nodeIds : List NodeId}

theorem entry_writeEdge (distinct : nodeIds.Nodup) (square : weights.Square nodeIds.length) (edge : GovernanceEdge) :
    (writeEdge nodeIds weights edge).entry row col =
      if joins nodeIds edge row col = 0 then weights.entry row col else analysisWeight edge.transform := by
  unfold writeEdge
  split
  next left right atFrom atTo =>
    rw [joins_of_places distinct atFrom atTo, (square.write _).entry_write (idxOf?_lt atTo) (idxOf?_lt atFrom),
      square.entry_write (idxOf?_lt atFrom) (idxOf?_lt atTo)]
    simp only [and_comm (a := right = row)]
    split_ifs <;> simp_all
  next missing => rw [joins_of_missing distinct missing, if_pos rfl]

theorem entry_writeEdges (distinct : nodeIds.Nodup) (edges : List GovernanceEdge) (square : weights.Square nodeIds.length)
    (nonneg : ∀ row col, 0 ≤ weights.entry row col) (symmetric : ∀ row col, weights.entry row col = weights.entry col row) :
    ((edges.foldl (writeEdge nodeIds) weights).Square nodeIds.length ∧
      (∀ row col, 0 ≤ (edges.foldl (writeEdge nodeIds) weights).entry row col) ∧
      (∀ row col, (edges.foldl (writeEdge nodeIds) weights).entry row col = (edges.foldl (writeEdge nodeIds) weights).entry col row) ∧
      ∀ row col, (edges.foldl (writeEdge nodeIds) weights).entry row col ≠ 0 ↔
        weights.entry row col ≠ 0 ∨ ∃ edge ∈ edges, joins nodeIds edge row col ≠ 0) := by
  induction edges generalizing weights with
  | nil => exact ⟨square, nonneg, symmetric, fun row col => by simp⟩
  | cons edge rest ih =>
    obtain ⟨squared, nonnegs, symm, entries⟩ := ih (square.writeEdge edge)
      (fun row col => by
        rw [entry_writeEdge distinct square]
        split_ifs
        · exact nonneg row col
        · exact (analysisWeight_pos _).le)
      (fun row col => by rw [entry_writeEdge distinct square, entry_writeEdge distinct square, joins_comm, symmetric row col])
    refine ⟨squared, nonnegs, symm, fun row col => ?_⟩
    rw [List.foldl_cons, entries, entry_writeEdge distinct square]
    split_ifs with apart
    · simp [apart]
    · simp [apart, (analysisWeight_pos edge.transform).ne']

end

section

open WeightedLaplacian Matrix

/-- The table as a matrix over the reals. -/
def Weights.matrix (weights : Weights) (n : Nat) : Matrix (Fin n) (Fin n) ℝ := .of fun i j => (weights.entry i j : ℝ)

theorem matrix_degreesLessWeights {weights : Weights} {n : Nat} (square : weights.Square n) :
    (degreesLessWeights weights).matrix n = laplacian (weights.matrix n) := by
  ext i j
  obtain ⟨values, found⟩ : ∃ values, weights[(i : Nat)]? = some values := ⟨_, List.getElem?_eq_getElem (square.1.symm ▸ i.isLt)⟩
  have length := square.2 values (List.mem_of_getElem? found)
  have row : ∀ k : Fin n, weights.entry i k = (values[(k : Nat)]?).getD 0 := fun k => by rw [Weights.entry, found, Option.getD_some]
  have sum : values.sum = ∑ k : Fin n, weights.entry i k := by
    subst length
    rw [← Fin.sum_univ_getElem]
    exact Finset.sum_congr rfl fun k _ => by rw [row, List.getElem?_eq_getElem k.isLt, Option.getD_some]
  have entry : (degreesLessWeights weights).entry i j = if i = j then values.sum else -weights.entry i j := by
    rw [Weights.entry, degreesLessWeights, List.getElem?_map, List.getElem?_zipIdx, found, row j]
    simp [List.getElem?_eq_getElem (length.symm ▸ j.isLt : (j : Nat) < values.length), Fin.ext_iff]
  simp only [Weights.matrix, of_apply, entry, laplacian]
  split_ifs
  · rw [sum]
    push_cast
    rfl
  · push_cast
    rfl

def joined (nodeIds : List NodeId) (edges : List GovernanceEdge) : SimpleGraph (Fin nodeIds.length) :=
  .fromRel fun i j => ∃ edge ∈ edges, joins nodeIds edge i j ≠ 0

theorem isLaplacian_loopless {weights : Weights} {nodeIds : List NodeId} {edges : List GovernanceEdge} (square : weights.Square nodeIds.length)
    (nonneg : ∀ row col, 0 ≤ weights.entry row col) (symmetric : ∀ row col, weights.entry row col = weights.entry col row)
    (entries : ∀ row col, weights.entry row col ≠ 0 ↔ ∃ edge ∈ edges, joins nodeIds edge row col ≠ 0)
    (inside : ∀ edge ∈ edges, edge.fromNode ∈ nodeIds) :
    IsLaplacian (weights.matrix nodeIds.length) ((degreesLessWeights weights).matrix nodeIds.length) (joined nodeIds edges) ↔
      ∀ edge ∈ edges, edge.fromNode ≠ edge.toNode := by
  have weighted : ∀ i j : Fin nodeIds.length, weights.matrix nodeIds.length i j ≠ 0 ↔ ∃ edge ∈ edges, joins nodeIds edge i j ≠ 0 := by
    intro i j
    rw [← entries]
    exact Rat.cast_ne_zero
  have graphs : joined nodeIds edges = support (weights.matrix nodeIds.length) := by
    ext i j
    simp only [joined, support, SimpleGraph.fromRel_adj, weighted]
  have symm : ∀ i j, weights.matrix nodeIds.length i j = weights.matrix nodeIds.length j i := fun i j => congrArg Rat.cast (symmetric i j)
  have nonnegs : ∀ i j, 0 ≤ weights.matrix nodeIds.length i j := fun i j => Rat.cast_nonneg.2 (nonneg i j)
  rw [matrix_degreesLessWeights square, graphs, isLaplacian_iff symm nonnegs]
  constructor
  · intro loopless edge member loop
    obtain ⟨i, found⟩ := List.mem_iff_get.1 (inside edge member)
    refine (weighted i i).2 ⟨edge, member, ?_⟩ (loopless i)
    have place : nodeIds[(i : Nat)]? = some edge.fromNode := List.getElem?_eq_some_iff.2 ⟨i.isLt, found⟩
    rw [joins, if_pos ⟨place, loop ▸ place⟩]
    omega
  · intro loopless i
    by_contra nonzero
    obtain ⟨edge, member, joining⟩ := (weighted i i).1 nonzero
    refine joining ?_
    have apart : ¬(nodeIds[(i : Nat)]? = some edge.fromNode ∧ nodeIds[(i : Nat)]? = some edge.toNode) := fun both =>
      loopless edge member (Option.some.inj (both.1.symm.trans both.2))
    rw [joins, if_neg apart]

theorem fiedlerEigenvalue_pair {weights laplacian : Weights} {n : Nat} {graph : SimpleGraph (Fin n)}
    (facts : IsLaplacian (weights.matrix n) (laplacian.matrix n) graph) (two) (pair : n = 2) :
    (fiedlerEigenvalue laplacian n).map (fun value => (value : ℝ)) = some (secondEigenvalue facts.positive.1 two) := by
  subst pair
  rw [← facts.pair two]
  simp [fiedlerEigenvalue, Weights.matrix]

end

section

open WeightedLaplacian

/-- The facts about the matrix of `spectral_analysis`, whose edges all have a weight. -/
structure AnalysisFacts (graph : GovernanceGraph) : Prop where
  laplacian : IsLaplacian ((adjacency graph).matrix graph.nodes.keys.length) ((analysisLaplacian graph).matrix graph.nodes.keys.length)
    (joined graph.nodes.keys graph.edges)
  pair : ∀ two, graph.nodes.keys.length = 2 →
    (fiedlerEigenvalue (analysisLaplacian graph) graph.nodes.keys.length).map (fun value => (value : ℝ)) =
      some (secondEigenvalue laplacian.positive.1 two)

variable (approximation : FloatApproximation) (graph : GovernanceGraph)

def weightedEdges : List GovernanceEdge := graph.edges.filter fun edge => edgeWeight approximation edge.transform ≠ 0

/-- The facts about the matrix made from `weights`. -/
def WeightsFacts : Prop :=
  IsLaplacian ((WeightedGovernanceGraph.fromGraph approximation graph).weights.matrix graph.nodes.keys.length)
    ((laplacianMatrix (WeightedGovernanceGraph.fromGraph approximation graph).weights).matrix graph.nodes.keys.length)
    (joined graph.nodes.keys (weightedEdges approximation graph))

variable {graph} {regexes : RegexEngine}

theorem analysisFacts_iff (valid : validateGovernanceGraph regexes graph = .ok ()) :
    AnalysisFacts graph ↔ ∀ edge ∈ graph.edges, edge.fromNode ≠ edge.toNode := by
  have distinct : graph.nodes.keys.Nodup := nodup_of_ascending Std.ExtTreeMap.ordered_keys
  have entryless : ∀ row col, (Weights.zero graph.nodes.keys.length).entry row col = 0 := fun row col => Weights.entry_zero
  obtain ⟨square, nonneg, symmetric, entries⟩ := entry_writeEdges distinct graph.edges Weights.square_zero
    (fun row col => (entryless row col).ge) fun row col => (entryless row col).trans (entryless col row).symm
  simp only [entryless, ne_eq, not_true_eq_false, false_or] at entries
  have inside : ∀ edge ∈ graph.edges, edge.fromNode ∈ graph.nodes.keys := fun edge member =>
    Std.ExtTreeMap.mem_keys.2 (edge_endpoints_of_valid valid member).1
  rw [← isLaplacian_loopless square nonneg symmetric entries inside]
  exact ⟨AnalysisFacts.laplacian, fun facts => ⟨facts, fiedlerEigenvalue_pair facts⟩⟩

theorem weightsFacts_iff (valid : validateGovernanceGraph regexes graph = .ok ()) :
    WeightsFacts approximation graph ↔ ∀ edge ∈ graph.edges, edge.fromNode = edge.toNode → edgeWeight approximation edge.transform = 0 := by
  let weighted := WeightedGovernanceGraph.fromGraph approximation graph
  have entries : ∀ row col, weighted.weights.entry row col ≠ 0 ↔
      ∃ edge ∈ weightedEdges approximation graph, joins graph.nodes.keys edge row col ≠ 0 := by
    intro row col
    have shares : ∀ share ∈ graph.edges.map fun edge => edgeWeight approximation edge.transform * joins graph.nodes.keys edge row col,
        0 ≤ share := by
      intro share member
      obtain ⟨edge, -, rfl⟩ := List.mem_map.1 member
      exact mul_nonneg (edgeWeight_nonneg approximation edge.transform) (Nat.cast_nonneg _)
    rw [← not_iff_not, not_not, WeightedGovernanceGraph.fromGraph_entry]
    constructor
    · rintro none ⟨edge, member, joining⟩
      have weighted := List.mem_filter.1 member
      have product := List.all_zero_of_le_zero_le_of_sum_eq_zero shares none (List.mem_map_of_mem weighted.1)
      exact (mul_ne_zero (of_decide_eq_true weighted.2) (Nat.cast_ne_zero.2 joining)) product
    · intro none
      refine List.sum_eq_zero fun share member => ?_
      obtain ⟨edge, inGraph, rfl⟩ := List.mem_map.1 member
      by_contra product
      exact none ⟨edge, List.mem_filter.2 ⟨inGraph, decide_eq_true (left_ne_zero_of_mul product)⟩,
        Nat.cast_ne_zero.1 (right_ne_zero_of_mul product)⟩
  have inside : ∀ edge ∈ weightedEdges approximation graph, edge.fromNode ∈ graph.nodes.keys := fun edge member =>
    Std.ExtTreeMap.mem_keys.2 (edge_endpoints_of_valid valid (List.mem_filter.1 member).1).1
  refine (isLaplacian_loopless weighted.square (fun _ _ => WeightedGovernanceGraph.fromGraph_nonneg approximation graph)
    (fun _ _ => WeightedGovernanceGraph.fromGraph_symm approximation graph) entries inside).trans ?_
  simp only [weightedEdges, List.mem_filter, decide_eq_true_eq]
  refine forall_congr' fun edge => ⟨fun apart member loop => ?_, fun weightless member loop => member.2 (weightless member.1 loop)⟩
  by_contra weight
  exact apart ⟨member, weight⟩ loop

/-- Both matrices are what they are called exactly on the graphs without a loop, and the second one also
where a loop has no weight. -/
theorem laplacians_iff (valid : validateGovernanceGraph regexes graph = .ok ()) :
    (AnalysisFacts graph ∧ WeightsFacts approximation graph ↔ ∀ edge ∈ graph.edges, edge.fromNode ≠ edge.toNode) ∧
      (WeightsFacts approximation graph ↔
        ∀ edge ∈ graph.edges, edge.fromNode = edge.toNode → edgeWeight approximation edge.transform = 0) := by
  refine ⟨?_, weightsFacts_iff approximation valid⟩
  rw [analysisFacts_iff valid, weightsFacts_iff approximation valid]
  exact ⟨And.left, fun loopless => ⟨loopless, fun edge member loop => absurd loop (loopless edge member)⟩⟩

theorem laplacians_iff_triangle :
    (AnalysisFacts uniformTriangle ∧ WeightsFacts exactOnly uniformTriangle ↔
        ∀ edge ∈ uniformTriangle.edges, edge.fromNode ≠ edge.toNode) ∧
      (WeightsFacts exactOnly uniformTriangle ↔
        ∀ edge ∈ uniformTriangle.edges, edge.fromNode = edge.toNode → edgeWeight exactOnly edge.transform = 0) :=
  @laplacians_iff exactOnly uniformTriangle .error (by decide +kernel)

/-- Two nodes, and the only edge goes from the first to itself. -/
def loopGraph : GovernanceGraph where
  nodes := ((∅ : BTreeMap NodeId GovernanceNode).insert first (plainNode first)).insert second (plainNode second)
  edges := [⟨first, first, .passThrough⟩]

/-- The loop puts its weight on the diagonal, and the two nodes that no edge joins get a second eigenvalue of one. -/
theorem loop_on_diagonal : validateGovernanceGraph .error loopGraph = .ok () ∧ ¬AnalysisFacts loopGraph ∧
    ¬WeightsFacts exactOnly loopGraph ∧ fiedlerEigenvalue (analysisLaplacian loopGraph) loopGraph.nodes.keys.length = some 1 := by
  have valid : validateGovernanceGraph .error loopGraph = .ok () := by decide +kernel
  refine ⟨valid, fun facts => ?_, fun facts => ?_, by decide +kernel⟩
  · exact (analysisFacts_iff valid).1 facts _ (List.mem_singleton.2 rfl) rfl
  · have weight := (weightsFacts_iff exactOnly valid).1 facts _ (List.mem_singleton.2 rfl) rfl
    exact one_ne_zero weight

end

end ExactSpectral

end Legitimacy
