import Legitimacy.FloatIntegers
import Legitimacy.Node
import Mathlib.Algebra.BigOperators.Intervals
import Mathlib.Data.Rat.BigOperators
import Mathlib.Tactic.Positivity
import Mathlib.Tactic.Ring

namespace Legitimacy

namespace ExactSpectral

open FloatOrder Float.Model.UnpackedFloat

section

structure FloatApproximation where
  approximateFloat : Float → Option ℚ
  nonneg : ∀ value, ¬value < 0 → ∀ ratio ∈ approximateFloat value, 0 ≤ ratio

def saturateInt64 (value : Int) : Int := max (-(2 ^ 63)) (min value (2 ^ 63 - 1))

/-- `f64::round` and then `as i64`: halves go away from zero, and the range is saturated. -/
def roundAsInt64 (value : Float) : Int :=
  match value.toModel.unpack with
  | .notANumber => 0
  | .infinity sign => saturateInt64 (sign.apply (2 ^ 63))
  | .zero _ => 0
  | .finite sign mantissa exponent _ =>
    let magnitude := if 0 ≤ exponent then mantissa * 2 ^ exponent.toNat else (mantissa + 2 ^ (-exponent - 1).toNat) / 2 ^ (-exponent).toNat
    saturateInt64 (sign.apply magnitude)

/-- Minus one where `is_sign_negative` holds. -/
def signFactor (value : Float) : Int :=
  match signOf value.toModel.unpack with
  | some .negative => -1
  | _ => 1

/-- The loop over the denominators: the rounds that are left and the next denominator. -/
def searchDenominator (sign : Int) (value : Float) : Nat → Nat → Option ℚ
  | 0, _ => none
  | rounds + 1, denominator =>
    let scaled := value * Float.ofNat denominator
    let numerator := roundAsInt64 scaled
    if (scaled - Float.ofInt numerator).abs ≤ 1e-12 then some (((sign * numerator : Int) : ℚ) / denominator)
    else searchDenominator sign value rounds (denominator + 1)

def maxDenominator : Nat := 1000000

variable (approximation : FloatApproximation)

def rationalFromFloat (value : Float) : ℚ :=
  if ¬value.isFinite then 0
  else if value == 0 then 0
  else
    match searchDenominator (signFactor value) value.abs maxDenominator 1 with
    | some ratio => ratio
    | none => (approximation.approximateFloat (Float.ofInt (signFactor value) * value.abs)).getD 0

def edgeWeight : EdgeTransform → ℚ
  | .passThrough => 1
  | .claimModification delta => rationalFromFloat approximation delta.abs

def safeDiv (numerator denominator : ℚ) : ℚ := if denominator = 0 then 0 else numerator / denominator

theorem safeDiv_eq (numerator denominator : ℚ) : safeDiv numerator denominator = numerator / denominator := by
  unfold safeDiv
  split_ifs with none
  · rw [none, div_zero]
  · rfl

def absRatio (value : ℚ) : ℚ := if value < 0 then -value else value

theorem absRatio_eq (value : ℚ) : absRatio value = |value| := by
  unfold absRatio
  split_ifs with negative
  · exact (abs_of_neg negative).symm
  · exact (abs_of_nonneg (not_lt.1 negative)).symm

end

section

theorem saturateInt64_nonneg {value : Int} (nonneg : 0 ≤ value) : 0 ≤ saturateInt64 value := by
  unfold saturateInt64
  omega

theorem roundAsInt64_nonneg {value : Float} (unsigned : Unsigned value.toModel.unpack) : 0 ≤ roundAsInt64 value := by
  unfold roundAsInt64
  unfold Unsigned at unsigned
  cases form : value.toModel.unpack with
  | notANumber => exact le_rfl
  | zero => exact le_rfl
  | infinity sign => cases sign with
    | negative => exact absurd (by rw [form]; rfl) unsigned
    | positive => exact saturateInt64_nonneg (by decide)
  | finite sign mantissa exponent positive => cases sign with
    | negative => exact absurd (by rw [form]; rfl) unsigned
    | positive => exact saturateInt64_nonneg (Int.natCast_nonneg _)

theorem searchDenominator_nonneg {value : Float} (unsigned : Unsigned value.toModel.unpack) {rounds denominator : Nat} {ratio : ℚ}
    (found : searchDenominator 1 value rounds denominator = some ratio) : 0 ≤ ratio := by
  induction rounds generalizing denominator with
  | zero => cases found
  | succ rounds ih =>
    have scaled : Unsigned (value * Float.ofNat denominator).toModel.unpack := by
      rw [unpack_mul]
      exact (unsigned.mul (unsigned_ofNat denominator)).unpack_pack
    have numerator := roundAsInt64_nonneg scaled
    unfold searchDenominator at found
    dsimp only at found
    split_ifs at found with near
    · obtain rfl := Option.some.inj found
      rw [one_mul]
      have : (0 : ℚ) ≤ roundAsInt64 (value * Float.ofNat denominator) := by exact_mod_cast numerator
      positivity
    · exact ih found

theorem signFactor_eq_one {value : Float} (unsigned : Unsigned value.toModel.unpack) : signFactor value = 1 := by
  unfold signFactor
  unfold Unsigned at unsigned
  split
  · exact absurd ‹_› unsigned
  · rfl

variable (approximation : FloatApproximation)

theorem rationalFromFloat_nonneg {value : Float} (unsigned : Unsigned value.toModel.unpack) : 0 ≤ rationalFromFloat approximation value := by
  unfold rationalFromFloat
  rw [signFactor_eq_one unsigned]
  split_ifs
  · exact le_rfl
  · split
    · exact searchDenominator_nonneg (unsigned_abs value) ‹_›
    · cases approximated : approximation.approximateFloat (Float.ofInt 1 * value.abs) with
      | none => exact le_rfl
      | some ratio =>
        have product : Unsigned (Float.ofInt 1 * value.abs).toModel.unpack := by
          rw [unpack_mul]
          exact ((unsigned_ofNat 1).mul (unsigned_abs value)).unpack_pack
        exact approximation.nonneg _ product.not_lt_zero ratio approximated
  · exact le_rfl

theorem edgeWeight_nonneg (transform : EdgeTransform) : 0 ≤ edgeWeight approximation transform := by
  cases transform with
  | passThrough => exact zero_le_one
  | claimModification delta => exact rationalFromFloat_nonneg approximation (unsigned_abs delta)

end

section

variable {count : Nat}

theorem roundAsInt64_isCount {value : Float} (counts : IsCount value.toModel.unpack count) (small : count < 2 ^ 53) : roundAsInt64 value = count := by
  obtain ⟨bits, few, positive, form, above, below⟩ := counts
  unfold roundAsInt64
  rw [form]
  dsimp only
  have magnitude : (if (0 : Int) ≤ (bits : Int) - 52 then count * 2 ^ (52 - bits) * 2 ^ ((bits : Int) - 52).toNat
      else (count * 2 ^ (52 - bits) + 2 ^ (-((bits : Int) - 52) - 1).toNat) / 2 ^ (-((bits : Int) - 52)).toNat) = count := by
    split_ifs with large
    · have full : bits = 52 := by omega
      subst full
      simp
    · have half : (-((bits : Int) - 52) - 1).toNat = 51 - bits := by omega
      have whole : (-((bits : Int) - 52)).toNat = 52 - bits := by omega
      have less : 2 ^ (51 - bits) < 2 ^ (52 - bits) := Nat.pow_lt_pow_right (by decide) (by omega)
      rw [half, whole, Nat.add_comm, Nat.add_mul_div_right _ _ (Nat.two_pow_pos _), Nat.div_eq_of_lt less, Nat.zero_add]
  rw [magnitude]
  change saturateInt64 count = count
  unfold saturateInt64
  omega

theorem near_of_zero {value : Float} (zero : value.toModel.unpack = .zero .positive) : value.abs ≤ 1e-12 := by
  have magnitude : value.abs.toModel.unpack = .zero .positive := by
    change unpack .binary64 (pack .binary64 (abs value.toModel.unpack)) = _
    rw [zero]
    rfl
  change decide (value.abs.toModel ≤ (1e-12 : Float).toModel) = true
  rw [decide_eq_true_iff]
  change value.abs.toModel.unpack.le (1e-12 : Float).toModel.unpack = true
  rw [magnitude]
  decide +kernel

theorem searchDenominator_isCount {value : Float} (counts : IsCount value.toModel.unpack count) (positive : 0 < count) (small : count < 2 ^ 53)
    (rounds : Nat) : searchDenominator 1 value (rounds + 1) 1 = some count := by
  have scaled : IsCount (value * Float.ofNat 1).toModel.unpack count := by
    rw [unpack_mul, unpack_ofNat_one]
    exact counts.mul_one.unpack_pack
  have numerator := roundAsInt64_isCount scaled small
  have exactly : (value * Float.ofNat 1 - Float.ofInt count).toModel.unpack = .zero .positive := scaled.difference (isCount_ofNat positive small)
  unfold searchDenominator
  dsimp only
  rw [numerator, if_pos (near_of_zero exactly)]
  simp

variable (approximation : FloatApproximation)

theorem rationalFromFloat_isCount {value : Float} (counts : IsCount value.toModel.unpack count) (positive : 0 < count) (small : count < 2 ^ 53) :
    rationalFromFloat approximation value = count := by
  have magnitude := counts.abs_eq
  obtain ⟨bits, few, some, form, above, below⟩ := counts
  have finite : value.isFinite = true := by
    change value.toModel.unpack.isFinite = true
    rw [form]
    rfl
  have nonzero : (value == 0) = false := by
    change value.toModel.unpack.beq (.zero .positive) = false
    rw [form]
    rfl
  have sign : signFactor value = 1 := by
    unfold signFactor
    rw [form]
    rfl
  unfold rationalFromFloat
  rw [finite, nonzero, sign, maxDenominator, searchDenominator_isCount magnitude positive small]
  simp

end

section

abbrev Weights : Type := List (List ℚ)

def Weights.entry (weights : Weights) (row col : Nat) : ℚ := (((weights[row]?).getD [])[col]?).getD 0

def Weights.add (weights : Weights) (row col : Nat) (weight : ℚ) : Weights := weights.modify row fun values => values.modify col (· + weight)

def Weights.zero (count : Nat) : Weights := List.replicate count (List.replicate count 0)

/-- As many rows as nodes, each with as many entries. -/
def Weights.Square (weights : Weights) (count : Nat) : Prop := weights.length = count ∧ ∀ row ∈ weights, row.length = count

variable {weights : Weights} {count row col source target : Nat}

theorem Weights.square_zero : (Weights.zero count).Square count := by
  refine ⟨List.length_replicate, fun values member => ?_⟩
  rw [List.eq_of_mem_replicate member, List.length_replicate]

theorem Weights.entry_zero : (Weights.zero count).entry row col = 0 := by
  unfold entry zero
  rw [List.getElem?_replicate]
  split_ifs with inside
  · rw [Option.getD_some, List.getElem?_replicate]
    split_ifs <;> rfl
  · rfl

theorem Weights.Square.add (square : weights.Square count) (weight : ℚ) : (weights.add source target weight).Square count := by
  refine ⟨by rw [Weights.add, List.length_modify, square.1], fun values member => ?_⟩
  obtain ⟨place, atPlace⟩ := List.mem_iff_getElem?.1 member
  rw [Weights.add, List.getElem?_modify] at atPlace
  obtain ⟨before, found, rfl⟩ := Option.map_eq_some_iff.1 atPlace
  have length := square.2 before (List.mem_of_getElem? found)
  split_ifs
  · rw [List.length_modify, length]
  · exact length

theorem Weights.Square.entry_add (square : weights.Square count) (isRow : source < count) (isCol : target < count) (weight : ℚ) :
    (weights.add source target weight).entry row col = weights.entry row col + if source = row ∧ target = col then weight else 0 := by
  unfold Weights.entry Weights.add
  rw [List.getElem?_modify]
  by_cases sameRow : source = row
  · subst sameRow
    obtain ⟨values, found⟩ : ∃ values, weights[source]? = some values := ⟨_, List.getElem?_eq_getElem (square.1.symm ▸ isRow)⟩
    have length := square.2 values (List.mem_of_getElem? found)
    rw [found]
    simp only [Option.map_eq_map, Option.map_some, if_true, Option.getD_some, List.getElem?_modify, true_and]
    by_cases sameCol : target = col
    · subst sameCol
      rw [List.getElem?_eq_getElem (length.symm ▸ isCol)]
      simp
    · simp [sameCol]
  · simp [sameRow]

end

section

structure WeightedGovernanceGraph where
  nodeIds : List NodeId
  weights : Weights
  ascending : nodeIds.Pairwise fun left right => compare left right = .lt
  square : weights.Square nodeIds.length

variable (approximation : FloatApproximation)

def weighEdge (nodeIds : List NodeId) (weights : Weights) (edge : GovernanceEdge) : Weights :=
  match nodeIds.idxOf? edge.fromNode, nodeIds.idxOf? edge.toNode with
  | some left, some right =>
    let weight := edgeWeight approximation edge.transform
    (weights.add left right weight).add right left weight
  | _, _ => weights

theorem idxOf?_lt {nodeIds : List NodeId} {node : NodeId} {index : Nat} (found : nodeIds.idxOf? node = some index) : index < nodeIds.length :=
  (List.idxOf?_eq_some_iff.1 found).1

theorem Weights.Square.weighEdge {nodeIds : List NodeId} {weights : Weights} (square : weights.Square nodeIds.length) (edge : GovernanceEdge) :
    (ExactSpectral.weighEdge approximation nodeIds weights edge).Square nodeIds.length := by
  unfold ExactSpectral.weighEdge
  split
  · exact (square.add _).add _
  · exact square

theorem Weights.Square.weighEdges {nodeIds : List NodeId} (edges : List GovernanceEdge) {weights : Weights}
    (square : weights.Square nodeIds.length) : (edges.foldl (ExactSpectral.weighEdge approximation nodeIds) weights).Square nodeIds.length := by
  induction edges generalizing weights with
  | nil => exact square
  | cons edge rest ih => exact ih (square.weighEdge approximation edge)

def WeightedGovernanceGraph.fromGraph (graph : GovernanceGraph) : WeightedGovernanceGraph where
  nodeIds := graph.nodes.keys
  weights := graph.edges.foldl (weighEdge approximation graph.nodes.keys) (Weights.zero graph.nodes.keys.length)
  ascending := Std.ExtTreeMap.ordered_keys
  square := Weights.square_zero.weighEdges approximation graph.edges

def WeightedGovernanceGraph.nodeCount (weighted : WeightedGovernanceGraph) : Nat := weighted.nodeIds.length

theorem nodup_of_ascending {ids : List NodeId} (ascending : ids.Pairwise fun left right => compare left right = .lt) : ids.Nodup :=
  ascending.imp fun before same => by
    subst same
    rw [@Std.ReflCmp.compare_self _ compare] at before
    cases before

theorem WeightedGovernanceGraph.nodup (weighted : WeightedGovernanceGraph) : weighted.nodeIds.Nodup := nodup_of_ascending weighted.ascending

end

section

variable (approximation : FloatApproximation) {nodeIds : List NodeId} {row col : Nat}

theorem idxOf?_eq_some (distinct : nodeIds.Nodup) {node : NodeId} {index : Nat} :
    nodeIds.idxOf? node = some index ↔ nodeIds[index]? = some node := by
  rw [List.idxOf?_eq_some_iff, List.getElem?_eq_some_iff]
  refine exists_congr fun inside => ⟨And.left, fun same => ⟨same, fun other before also => ?_⟩⟩
  have := (distinct.getElem_inj_iff).1 (also.trans same.symm)
  omega

/-- In how many directions an edge goes from the node of the row to that of the column. -/
def joins (nodeIds : List NodeId) (edge : GovernanceEdge) (row col : Nat) : Nat :=
  (if nodeIds[row]? = some edge.fromNode ∧ nodeIds[col]? = some edge.toNode then 1 else 0) +
    if nodeIds[col]? = some edge.fromNode ∧ nodeIds[row]? = some edge.toNode then 1 else 0

theorem joins_comm (nodeIds : List NodeId) (edge : GovernanceEdge) (row col : Nat) : joins nodeIds edge row col = joins nodeIds edge col row :=
  Nat.add_comm _ _

theorem joins_of_places (distinct : nodeIds.Nodup) {edge : GovernanceEdge} {left right : Nat}
    (atFrom : nodeIds.idxOf? edge.fromNode = some left) (atTo : nodeIds.idxOf? edge.toNode = some right) :
    joins nodeIds edge row col = (if left = row ∧ right = col then 1 else 0) + if left = col ∧ right = row then 1 else 0 := by
  have isFrom : ∀ index : Nat, nodeIds[index]? = some edge.fromNode ↔ left = index := by
    intro index
    rw [← idxOf?_eq_some distinct, atFrom, Option.some.injEq]
  have isTo : ∀ index : Nat, nodeIds[index]? = some edge.toNode ↔ right = index := by
    intro index
    rw [← idxOf?_eq_some distinct, atTo, Option.some.injEq]
  simp only [joins, isFrom, isTo]

theorem joins_of_missing (distinct : nodeIds.Nodup) {edge : GovernanceEdge}
    (missing : ∀ left right, nodeIds.idxOf? edge.fromNode = some left → nodeIds.idxOf? edge.toNode = some right → False) :
    joins nodeIds edge row col = 0 := by
  have places : ∀ left right, ¬(nodeIds[left]? = some edge.fromNode ∧ nodeIds[right]? = some edge.toNode) := fun left right both =>
    missing left right ((idxOf?_eq_some distinct).2 both.1) ((idxOf?_eq_some distinct).2 both.2)
  rw [joins, if_neg (places row col), if_neg (places col row)]

theorem entry_weighEdge (distinct : nodeIds.Nodup) {weights : Weights} (square : weights.Square nodeIds.length) (edge : GovernanceEdge) :
    (weighEdge approximation nodeIds weights edge).entry row col =
      weights.entry row col + edgeWeight approximation edge.transform * joins nodeIds edge row col := by
  unfold weighEdge
  split
  next left right atFrom atTo =>
    rw [joins_of_places distinct atFrom atTo, (square.add _).entry_add (idxOf?_lt atTo) (idxOf?_lt atFrom),
      square.entry_add (idxOf?_lt atFrom) (idxOf?_lt atTo)]
    simp only [and_comm (a := right = row)]
    split_ifs <;> push_cast <;> ring
  next missing =>
    rw [joins_of_missing distinct missing]
    simp

theorem entry_weighEdges (distinct : nodeIds.Nodup) (edges : List GovernanceEdge) {weights : Weights} (square : weights.Square nodeIds.length) :
    (edges.foldl (weighEdge approximation nodeIds) weights).entry row col =
      weights.entry row col + (edges.map fun edge => edgeWeight approximation edge.transform * joins nodeIds edge row col).sum := by
  induction edges generalizing weights with
  | nil => simp
  | cons edge rest ih =>
    rw [List.foldl_cons, ih (square.weighEdge approximation edge), entry_weighEdge approximation distinct square, List.map_cons, List.sum_cons,
      add_assoc]

namespace WeightedGovernanceGraph

theorem fromGraph_entry (graph : GovernanceGraph) : (fromGraph approximation graph).weights.entry row col =
    (graph.edges.map fun edge => edgeWeight approximation edge.transform * joins graph.nodes.keys edge row col).sum := by
  have distinct := (fromGraph approximation graph).nodup
  refine (entry_weighEdges approximation distinct graph.edges Weights.square_zero).trans ?_
  rw [Weights.entry_zero, zero_add]
  rfl

theorem fromGraph_symm (graph : GovernanceGraph) :
    (fromGraph approximation graph).weights.entry row col = (fromGraph approximation graph).weights.entry col row := by
  simp only [fromGraph_entry, joins_comm _ _ row col]

theorem fromGraph_nonneg (graph : GovernanceGraph) : 0 ≤ (fromGraph approximation graph).weights.entry row col := by
  rw [fromGraph_entry]
  refine List.sum_nonneg fun share member => ?_
  obtain ⟨edge, -, rfl⟩ := List.mem_map.1 member
  exact mul_nonneg (edgeWeight_nonneg approximation edge.transform) (Nat.cast_nonneg _)

end WeightedGovernanceGraph

end

end ExactSpectral

end Legitimacy
