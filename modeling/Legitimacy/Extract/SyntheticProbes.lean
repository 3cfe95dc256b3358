import Legitimacy.Extract.GraphAudit
import Legitimacy.FloatIntegers
import Mathlib.Data.List.Flatten

namespace Legitimacy.Extract

open ExceptRun FloatOrder
open Diagnostics (polarityFor auditMetricPolaritySchema)
open Protocol (Perturbable)

section

/-- A metric that can be raised and lowered by one. -/
structure Movable (value : Float) : Prop where
  finite : value.isFinite = true
  raised : (value + 1).isFinite = true
  lowered : (value + -1).isFinite = true

theorem movable_of_positive {value : Float} (finite : value.isFinite = true) (positive : ¬value ≤ 0) : Movable value := by
  have one : Normal (1 : Float).toModel.unpack (-1074) 900 :=
    ⟨2 ^ 52, -52, by decide, rfl, by decide, by decide, by decide, by decide⟩
  have opposite : (-1 : Float).toModel.unpack = .finite .negative (2 ^ 52) (-52) (by decide) := rfl
  exact ⟨finite, (add_in_range finite positive one).1, add_opposite_isFinite finite positive opposite⟩

theorem movable_zero : Movable 0 := ⟨by decide, by decide, by decide⟩

theorem movable_one : Movable 1 := ⟨by decide, by decide, by decide⟩

theorem movable_ranked {index : Nat} (small : index < 2 ^ 64) : Movable (10 + index.toFloat) := by
  rcases Nat.eq_zero_or_pos index with rfl | some
  · exact ⟨by decide, by decide, by decide⟩
  · have normal : Normal index.toFloat.toModel.unpack (-1074) 900 := (ofNat_normal some small).mono (by decide) (by decide)
    obtain ⟨finite, positive⟩ := @add_in_range 10 index.toFloat (by decide) (by decide) normal
    exact movable_of_positive finite positive

def probeStrength (index : Nat) : Float := 1 + index.toFloat * 0.05

theorem probeStrength_normal {index : Nat} (small : index < 2 ^ 64) : Normal (probeStrength index).toModel.unpack (-57) 12 := by
  have one : Normal (1 : Float).toModel.unpack (-52) (-52) := ⟨2 ^ 52, -52, by decide, rfl, by decide, by decide, by decide, by decide⟩
  rcases Nat.eq_zero_or_pos index with rfl | some
  · have start : probeStrength 0 = 1 := by decide
    rw [start]
    exact one.mono (by decide) (by decide)
  · have twentieth : Normal (0.05 : Float).toModel.unpack (-57) (-57) :=
      ⟨7205759403792794, -57, by decide, rfl, by decide, by decide, by decide, by decide⟩
    have product : Normal (index.toFloat * 0.05).toModel.unpack (-57) 10 := by
      have exact := mul_normal (ofNat_normal some small) twentieth (by decide)
      rw [unpack_mul]
      exact (exact.unpack_pack (by decide) (by decide)).symm ▸ exact.mono (by decide) (by decide)
    have sum := add_normal one product (by decide) (by decide)
    unfold probeStrength
    rw [unpack_add, sum.unpack_pack (by decide) (by decide)]
    exact sum.mono (by decide) (by decide)

theorem probeStrength_valid {index : Nat} (small : index < 2 ^ 64) : ValidStrength (probeStrength index) :=
  ⟨(probeStrength_normal small).positive.1, (probeStrength_normal small).positive.2.1⟩

theorem factor_normal {factor : Float} (listed : factor ∈ misreportFactors) : Normal factor.toModel.unpack (-53) (-51) := by
  simp only [misreportFactors, List.mem_cons, List.not_mem_nil, or_false] at listed
  rcases listed with rfl | rfl | rfl | rfl | rfl
  · exact ⟨2 ^ 52, -53, by decide, rfl, by decide, by decide, by decide, by decide⟩
  · exact ⟨7205759403792794, -53, by decide, rfl, by decide, by decide, by decide, by decide⟩
  · exact ⟨5404319552844595, -52, by decide, rfl, by decide, by decide, by decide, by decide⟩
  · exact ⟨6755399441055744, -52, by decide, rfl, by decide, by decide, by decide, by decide⟩
  · exact ⟨2 ^ 52, -51, by decide, rfl, by decide, by decide, by decide, by decide⟩

theorem probeStrength_misreported {index : Nat} (small : index < 2 ^ 64) {factor : Float} (listed : factor ∈ misreportFactors) :
    ValidStrength (probeStrength index * factor) := by
  have product := mul_normal (probeStrength_normal small) (factor_normal listed) (by decide)
  have normal : Normal (probeStrength index * factor).toModel.unpack (-58) 15 := by
    rw [unpack_mul, product.unpack_pack (by decide) (by decide)]
    exact product
  exact ⟨normal.positive.1, normal.positive.2.1⟩

theorem probeStrength_raised {index : Nat} (small : index < 2 ^ 64) : ValidStrength (probeStrength index + 0.1) := by
  have tenth : Normal (0.1 : Float).toModel.unpack (-1074) 900 :=
    ⟨7205759403792794, -56, by decide, rfl, by decide, by decide, by decide, by decide⟩
  have valid := probeStrength_valid small
  exact add_in_range valid.1 valid.2 tenth

end

section

theorem no_gap {front gap digits : List Char} (ends : (front ++ gap).getLast? = some '-')
    (numeric : ∀ character ∈ gap ++ digits, character.isDigit = true) : gap = [] := by
  by_contra some
  rw [List.getLast?_append_of_ne_nil _ some] at ends
  have dash := numeric '-' (List.mem_append_left digits (List.mem_of_getLast? ends))
  exact absurd dash (by decide)

theorem split_number {front other digits numerals : List Char} (ends : front.getLast? = some '-') (otherEnds : other.getLast? = some '-')
    (numeric : ∀ character ∈ digits, character.isDigit = true) (otherNumeric : ∀ character ∈ numerals, character.isDigit = true)
    (same : front ++ digits = other ++ numerals) : front = other ∧ digits = numerals := by
  rcases List.append_eq_append_iff.1 same with ⟨gap, rfl, rfl⟩ | ⟨gap, rfl, rfl⟩
  · obtain rfl := no_gap otherEnds numeric
    simp
  · obtain rfl := no_gap ends otherNumeric
    simp

def probeId (node : GovernanceNode) (index : Nat) : String := (nodeId node).asStr ++ "-gate-" ++ toString index

theorem probeId_toList (node : GovernanceNode) (index : Nat) :
    (probeId node index).toList = ((nodeId node).asStr.toList ++ "-gate-".toList) ++ Nat.toDigits 10 index := by
  unfold probeId
  rw [String.toList_append, String.toList_append]
  exact congrArg _ Nat.toList_repr

theorem numeric_digits (index : Nat) : ∀ character ∈ Nat.toDigits 10 index, character.isDigit = true :=
  fun _ listed => Nat.isDigit_of_mem_toDigits (by decide) (by decide) listed

theorem probeId_injective {node other : GovernanceNode} {index place : Nat} (same : probeId node index = probeId other place) :
    nodeId node = nodeId other ∧ index = place := by
  have texts := congrArg String.toList same
  rw [probeId_toList, probeId_toList] at texts
  have dashed : ∀ name : List Char, (name ++ "-gate-".toList).getLast? = some '-' := fun name => by
    rw [List.getLast?_append_of_ne_nil _ (by decide)]
    decide
  obtain ⟨fronts, digits⟩ := split_number (dashed _) (dashed _) (numeric_digits index) (numeric_digits place) texts
  refine ⟨?_, Nat.repr_injective (String.toList_injective (by rw [Nat.toList_repr, Nat.toList_repr, digits]))⟩
  exact Protocol.NodeId.ext_asStr (String.toList_injective (List.append_cancel_right fronts))

theorem probeId_ne_baseline (node : GovernanceNode) (index : Nat) : probeId node index ≠ "baseline" := by
  intro same
  have texts := congrArg (fun text : String => text.toList.getLast?) same
  simp only [probeId_toList] at texts
  rw [List.getLast?_append_of_ne_nil _ Nat.toDigits_ne_nil] at texts
  have last := numeric_digits index 'e' (List.mem_of_getLast? (texts.trans (by decide)))
  exact absurd last (by decide)

theorem probeId_named (node : GovernanceNode) (index : Nat) : isBlank (probeId node index) = false := by
  unfold isBlank
  rw [probeId_toList, List.all_append, List.all_append]
  simp [isWhitespace]

end

section

variable {graph : GovernanceGraph} {claim : GovernanceClaim} {field : String}

def GateReads (graph : GovernanceGraph) (field : String) : Prop :=
  ∃ (key : NodeId) (node : GovernanceNode), graph.nodes[key]? = some node ∧ ∃ gate ∈ nodeGates node, gateMetricField gate = some field

def probeFields (graph : GovernanceGraph) : List String := allMetricFieldsForNodes graph (sorted graph.nodes.keys)

theorem mem_probeNodes {node : GovernanceNode} :
    node ∈ (sorted graph.nodes.keys).filterMap (fun id => graph.nodes[id]?) ↔ ∃ key : NodeId, graph.nodes[key]? = some node := by
  rw [List.mem_filterMap]
  constructor
  · exact fun ⟨key, _, found⟩ => ⟨key, found⟩
  · exact fun ⟨key, found⟩ => ⟨key, mem_sorted.2 (Std.ExtTreeMap.mem_keys.2 (mem_iff_lookup.2 ⟨node, found⟩)), found⟩

theorem mem_probeFields : field ∈ probeFields graph ↔ GateReads graph field := by
  unfold probeFields allMetricFieldsForNodes
  rw [Std.ExtTreeSet.mem_toList, ← Std.ExtTreeSet.contains_iff_mem, @contains_foldl_insert String String _ _ _ (fun field => field)]
  simp only [Std.ExtTreeSet.contains_empty, Bool.false_eq_true, false_or, exists_eq_right, GateReads]
  rw [List.mem_flatMap]
  constructor
  · rintro ⟨node, inGraph, gates⟩
    obtain ⟨key, found⟩ := mem_probeNodes.1 inGraph
    exact ⟨key, node, found, List.mem_filterMap.1 gates⟩
  · rintro ⟨key, node, found, gates⟩
    exact ⟨node, mem_probeNodes.2 ⟨key, found⟩, List.mem_filterMap.2 gates⟩

def gateProbe (graph : GovernanceGraph) (node : GovernanceNode) (entry : Gate × Nat) : GovernanceClaim :=
  claimForGate (probeId node entry.2) entry.1 (probeFields graph) entry.2

def nodeProbes (graph : GovernanceGraph) (node : GovernanceNode) : List GovernanceClaim :=
  (nodeGates node).zipIdx.map (gateProbe graph node)

theorem syntheticClaims_perm (graph : GovernanceGraph) : (syntheticClaims graph).Perm (baselineClaim (probeFields graph) ::
    ((sorted graph.nodes.keys).filterMap fun id => graph.nodes[id]?).flatMap (nodeProbes graph)) :=
  List.perm_insertionSort _ _

theorem mem_syntheticClaims : claim ∈ syntheticClaims graph ↔ claim = baselineClaim (probeFields graph) ∨
    ∃ (key : NodeId) (node : GovernanceNode), graph.nodes[key]? = some node ∧
      ∃ gate index, (nodeGates node)[index]? = some gate ∧ claim = gateProbe graph node (gate, index) := by
  rw [(syntheticClaims_perm graph).mem_iff, List.mem_cons]
  refine or_congr_right ?_
  simp only [List.mem_flatMap, mem_probeNodes, nodeProbes, List.mem_map, Prod.exists, List.mk_mem_zipIdx_iff_getElem?, eq_comm]
  constructor
  · rintro ⟨node, ⟨key, found⟩, gate, index, listed, same⟩
    exact ⟨key, node, found, gate, index, listed, same⟩
  · rintro ⟨key, node, found, gate, index, listed, same⟩
    exact ⟨node, ⟨key, found⟩, gate, index, listed, same⟩

theorem syntheticClaims_distinct {regexes : RegexEngine} (valid : validateGovernanceGraph regexes graph = .ok ()) :
    ((syntheticClaims graph).map (·.claimantId)).Nodup := by
  have keyed := (validateGovernanceGraph_iff.1 valid).1
  have named : ∀ node entry, (gateProbe graph node entry).claimantId = probeId node entry.2 := by
    rintro node ⟨gate, index⟩
    cases gate <;> rfl
  have ids : ∀ node, (nodeProbes graph node).map (·.claimantId) = (nodeGates node).zipIdx.map fun entry => probeId node entry.2 := by
    intro node
    unfold nodeProbes
    rw [List.map_map]
    exact List.map_congr_left fun entry _ => named node entry
  rw [((syntheticClaims_perm graph).map _).nodup_iff, List.map_cons, List.map_flatMap, List.nodup_cons]
  simp only [ids]
  constructor
  · intro listed
    obtain ⟨node, -, probes⟩ := List.mem_flatMap.1 listed
    obtain ⟨entry, -, same⟩ := List.mem_map.1 probes
    exact probeId_ne_baseline node entry.2 same
  · refine List.nodup_flatMap.2 ⟨fun node _ => ?_, ?_⟩
    · have indices : ((nodeGates node).zipIdx.map Prod.snd).Nodup := by
        rw [List.zipIdx_map_snd]
        exact List.nodup_range' 1
      have injective : Function.Injective (probeId node) := fun index place same => (probeId_injective same).2
      have mapped := indices.map injective
      rwa [List.map_map] at mapped
    · have distinct : (sorted graph.nodes.keys).Nodup := (sorted_perm _).nodup_iff.2 Std.ExtTreeMap.nodup_keys
      rw [List.pairwise_filterMap]
      refine distinct.imp_of_mem fun {key other} _ _ apart node atKey same atOther => ?_
      refine List.disjoint_left.2 ?_
      intro id inFirst inSecond
      obtain ⟨entry, -, rfl⟩ := List.mem_map.1 inFirst
      obtain ⟨place, -, equal⟩ := List.mem_map.1 inSecond
      exact apart ((keyed key node atKey).1.trans ((probeId_injective equal).1.symm.trans (keyed other same atOther).1.symm))

end

section

variable {graph : GovernanceGraph} {fields : List String} {field : String} {value : Float}

theorem baselineClaim_metrics : (baselineClaim fields).metrics[field]? = if field ∈ fields then some 0 else none := by
  have folded : ∀ (fields : List String) (metrics : BTreeMap String Float),
      (fields.foldl (fun metrics field => metrics.insert field 0) metrics)[field]? = if field ∈ fields then some 0 else metrics[field]? := by
    intro fields
    induction fields with
    | nil => intro metrics; rfl
    | cons first rest ih =>
      intro metrics
      rw [List.foldl_cons, ih, lookup_insert]
      by_cases later : field ∈ rest
      · simp [later]
      · simp [later]
  rw [baselineClaim, folded, Std.ExtTreeMap.getElem?_empty]

theorem insert_cases {metrics : BTreeMap String Float} {motive : String → Float → Prop}
    (old : ∀ (field : String) (value : Float), metrics[field]? = some value → motive field value) {key : String} {added : Float}
    (new : motive key added) : ∀ (field : String) (value : Float), (metrics.insert key added)[field]? = some value → motive field value := by
  intro field value found
  rw [lookup_insert] at found
  split at found
  · next same =>
    obtain rfl := Option.some.inj found
    exact same ▸ new
  · exact old field value found

/-- A probe carries the fields of the gates, the field of its own gate and the signal of a decision. -/
structure ProbeMetric (fields : List String) (gate : Gate) (field : String) (value : Float) : Prop where
  movable : Movable value
  origin : field ∈ fields ∨ gateMetricField gate = some field ∨ ∃ decision, field = decisionMetric decision

theorem claimForGate_metrics {regexes : RegexEngine} {gate : Gate} (valid : validateGate regexes gate = .ok ()) (id : String) {index : Nat}
    (small : index < 2 ^ 64) : ∀ (field : String) (value : Float), (claimForGate id gate fields index).metrics[field]? = some value →
      ProbeMetric fields gate field value := by
  have start : ∀ (field : String) (value : Float), (baselineClaim fields).metrics[field]? = some value → ProbeMetric fields gate field value := by
    intro field value found
    rw [baselineClaim_metrics] at found
    split at found
    · next listed => exact ⟨Option.some.inj found ▸ movable_zero, .inl listed⟩
    · cases found
  have signal : ∀ decision, ProbeMetric fields gate (decisionMetric decision) 1 := fun decision => ⟨movable_one, .inr (.inr ⟨decision, rfl⟩)⟩
  cases gate with
  | prefixMatch pattern decision => exact insert_cases start (signal decision)
  | exactMatch value decision => exact insert_cases start (signal decision)
  | contentMatch regex decision => exact insert_cases start (signal decision)
  | thresholdGate key min decision =>
    refine insert_cases (insert_cases start ⟨?_, .inr (.inl rfl)⟩) (signal decision)
    obtain ⟨⟨⟩, -, bounded⟩ := bind_eq_ok.1 valid
    have finite := check_eq_ok.1 bounded
    split
    · exact movable_one
    · next positive => exact movable_of_positive finite positive
  | peerRelative key percentile decision =>
    exact insert_cases (insert_cases start ⟨movable_ranked small, .inr (.inl rfl)⟩) (signal decision)

theorem claimForGate_provides (id : String) (gate : Gate) (index : Nat) (listed : field ∈ fields) :
    field ∈ (claimForGate id gate fields index).metrics := by
  have start : field ∈ (baselineClaim fields).metrics := mem_iff_lookup.2 ⟨0, baselineClaim_metrics.trans (if_pos listed)⟩
  have kept : ∀ {metrics : BTreeMap String Float} (key : String) (value : Float), field ∈ metrics → field ∈ metrics.insert key value :=
    fun key value known => Std.ExtTreeMap.mem_insert.2 (.inr known)
  cases gate with
  | prefixMatch => exact kept _ _ start
  | exactMatch => exact kept _ _ start
  | contentMatch => exact kept _ _ start
  | thresholdGate => exact kept _ _ (kept _ _ start)
  | peerRelative => exact kept _ _ (kept _ _ start)

end

section

variable {regexes : RegexEngine} {graph : GovernanceGraph} {claim : GovernanceClaim} {field : String}

structure IsProbe (graph : GovernanceGraph) (claim : GovernanceClaim) : Prop where
  named : isBlank claim.claimantId = false
  classed : claim.priorityClass = some "extracted"
  strength : ∃ index < 2 ^ 64, claim.strength = probeStrength index
  metrics : ∀ (field : String) (value : Float), claim.metrics[field]? = some value →
    Movable value ∧ (GateReads graph field ∨ ∃ decision, field = decisionMetric decision)
  provides : ∀ field, GateReads graph field → field ∈ claim.metrics

theorem length_nodeGates_le {key : NodeId} {node : GovernanceNode} (found : graph.nodes[key]? = some node) :
    (nodeGates node).length ≤ (syntheticClaims graph).length := by
  have part := List.Sublist.flatMap (List.singleton_sublist.2 (mem_probeNodes.2 ⟨key, found⟩)) (nodeProbes graph)
  have shorter := part.length_le
  rw [List.flatMap_singleton, nodeProbes, List.length_map, List.length_zipIdx] at shorter
  rw [(syntheticClaims_perm graph).length_eq, List.length_cons]
  omega

theorem isProbe_of_listed (valid : validateGovernanceGraph regexes graph = .ok ()) (countable : (syntheticClaims graph).length < 2 ^ 64)
    (listed : claim ∈ syntheticClaims graph) : IsProbe graph claim := by
  rcases mem_syntheticClaims.1 listed with rfl | ⟨key, node, found, gate, index, atIndex, rfl⟩
  · have start : (1 : Float) = probeStrength 0 := by decide
    refine ⟨show isBlank "baseline" = false by decide, rfl, ⟨0, by decide, start⟩, fun field value found => ?_, fun field reads => ?_⟩
    · rw [baselineClaim_metrics] at found
      split at found
      · next known => exact ⟨Option.some.inj found ▸ movable_zero, .inl (mem_probeFields.1 known)⟩
      · cases found
    · exact mem_iff_lookup.2 ⟨0, baselineClaim_metrics.trans (if_pos (mem_probeFields.2 reads))⟩
  · have small : index < 2 ^ 64 := by
      have bound := (List.getElem?_eq_some_iff.1 atIndex).1
      have fits := length_nodeGates_le found
      omega
    have inNode : gate ∈ nodeGates node := List.mem_of_getElem? atIndex
    have validGate : validateGate regexes gate = .ok () := by
      have checked := ((validateGovernanceGraph_iff.1 valid).1 key node found).2
      cases node with
      | binary => exact forM_eq_ok.1 checked gate inNode
      | threshold => cases inNode
      | proportional => cases inNode
    have shape : (gateProbe graph node (gate, index)).claimantId = probeId node index ∧
        (gateProbe graph node (gate, index)).priorityClass = some "extracted" ∧
        (gateProbe graph node (gate, index)).strength = probeStrength index := by
      cases gate <;> exact ⟨rfl, rfl, rfl⟩
    obtain ⟨sameId, classed, strength⟩ := shape
    refine ⟨sameId ▸ probeId_named node index, classed, ⟨index, small, strength⟩, fun field value atField => ?_, fun field reads => ?_⟩
    · have carried := claimForGate_metrics validGate (probeId node index) small field value atField
      refine ⟨carried.movable, ?_⟩
      rcases carried.origin with known | own | signal
      · exact .inl (mem_probeFields.1 known)
      · exact .inl ⟨key, node, found, gate, inNode, own⟩
      · exact .inr signal
    · exact claimForGate_provides _ gate index (mem_probeFields.2 reads)

theorem IsProbe.valid (probe : IsProbe graph claim) : validateGovernanceClaim claim = .ok () := by
  obtain ⟨index, small, strength⟩ := probe.strength
  refine validateGovernanceClaim_iff.2 ⟨probe.named, strength ▸ probeStrength_valid small, ?_, fun field value found => ?_⟩
  · rw [probe.classed]
    decide
  · exact (probe.metrics field value found).1.finite

theorem IsProbe.perturbable (probe : IsProbe graph claim) : Perturbable claim := by
  obtain ⟨index, small, strength⟩ := probe.strength
  refine ⟨strength ▸ probeStrength_raised small, fun factor listed => strength ▸ probeStrength_misreported small listed, ?_⟩
  rintro ⟨field, value⟩ listed
  have movable := (probe.metrics field value (Std.ExtTreeMap.mem_toList_iff_getElem?_eq_some.1 listed)).1
  exact ⟨movable.raised, movable.lowered⟩

/-- Every threshold node reads the strength or a field that some gate reads. -/
def ThresholdsCovered (graph : GovernanceGraph) : Prop :=
  ∀ (key id : NodeId) (name : String) (threshold : Float) (field : String), graph.nodes[key]? = some (.threshold id name threshold field) →
    field = "strength" ∨ GateReads graph field

theorem metricsProvided_iff (valid : validateGovernanceGraph regexes graph = .ok ()) (countable : (syntheticClaims graph).length < 2 ^ 64) :
    graph.MetricsProvided (syntheticClaims graph) ↔ ThresholdsCovered graph := by
  constructor
  · intro provided key id name threshold field found
    have baseline : baselineClaim (probeFields graph) ∈ syntheticClaims graph := mem_syntheticClaims.2 (.inl rfl)
    refine (provided key _ found field List.mem_cons_self _ baseline).imp_right fun known => ?_
    obtain ⟨value, atField⟩ := mem_iff_lookup.1 known
    rw [baselineClaim_metrics] at atField
    split at atField
    · next listed => exact mem_probeFields.1 listed
    · cases atField
  · intro covered key node found field reads claim listed
    have probe := isProbe_of_listed valid countable listed
    cases node with
    | binary id name gates default logic =>
      obtain ⟨gate, inNode, isField⟩ := List.mem_flatMap.1 reads
      have own : gateMetricField gate = some field := by
        cases gate with
        | thresholdGate => exact congrArg some (List.mem_singleton.1 isField).symm
        | peerRelative => exact congrArg some (List.mem_singleton.1 isField).symm
        | _ => cases isField
      exact .inr (probe.provides field ⟨key, _, found, gate, inNode, own⟩)
    | threshold id name threshold own =>
      obtain rfl := List.mem_singleton.1 reads
      exact (covered key id name threshold field found).imp_right (probe.provides field)
    | proportional => cases reads

/-- A gate reads the field, and the polarity schema of the monotonicity check has no entry for it. -/
def Unannotated (graph : GovernanceGraph) (field : String) : Prop :=
  GateReads graph field ∧ polarityFor auditMetricPolaritySchema field = none

theorem unannotated_of_refused (valid : validateGovernanceGraph regexes graph = .ok ()) (countable : (syntheticClaims graph).length < 2 ^ 64)
    {delta : BinaryDelta} (listed : delta ∈ Protocol.graphDeltas (syntheticClaims graph))
    (unknown : polarityFor auditMetricPolaritySchema delta.field = none) : Unannotated graph delta.field := by
  obtain ⟨field, known, rfl⟩ := List.mem_map.1 listed
  refine ⟨?_, unknown⟩
  rcases Protocol.mem_graphFields.1 known with rfl | ⟨claim, inClaims, metric⟩
  · cases Protocol.strength_polarity.symm.trans unknown
  obtain ⟨value, atField⟩ := mem_iff_lookup.1 metric
  rcases ((isProbe_of_listed valid countable inClaims).metrics field value atField).2 with reads | ⟨decision, rfl⟩
  · exact reads
  · cases decision <;> exact absurd unknown (by decide)

end

/-- The synthetic claims of a graph are distinct and valid, provide what its nodes read and traverse it; an audit with them stops at the
polarity schema alone, and a declaration there, at the limits of the determinacy probe, or at a sacrifice of what is not violated. -/
structure ProbesEvaluate (host : Protocol.ProtocolHost) (graph : GovernanceGraph) : Prop where
  distinct : ((syntheticClaims graph).map (·.claimantId)).Nodup
  accepted : validateGovernanceClaims (syntheticClaims graph) = .ok ()
  provided : graph.MetricsProvided (syntheticClaims graph)
  traversed : ∃ result, traverse host.regexes graph (syntheticClaims graph) = .ok result
  audited : ∀ failure, auditGovernanceGraph host.regexes graph (syntheticClaims graph) .syntheticStructuralProbe = .error failure →
    ∃ field, Unannotated graph field ∧ failure = Diagnostics.missingPolarity field
  declared : ∀ sacrifices timestamp failure, Protocol.declare host graph sacrifices (.ok timestamp) = .error failure →
    (∃ field, Unannotated graph field ∧ failure = .verdict (Diagnostics.missingPolarity field)) ∨
    (graph.BeyondProbe ∧ ∃ reason, failure = .skippedKernelCheck "graph observable determinacy" reason) ∨
    ∃ sacrifice ∈ sacrifices, failure = .phantomSacrifice sacrifice.property.asStr

theorem declare_of_evaluated {host : Protocol.ProtocolHost} {graph : GovernanceGraph} {evaluation : Protocol.GraphEvaluation}
    (evaluated : Protocol.evaluateGraph host.regexes graph (syntheticClaims graph) = .ok evaluation) {sacrifices : List Protocol.DeclaredSacrifice}
    {timestamp : String} {failure : Protocol.ProtocolError} (run : Protocol.declare host graph sacrifices (.ok timestamp) = .error failure) :
    ∃ sacrifice ∈ sacrifices, failure = .phantomSacrifice sacrifice.property.asStr := by
  unfold Protocol.declare Protocol.declareWithMetadata at run
  simp only [evaluated, bind, Except.bind] at run
  split at run
  · next lapse checked =>
    obtain rfl := Except.error.inj run
    clear run
    induction sacrifices with
    | nil => cases checked
    | cons sacrifice rest ih =>
      rw [show ∀ check : Protocol.DeclaredSacrifice → Except Protocol.ProtocolError Unit,
        (sacrifice :: rest).forM check = (check sacrifice >>= fun _ => rest.forM check) from fun _ => rfl] at checked
      by_cases violated : evaluation.violations.contains sacrifice.property.asStr = true
      · rw [if_pos violated] at checked
        obtain ⟨other, listed, same⟩ := ih checked
        exact ⟨other, List.mem_cons_of_mem sacrifice listed, same⟩
      · rw [if_neg violated] at checked
        exact ⟨sacrifice, List.mem_cons_self, (Except.error.inj checked).symm⟩
  · cases run

/-- The synthetic claims of a valid acyclic graph without proportional nodes do all that is asked of them exactly when each threshold
node reads the strength or a field that also some gate reads. -/
theorem probes_evaluate_iff (host : Protocol.ProtocolHost) (graph : GovernanceGraph) (valid : validateGovernanceGraph host.regexes graph = .ok ())
    (nonempty : graph.nodes.isEmpty = false) (acyclic : graph.Acyclic) (plain : graph.Plain)
    (countable : (syntheticClaims graph).length < 2 ^ 64) : ProbesEvaluate host graph ↔ ThresholdsCovered graph := by
  constructor
  · exact fun evaluates => (metricsProvided_iff valid countable).1 evaluates.provided
  intro covered
  have probes := fun claim (listed : claim ∈ syntheticClaims graph) => isProbe_of_listed valid countable listed
  have distinct := syntheticClaims_distinct valid
  have accepted := validateGovernanceClaims_eq_ok.2 ⟨fun claim listed => (probes claim listed).valid, distinct⟩
  have provided := (metricsProvided_iff valid countable).2 covered
  have runnable : graph.Runnable host.regexes := ⟨⟨nonempty, acyclic, valid⟩, plain⟩
  have admits : graph.Admits (syntheticClaims graph) := ⟨accepted, provided⟩
  have perturbable := fun claim (listed : claim ∈ syntheticClaims graph) => (probes claim listed).perturbable
  obtain ⟨result, traversed, -⟩ := runnable.traverses admits
  refine ⟨distinct, accepted, provided, ⟨result, traversed⟩, fun failure audited => ?_, fun sacrifices timestamp failure declared => ?_⟩
  · rcases @auditGovernanceGraph_ends _ _ _ runnable admits perturbable countable .syntheticStructuralProbe (by decide) with
      ⟨report, done⟩ | ⟨delta, listed, unknown, refused⟩
    · cases done.symm.trans audited
    · exact ⟨delta.field, unannotated_of_refused valid countable listed unknown, Except.error.inj (audited.symm.trans refused)⟩
  · rcases Protocol.evaluateGraph_ends runnable admits perturbable countable with
      ⟨evaluation, evaluated⟩ | ⟨delta, listed, unknown, refused⟩ | ⟨beyond, reason, skipped⟩
    · exact .inr (.inr (declare_of_evaluated evaluated declared))
    · unfold Protocol.declare Protocol.declareWithMetadata at declared
      simp only [refused, bind, Except.bind] at declared
      exact .inl ⟨delta.field, unannotated_of_refused valid countable listed unknown, (Except.error.inj declared).symm⟩
    · unfold Protocol.declare Protocol.declareWithMetadata at declared
      simp only [skipped, bind, Except.bind] at declared
      exact .inr (.inl ⟨beyond, reason, (Except.error.inj declared).symm⟩)

def budgetGraph : GovernanceGraph where
  nodes := Std.ExtTreeMap.ofList [(⟨"budget", by decide⟩, .threshold ⟨"budget", by decide⟩ "budget" 1 "budget")] compare
  edges := []

theorem probes_evaluate_iff_solo : ProbesEvaluate Protocol.plainHost (Protocol.strengthGraph 1 .permit .deny) ↔
    ThresholdsCovered (Protocol.strengthGraph 1 .permit .deny) :=
  probes_evaluate_iff Protocol.plainHost _ (by decide) (by decide) (acyclic_of_ascending (by simp [Protocol.strengthGraph]))
    (plain_of_toList (by decide)) (by decide)

/-- A metric that only a threshold node reads is not among those of the probes, and neither the traversal nor the audit nor the
declaration gets past it. -/
theorem budget_probes_fail : validateGovernanceGraph Protocol.plainHost.regexes budgetGraph = .ok () ∧ budgetGraph.Acyclic ∧ budgetGraph.Plain ∧
    (traverse Protocol.plainHost.regexes budgetGraph (syntheticClaims budgetGraph)).toBool = false ∧
    (auditGovernanceGraph Protocol.plainHost.regexes budgetGraph (syntheticClaims budgetGraph) .syntheticStructuralProbe).toBool = false ∧
    (Protocol.declare Protocol.plainHost budgetGraph [] (.ok "2026-01-01T00:00:00Z")).toBool = false :=
  ⟨by decide, acyclic_of_ascending (by simp [budgetGraph]), plain_of_toList (by decide), by decide, by decide +kernel, by decide +kernel⟩

end Legitimacy.Extract
