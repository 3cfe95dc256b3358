import Legitimacy.Error
import Legitimacy.ExceptRun
import Legitimacy.FloatText

namespace Legitimacy

abbrev ClaimantId : Type := String

/-- A node id is never blank. -/
structure NodeId where
  asStr : String
  nonBlank : isBlank asStr = false
deriving DecidableEq

instance : Ord NodeId := ⟨fun left right => compare left.asStr right.asStr⟩

instance : Std.TransOrd NodeId where
  eq_swap {left right} := @Std.OrientedCmp.eq_swap String compare _ left.asStr right.asStr
  isLE_trans {first second third} below above :=
    @Std.TransCmp.isLE_trans String compare _ first.asStr second.asStr third.asStr below above

instance : Std.LawfulEqOrd NodeId where
  eq_of_compare {left right} same := by
    have equal : left.asStr = right.asStr := @Std.LawfulEqCmp.eq_of_compare String compare _ left.asStr right.asStr same
    cases left
    cases right
    simp only at equal
    subst equal
    rfl

def NodeId.new (value : String) : Except LegitimacyError NodeId :=
  if blank : isBlank value = true then .error (.invalidNodeId value) else .ok ⟨value, by simpa using blank⟩

inductive Decision where
  | permit
  | deny
  | escalate
deriving DecidableEq

inductive Gate where
  | prefixMatch (pattern : String) (decision : Decision)
  | exactMatch (value : String) (decision : Decision)
  | contentMatch (regex : String) (decision : Decision)
  | thresholdGate (field : String) (min : Float) (decision : Decision)
  | peerRelative (field : String) (percentile : Float) (decision : Decision)
deriving BEq

inductive GateLogic where
  | allMustPass
  | anyMustPass
  | firstMatch
deriving BEq

structure GovernanceClaim where
  claimantId : ClaimantId
  strength : Float
  priorityClass : Option String
  path : Option String
  action : Option String
  content : Option String
  metrics : BTreeMap String Float

structure ClaimDecision where
  claimantId : ClaimantId
  decision : Decision
deriving DecidableEq

inductive DeclarativeRuleKind where
  | proportional
  | custom (name : String)
deriving BEq

inductive GovernanceNode where
  | binary (id : NodeId) (name : String) (gates : List Gate) (default : Decision) (combination : GateLogic)
  | proportional (id : NodeId) (name : String) (rule : DeclarativeRuleKind) (priorityClasses : List String)
  | threshold (id : NodeId) (name : String) (threshold : Float) (field : String)
deriving BEq

inductive EdgeTransform where
  | passThrough
  | claimModification (delta : Float)
deriving BEq

structure GovernanceEdge where
  fromNode : NodeId
  toNode : NodeId
  transform : EdgeTransform
deriving BEq

structure GovernanceGraph where
  nodes : BTreeMap NodeId GovernanceNode
  edges : List GovernanceEdge
deriving BEq

/-- The regex crate: a pattern compiles to a matcher or is refused with a reason. -/
abbrev RegexEngine : Type := String → Except String (String → Bool)

def nodeId : GovernanceNode → NodeId
  | .binary id .. => id
  | .proportional id .. => id
  | .threshold id .. => id

def nodeKind : GovernanceNode → String
  | .binary .. => "Binary"
  | .proportional .. => "Proportional"
  | .threshold .. => "Threshold"

def gateDecision : Gate → Decision
  | .prefixMatch _ decision => decision
  | .exactMatch _ decision => decision
  | .contentMatch _ decision => decision
  | .thresholdGate _ _ decision => decision
  | .peerRelative _ _ decision => decision

def decisionRank : Decision → Nat
  | .deny => 0
  | .escalate => 1
  | .permit => 2

theorem decisionRank_injective {left right : Decision} (same : decisionRank left = decisionRank right) : left = right := by
  cases left <;> cases right <;> first | rfl | exact absurd same (by decide)

/-- Equality of claims as derived in the source: numbers are compared by the IEEE rules. -/
def GovernanceClaim.sameAs (left right : GovernanceClaim) : Bool :=
  left.claimantId == right.claimantId && left.strength == right.strength && left.priorityClass == right.priorityClass &&
    left.path == right.path && left.action == right.action && left.content == right.content &&
    left.metrics.size == right.metrics.size &&
    (left.metrics.toList.zip right.metrics.toList).all fun (before, after) => before.1 == after.1 && before.2 == after.2

open ExceptRun

def validateMetric (claim : GovernanceClaim) (field : String) (value : Float) : Except LegitimacyError Unit :=
  if value.isFinite then .ok ()
  else .error (.invalidGate field
    ("claim '" ++ claim.claimantId ++ "' has non-finite metric value " ++ FloatText.display value))

def validateGovernanceClaim (claim : GovernanceClaim) : Except LegitimacyError Unit :=
  if isBlank claim.claimantId then .error (.invalidClaimantId claim.claimantId)
  else if ¬claim.strength.isFinite ∨ claim.strength ≤ 0 then
    .error (.invalidGovernanceStrength claim.claimantId claim.strength)
  else if claim.priorityClass.any isBlank then
    .error (.invalidInput ("claim '" ++ claim.claimantId ++ "' priority_class must be non-empty when provided"))
  else claim.metrics.toList.forM fun (field, value) => validateMetric claim field value

def validateUnseenClaims (seen : BTreeSet ClaimantId) : List GovernanceClaim → Except LegitimacyError Unit
  | [] => .ok ()
  | claim :: rest => do
    validateGovernanceClaim claim
    if seen.contains claim.claimantId then .error (.duplicateClaimantId claim.claimantId)
    else validateUnseenClaims (seen.insert claim.claimantId) rest

def validateGovernanceClaims (claims : List GovernanceClaim) : Except LegitimacyError Unit :=
  validateUnseenClaims ∅ claims

def validateGateString (gate value : String) : Except LegitimacyError Unit :=
  if isBlank value then .error (.invalidGate gate "value must be non-empty") else .ok ()

/-- The cache of compiled patterns is transparent: a pattern always compiles to the same matcher. -/
def cachedContentRegex (regexes : RegexEngine) (pattern : String) : Except LegitimacyError (String → Bool) :=
  match regexes pattern with
  | .ok compiled => .ok compiled
  | .error reason => .error (.invalidRegex pattern reason)

def validateGate (regexes : RegexEngine) : Gate → Except LegitimacyError Unit
  | .prefixMatch pattern _ => validateGateString "PrefixMatch" pattern
  | .exactMatch value _ => validateGateString "ExactMatch" value
  | .contentMatch regex _ => do
    validateGateString "ContentMatch" regex
    let _ ← cachedContentRegex regexes regex
    .ok ()
  | .thresholdGate field min _ => do
    validateGateString "ThresholdGate" field
    if min.isFinite then .ok () else .error (.invalidGate "ThresholdGate" "min must be finite")
  | .peerRelative field percentile _ => do
    validateGateString "PeerRelative" field
    if ¬percentile.isFinite ∨ ¬(0 ≤ percentile ∧ percentile ≤ 1) then
      .error (.invalidGate "PeerRelative" ("percentile must be within [0, 1], got " ++ FloatText.display percentile))
    else .ok ()

def validateGovernanceNode (regexes : RegexEngine) : GovernanceNode → Except LegitimacyError Unit
  | .binary _ _ gates _ _ => gates.forM (validateGate regexes)
  | .proportional _ _ _ priorityClasses =>
    if priorityClasses.any isBlank then .error (.invalidInput "priority classes must be non-empty") else .ok ()
  | .threshold _ _ threshold field =>
    if ¬threshold.isFinite then .error (.invalidInput "threshold values must be finite")
    else if isBlank field then .error (.invalidInput "threshold field must be non-empty")
    else .ok ()

def validateNodeEntry (regexes : RegexEngine) (key : NodeId) (node : GovernanceNode) : Except LegitimacyError Unit :=
  if key ≠ nodeId node then
    .error (.invalidInput ("graph node map key '" ++ key.asStr ++ "' does not match embedded node id '" ++
      (nodeId node).asStr ++ "'"))
  else validateGovernanceNode regexes node

def validateTransform : EdgeTransform → Except LegitimacyError Unit
  | .passThrough => .ok ()
  | .claimModification delta =>
    if delta.isFinite then .ok ()
    else .error (.invalidInput ("claim-modification delta must be finite, got " ++ FloatText.display delta))

def validateEdge (graph : GovernanceGraph) (edge : GovernanceEdge) : Except LegitimacyError Unit :=
  if ¬graph.nodes.contains edge.fromNode then .error (.invalidEdgeReference edge.fromNode.asStr)
  else if ¬graph.nodes.contains edge.toNode then .error (.invalidEdgeReference edge.toNode.asStr)
  else validateTransform edge.transform

def validateGovernanceGraph (regexes : RegexEngine) (graph : GovernanceGraph) : Except LegitimacyError Unit := do
  graph.nodes.toList.forM fun (key, node) => validateNodeEntry regexes key node
  graph.edges.forM (validateEdge graph)

theorem validateUnseenClaims_eq_ok {seen : BTreeSet ClaimantId} {claims : List GovernanceClaim} :
    validateUnseenClaims seen claims = .ok () ↔
      (∀ claim ∈ claims, validateGovernanceClaim claim = .ok ()) ∧ (claims.map (·.claimantId)).Nodup ∧
        ∀ claim ∈ claims, claim.claimantId ∉ seen := by
  induction claims generalizing seen with
  | nil => simp [validateUnseenClaims]
  | cons claim rest ih =>
    unfold validateUnseenClaims
    rw [bind_eq_ok]
    simp only [guard_eq_ok, ih, List.map_cons, List.nodup_cons, List.forall_mem_cons, Std.ExtTreeSet.mem_insert,
      Std.ExtTreeSet.contains_iff_mem, List.mem_map]
    constructor
    · rintro ⟨⟨⟩, valid, fresh, restValid, distinct, unseen⟩
      refine ⟨⟨valid, restValid⟩, ⟨?_, distinct⟩, fresh, ?_⟩
      · rintro ⟨other, member, same⟩
        exact unseen other member (Or.inl (by simp [same]))
      · intro other member inSeen
        exact unseen other member (Or.inr inSeen)
    · rintro ⟨⟨valid, restValid⟩, ⟨outside, distinct⟩, fresh, unseen⟩
      refine ⟨(), valid, fresh, restValid, distinct, ?_⟩
      rintro other member (same | inSeen)
      · exact outside ⟨other, member, (Std.LawfulEqCmp.eq_of_compare same).symm⟩
      · exact unseen other member inSeen

theorem validateGovernanceClaims_eq_ok {claims : List GovernanceClaim} :
    validateGovernanceClaims claims = .ok () ↔
      (∀ claim ∈ claims, validateGovernanceClaim claim = .ok ()) ∧ (claims.map (·.claimantId)).Nodup := by
  unfold validateGovernanceClaims
  rw [validateUnseenClaims_eq_ok]
  simp

theorem validateGovernanceClaims_of_subset {claims cohort : List GovernanceClaim} (valid : validateGovernanceClaims claims = .ok ())
    (subset : cohort ⊆ claims) (distinct : (cohort.map (·.claimantId)).Nodup) : validateGovernanceClaims cohort = .ok () := by
  rw [validateGovernanceClaims_eq_ok] at valid ⊢
  exact ⟨fun claim member => valid.1 claim (subset member), distinct⟩

theorem validateGovernanceGraph_eq_ok {regexes : RegexEngine} {graph : GovernanceGraph} :
    validateGovernanceGraph regexes graph = .ok () ↔
      (∀ key node, graph.nodes[key]? = some node → validateNodeEntry regexes key node = .ok ()) ∧
        ∀ edge ∈ graph.edges, validateEdge graph edge = .ok () := by
  unfold validateGovernanceGraph
  rw [bind_eq_ok]
  constructor
  · rintro ⟨⟨⟩, nodes, edges⟩
    refine ⟨fun key node found => ?_, forM_eq_ok.1 edges⟩
    exact forM_eq_ok.1 nodes (key, node) (Std.ExtTreeMap.mem_toList_iff_getElem?_eq_some.2 found)
  · rintro ⟨nodes, edges⟩
    refine ⟨(), forM_eq_ok.2 ?_, forM_eq_ok.2 edges⟩
    rintro ⟨key, node⟩ member
    exact nodes key node (Std.ExtTreeMap.mem_toList_iff_getElem?_eq_some.1 member)

theorem edge_endpoints_of_valid {regexes : RegexEngine} {graph : GovernanceGraph} (valid : validateGovernanceGraph regexes graph = .ok ())
    {edge : GovernanceEdge} (member : edge ∈ graph.edges) : edge.fromNode ∈ graph.nodes ∧ edge.toNode ∈ graph.nodes := by
  have checked := (validateGovernanceGraph_eq_ok.1 valid).2 edge member
  unfold validateEdge at checked
  rw [guard_eq_ok, guard_eq_ok] at checked
  exact ⟨by simpa using checked.1, by simpa using checked.2.1⟩

end Legitimacy
