import Legitimacy.Node

namespace Legitimacy

open ExceptRun

structure GraphMetaSpec where
  name : String
  version : String

structure GateSpec where
  gateType : String
  pattern : Option String
  value : Option String
  regex : Option String
  field : Option String
  min : Option Float
  percentile : Option Float
  decision : String

structure NodeSpec where
  id : String
  nodeType : String
  default : Option String
  combination : Option String
  gates : List GateSpec
  threshold : Option Float
  field : Option String
  name : Option String

/-- The source's `from` and `to` are the nodes that an edge joins. -/
structure EdgeSpec where
  fromNode : String
  toNode : String
  transform : String
  delta : Option Float

/-- A graph policy as it is read from its TOML text. -/
structure GraphPolicySpec where
  graph : GraphMetaSpec
  nodes : List NodeSpec
  edges : List EdgeSpec

section

structure GraphBuilder where
  nodes : BTreeMap NodeId GovernanceNode
  edges : List GovernanceEdge

def GraphBuilder.new : GraphBuilder := ⟨∅, []⟩

def GraphBuilder.addNode (regexes : RegexEngine) (builder : GraphBuilder) (node : GovernanceNode) : Except LegitimacyError GraphBuilder := do
  validateGovernanceNode regexes node
  if builder.nodes.contains (nodeId node) then .error (.duplicateNodeId (nodeId node).asStr)
  else .ok { builder with nodes := builder.nodes.insert (nodeId node) node }

def GovernanceEdge.new (fromNode toNode : NodeId) (transform : EdgeTransform) : Except LegitimacyError GovernanceEdge := do
  validateTransform transform
  .ok ⟨fromNode, toNode, transform⟩

def GraphBuilder.addEdge (builder : GraphBuilder) (fromNode toNode : NodeId) (transform : EdgeTransform) :
    Except LegitimacyError GraphBuilder := do
  let edge ← GovernanceEdge.new fromNode toNode transform
  .ok { builder with edges := builder.edges ++ [edge] }

def GraphBuilder.checkEnds (builder : GraphBuilder) (edge : GovernanceEdge) : Except LegitimacyError Unit :=
  if ¬builder.nodes.contains edge.fromNode then .error (.invalidEdgeReference edge.fromNode.asStr)
  else if ¬builder.nodes.contains edge.toNode then .error (.invalidEdgeReference edge.toNode.asStr)
  else .ok ⟨⟩

def GraphBuilder.build (builder : GraphBuilder) : Except LegitimacyError GovernanceGraph := do
  builder.edges.forM builder.checkEnds
  .ok ⟨builder.nodes, builder.edges⟩

end

section

variable (context : String)

def validateNodeIds (seenIds : BTreeSet String) : List NodeSpec → Except LegitimacyError (BTreeSet String)
  | [] => .ok seenIds
  | node :: rest =>
    if isBlank node.id then .error (.invalidPolicy context "node id must not be empty")
    else if seenIds.contains node.id then .error (.invalidPolicy context s!"duplicate node id '{node.id}'")
    else validateNodeIds (seenIds.insert node.id) rest

def validateEdgeEnds (seenIds : BTreeSet String) (edge : EdgeSpec) : Except LegitimacyError Unit :=
  if ¬seenIds.contains edge.fromNode then
    .error (.invalidPolicy context s!"edge from='{edge.fromNode}' references undeclared node")
  else if ¬seenIds.contains edge.toNode then
    .error (.invalidPolicy context s!"edge to='{edge.toNode}' references undeclared node")
  else .ok ⟨⟩

def validateGraphSpec (spec : GraphPolicySpec) : Except LegitimacyError Unit := do
  if isBlank spec.graph.name then .error (.invalidPolicy context "graph.name must not be empty")
  else if isBlank spec.graph.version then .error (.invalidPolicy context "graph.version must not be empty")
  else
    let seenIds ← validateNodeIds context ∅ spec.nodes
    spec.edges.forM (validateEdgeEnds context seenIds)

def compileDecision (text : String) : Except LegitimacyError Decision :=
  if text = "permit" then .ok .permit
  else if text = "deny" then .ok .deny
  else if text = "escalate" then .ok .escalate
  else .error (.invalidPolicy context s!"unknown decision '{text}'; expected permit, deny, or escalate")

def compileGateLogic (text : String) : Except LegitimacyError GateLogic :=
  if text = "first_match" then .ok .firstMatch
  else if text = "all_must_pass" then .ok .allMustPass
  else if text = "any_must_pass" then .ok .anyMustPass
  else .error (.invalidPolicy context s!"unknown combination '{text}'; expected first_match, all_must_pass, or any_must_pass")

def requiredPart {α : Type} (message : String) (part : Option α) : Except LegitimacyError α :=
  part.elim (.error (.invalidPolicy context message)) .ok

def compileGate (spec : GateSpec) : Except LegitimacyError Gate := do
  let decision ← compileDecision context spec.decision
  if spec.gateType = "prefix_match" then
    let pattern ← requiredPart context "prefix_match gate requires 'pattern'" spec.pattern
    .ok (.prefixMatch pattern decision)
  else if spec.gateType = "exact_match" then
    let value ← requiredPart context "exact_match gate requires 'value'" spec.value
    .ok (.exactMatch value decision)
  else if spec.gateType = "content_match" then
    let regex ← requiredPart context "content_match gate requires 'regex'" spec.regex
    .ok (.contentMatch regex decision)
  else if spec.gateType = "threshold_gate" then
    let field ← requiredPart context "threshold_gate requires 'field'" spec.field
    let min ← requiredPart context "threshold_gate requires 'min'" spec.min
    .ok (.thresholdGate field min decision)
  else if spec.gateType = "peer_relative" then
    let field ← requiredPart context "peer_relative gate requires 'field'" spec.field
    let percentile ← requiredPart context "peer_relative gate requires 'percentile'" spec.percentile
    .ok (.peerRelative field percentile decision)
  else
    .error (.invalidPolicy context (s!"unsupported gate type '{spec.gateType}'; expected prefix_match, exact_match, content_match, " ++
      "threshold_gate, or peer_relative"))

def compileBinaryNode (id : NodeId) (name : String) (spec : NodeSpec) : Except LegitimacyError GovernanceNode := do
  let default ← compileDecision context (spec.default.getD "deny")
  let combination ← compileGateLogic context (spec.combination.getD "first_match")
  let gates ← spec.gates.mapM (compileGate context)
  .ok (.binary id name gates default combination)

def compileThresholdNode (id : NodeId) (name : String) (spec : NodeSpec) : Except LegitimacyError GovernanceNode := do
  let threshold ← requiredPart context s!"threshold node '{spec.id}' requires 'threshold' field" spec.threshold
  let field ← requiredPart context s!"threshold node '{spec.id}' requires 'field'" spec.field
  if isBlank field then .error (.invalidPolicy context s!"threshold node '{spec.id}' field must not be empty")
  else .ok (.threshold id name threshold field)

def policyNodeId (value : String) : Except LegitimacyError NodeId :=
  (NodeId.new value).mapError fun _ => .invalidPolicy context s!"node ids must be non-empty, got '{value}'"

def compileNode (spec : NodeSpec) : Except LegitimacyError GovernanceNode := do
  let id ← policyNodeId context spec.id
  let name := spec.name.getD spec.id
  if spec.nodeType = "binary" then compileBinaryNode context id name spec
  else if spec.nodeType = "threshold" then compileThresholdNode context id name spec
  else .error (.invalidPolicy context s!"unsupported node type '{spec.nodeType}'; expected 'binary' or 'threshold'")

def compileTransform (spec : EdgeSpec) : Except LegitimacyError EdgeTransform := do
  if spec.transform = "pass_through" then .ok .passThrough
  else if spec.transform = "claim_modification" then
    let delta ← requiredPart context "claim_modification requires 'delta'" spec.delta
    if ¬delta.isFinite then
      .error (.invalidPolicy context ("claim_modification delta must be finite, got " ++ FloatText.display delta))
    else .ok (.claimModification delta)
  else
    .error (.invalidPolicy context s!"unknown transform '{spec.transform}'; expected pass_through or claim_modification")

def addNodeSpec (regexes : RegexEngine) (builder : GraphBuilder) (spec : NodeSpec) : Except LegitimacyError GraphBuilder := do
  let node ← compileNode context spec
  builder.addNode regexes node

def addEdgeSpec (builder : GraphBuilder) (spec : EdgeSpec) : Except LegitimacyError GraphBuilder := do
  let fromNode ← policyNodeId context spec.fromNode
  let toNode ← policyNodeId context spec.toNode
  let transform ← compileTransform context spec
  builder.addEdge fromNode toNode transform

def GraphPolicySpec.tryIntoGraph (regexes : RegexEngine) (spec : GraphPolicySpec) : Except LegitimacyError GovernanceGraph := do
  validateGraphSpec context spec
  let builder ← spec.nodes.foldlM (addNodeSpec context regexes) .new
  let builder ← spec.edges.foldlM (addEdgeSpec context) builder
  builder.build

end

/-- What the builder has accepted so far: valid nodes under their own ids and edges with valid transforms. -/
structure GraphBuilder.Sound (regexes : RegexEngine) (builder : GraphBuilder) : Prop where
  nodes : ∀ (key : NodeId) (node : GovernanceNode), builder.nodes[key]? = some node →
    key = nodeId node ∧ validateGovernanceNode regexes node = .ok ⟨⟩
  transforms : ∀ edge ∈ builder.edges, validateTransform edge.transform = .ok ⟨⟩

section

variable {context : String} {regexes : RegexEngine} {builder next : GraphBuilder}

theorem GraphBuilder.new_sound : GraphBuilder.new.Sound regexes := ⟨by simp [GraphBuilder.new], by simp [GraphBuilder.new]⟩

theorem GraphBuilder.Sound.addNode (sound : builder.Sound regexes) {node : GovernanceNode} (run : builder.addNode regexes node = .ok next) :
    next.Sound regexes := by
  obtain ⟨⟨⟩, valid, run⟩ := bind_eq_ok.1 run
  obtain ⟨-, made⟩ := guard_eq_ok.1 run
  obtain rfl := Except.ok.inj made
  refine ⟨fun key other found => ?_, sound.transforms⟩
  rw [lookup_insert] at found
  by_cases same : key = nodeId node
  · rw [if_pos same] at found
    obtain rfl := Option.some.inj found
    exact ⟨same, valid⟩
  · rw [if_neg same] at found
    exact sound.nodes key other found

theorem GraphBuilder.Sound.addEdge (sound : builder.Sound regexes) {fromNode toNode : NodeId} {transform : EdgeTransform}
    (run : builder.addEdge fromNode toNode transform = .ok next) : next.Sound regexes := by
  obtain ⟨edge, created, made⟩ := bind_eq_ok.1 run
  obtain ⟨⟨⟩, valid, atEdge⟩ := bind_eq_ok.1 created
  obtain rfl := Except.ok.inj atEdge
  obtain rfl := Except.ok.inj made
  refine ⟨sound.nodes, fun other member => ?_⟩
  rcases List.mem_append.1 member with earlier | last
  · exact sound.transforms other earlier
  · obtain rfl := List.mem_singleton.1 last
    exact valid

theorem GraphBuilder.Sound.build (sound : builder.Sound regexes) {graph : GovernanceGraph} (run : builder.build = .ok graph) :
    validateGovernanceGraph regexes graph = .ok ⟨⟩ := by
  obtain ⟨⟨⟩, ends, made⟩ := bind_eq_ok.1 run
  obtain rfl := Except.ok.inj made
  refine validateGovernanceGraph_eq_ok.2 ⟨fun key node found => ?_, fun edge member => ?_⟩
  · obtain ⟨same, valid⟩ := sound.nodes key node found
    exact guard_eq_ok.2 ⟨not_not.2 same, valid⟩
  · obtain ⟨source, run⟩ := guard_eq_ok.1 (forM_eq_ok.1 ends edge member)
    obtain ⟨target, -⟩ := guard_eq_ok.1 run
    exact guard_eq_ok.2 ⟨source, guard_eq_ok.2 ⟨target, sound.transforms edge member⟩⟩

end

end Legitimacy
