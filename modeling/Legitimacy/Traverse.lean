import Legitimacy.NodeEvaluation

namespace Legitimacy

structure TarjanState where
  index : Nat
  /-- The top of the stack comes first. -/
  stack : List NodeId
  onStack : BTreeMap NodeId Bool
  indices : BTreeMap NodeId Nat
  lowlinks : BTreeMap NodeId Nat
  cycles : List (List NodeId)

def TarjanState.initial : TarjanState := ⟨0, [], ∅, ∅, ∅, []⟩

def successors (graph : GovernanceGraph) (node : NodeId) : List NodeId :=
  sorted ((graph.edges.filter fun edge => edge.fromNode = node).map (·.toNode))

def hasSelfLoop (graph : GovernanceGraph) (node : NodeId) : Bool :=
  graph.edges.any fun edge => edge.fromNode = node ∧ edge.toNode = node

def TarjanState.enter (state : TarjanState) (node : NodeId) : TarjanState :=
  { state with
    index := state.index + 1
    stack := node :: state.stack
    onStack := state.onStack.insert node true
    indices := state.indices.insert node state.index
    lowlinks := state.lowlinks.insert node state.index }

def TarjanState.lookup (table : BTreeMap NodeId Nat) (node : NodeId) : Except LegitimacyError Nat :=
  match table[node]? with
  | some value => .ok value
  | none => .error (.invalidEdgeReference node.asStr)

def TarjanState.lower (state : TarjanState) (node : NodeId) (candidate : Nat) : Except LegitimacyError TarjanState := do
  let nodeLowlink ← lookup state.lowlinks node
  .ok { state with lowlinks := state.lowlinks.insert node (min nodeLowlink candidate) }

/-- Pops the stack down to and including `node`, in the order in which the nodes come off. -/
def popComponent (node : NodeId) : List NodeId → BTreeMap NodeId Bool → List NodeId × List NodeId × BTreeMap NodeId Bool
  | [], onStack => ([], [], onStack)
  | top :: rest, onStack =>
    if top = node then ([top], rest, onStack.insert top false)
    else
      let (component, stack, marks) := popComponent node rest (onStack.insert top false)
      (top :: component, stack, marks)

def TarjanState.leave (graph : GovernanceGraph) (state : TarjanState) (node : NodeId) : TarjanState :=
  if state.lowlinks[node]? = state.indices[node]? then
    let (component, stack, onStack) := popComponent node state.stack state.onStack
    { state with
      stack := stack
      onStack := onStack
      cycles := if component.length > 1 ∨ hasSelfLoop graph node then state.cycles ++ [sorted component] else state.cycles }
  else state

/-- Follows one edge of `node`: an unvisited successor is visited first, one on the stack may lower the link. -/
def visitSuccessor (connect : NodeId → TarjanState → Except LegitimacyError TarjanState) (node : NodeId) (state : TarjanState)
    (successor : NodeId) : Except LegitimacyError TarjanState :=
  if ¬state.indices.contains successor then do
    let state ← connect successor state
    let successorLowlink ← TarjanState.lookup state.lowlinks successor
    state.lower node successorLowlink
  else if (state.onStack[successor]?).getD false then do
    let successorIndex ← TarjanState.lookup state.indices successor
    state.lower node successorIndex
  else .ok state

def strongConnect (graph : GovernanceGraph) : Nat → NodeId → TarjanState → Except LegitimacyError TarjanState
  | 0, _, state => .ok state
  | fuel + 1, node, state => do
    let state ← (successors graph node).foldlM (visitSuccessor (strongConnect graph fuel) node) (state.enter node)
    .ok (state.leave graph node)

def visitRoot (graph : GovernanceGraph) (state : TarjanState) (node : NodeId) : Except LegitimacyError TarjanState :=
  if ¬state.indices.contains node then strongConnect graph (graph.nodes.size + graph.edges.length) node state else .ok state

def detectCycles (graph : GovernanceGraph) : Except LegitimacyError (List (List NodeId)) := do
  let state ← (sorted graph.nodes.keys).foldlM (visitRoot graph) TarjanState.initial
  .ok (sorted state.cycles)

structure TraversalState where
  queuedClaims : BTreeMap NodeId (List GovernanceClaim)
  finalDecisions : BTreeMap ClaimantId Decision
  /-- Present when the run captures the decisions of every node. -/
  nodeDecisions : Option (BTreeMap NodeId (List ClaimDecision))

structure TraversalResult where
  entryNodes : List NodeId
  nodeDecisions : BTreeMap NodeId (List ClaimDecision)
  finalDecisions : BTreeMap ClaimantId Decision
  cycles : List (List NodeId)

def incomingCounts (graph : GovernanceGraph) : BTreeMap NodeId Nat :=
  let counts : BTreeMap NodeId Nat := graph.nodes.keys.foldl (fun counts node => counts.insert node 0) ∅
  graph.edges.foldl (fun counts edge => counts.insert edge.toNode ((counts[edge.toNode]?).getD 0 + 1)) counts

def outgoingEdges (graph : GovernanceGraph) : BTreeMap NodeId (List GovernanceEdge) :=
  graph.edges.foldl (fun outgoing edge => outgoing.insert edge.fromNode ((outgoing[edge.fromNode]?).getD [] ++ [edge])) ∅

def entryNodes (graph : GovernanceGraph) : List NodeId :=
  graph.nodes.keys.filter fun node => ((incomingCounts graph)[node]?).getD 0 = 0

def cycleError (cycle : List NodeId) : LegitimacyError := .cycleError (cycle.map (·.asStr))

/-- Lowers the counts of the successors of a node and makes those that reach zero ready. -/
def releaseSuccessors (edges : List GovernanceEdge) (counts : BTreeMap NodeId Nat) (queue : BTreeSet NodeId) :
    Except LegitimacyError (BTreeMap NodeId Nat × BTreeSet NodeId) :=
  edges.foldlM (fun (counts, queue) edge =>
    match counts[edge.toNode]? with
    | none => .error (.invalidEdgeReference edge.toNode.asStr)
    | some count =>
      .ok (counts.insert edge.toNode (count - 1), if count - 1 = 0 then queue.insert edge.toNode else queue)) (counts, queue)

/-- Takes the least ready node until none is left; every turn takes a different node, and `fuel` bounds the turns. -/
def topologicalLoop (graph : GovernanceGraph) : Nat → BTreeMap NodeId Nat → BTreeSet NodeId → List NodeId →
    Except LegitimacyError (List NodeId)
  | 0, _, _, order => .ok order
  | fuel + 1, counts, queue, order =>
    match queue.toList.head? with
    | none => .ok order
    | some node => do
      let (counts, queue) ← releaseSuccessors (graph.edges.filter fun edge => edge.fromNode = node) counts (queue.erase node)
      topologicalLoop graph fuel counts queue (order ++ [node])

def topologicalOrder (graph : GovernanceGraph) (counts : BTreeMap NodeId Nat) : Except LegitimacyError (List NodeId) := do
  let ready := graph.nodes.keys.filter fun node => (counts[node]?).getD 0 = 0
  let queue : BTreeSet NodeId := ready.foldl (fun queue node => queue.insert node) ∅
  let order ← topologicalLoop graph (graph.nodes.size + graph.edges.length) counts queue []
  if order.length ≠ graph.nodes.size then
    match ← detectCycles graph with
    | cycle :: _ => .error (cycleError cycle)
    | [] => .ok order
  else .ok order

def mergeFinalDecision (left right : Decision) : Decision :=
  if decisionRank left ≤ decisionRank right then left else right

def recordFinalDecisions (finalDecisions : BTreeMap ClaimantId Decision) (decisions : List ClaimDecision) (hasOutgoing : Bool) :
    BTreeMap ClaimantId Decision :=
  decisions.foldl (fun finalDecisions decision =>
    if decision.decision = .escalate ∧ hasOutgoing then finalDecisions
    else match finalDecisions[decision.claimantId]? with
      | some existing => finalDecisions.insert decision.claimantId (mergeFinalDecision existing decision.decision)
      | none => finalDecisions.insert decision.claimantId decision.decision) finalDecisions

def forwardedClaims (claims : List GovernanceClaim) (decisions : List ClaimDecision) : List GovernanceClaim :=
  ((claims.zip decisions).filter fun (claim, decision) =>
    decision.claimantId = claim.claimantId ∧ decision.decision = .escalate).map (·.1)

def applyTransform (transform : EdgeTransform) (claims : List GovernanceClaim) (decisions : List ClaimDecision) :
    Except LegitimacyError (List GovernanceClaim) :=
  match transform with
  | .passThrough => .ok claims
  | .claimModification delta =>
    (claims.zip decisions).mapM fun (claim, decision) =>
      if decision.claimantId = claim.claimantId ∧ decision.decision = .permit then do
        let transformed := { claim with strength := claim.strength + delta }
        validateGovernanceClaim transformed
        .ok transformed
      else .ok claim

def claimIndices (incoming : List GovernanceClaim) : BTreeMap ClaimantId Nat :=
  incoming.zipIdx.foldl (fun merged (claim, index) => merged.insert claim.claimantId index) ∅

def appendClaim (node : NodeId) (feed : List GovernanceClaim × BTreeMap ClaimantId Nat) (claim : GovernanceClaim) :
    Except LegitimacyError (List GovernanceClaim × BTreeMap ClaimantId Nat) :=
  match feed.2[claim.claimantId]? with
  | some index =>
    -- every recorded index lies within the feed
    if ¬((feed.1[index]?).getD claim).sameAs claim then .error (.conflictingClaimFeed node.asStr claim.claimantId)
    else .ok feed
  | none => .ok (feed.1 ++ [claim], feed.2.insert claim.claimantId feed.1.length)

def mergeSharedClaimBatches (node : NodeId) (incoming additional : List GovernanceClaim) :
    Except LegitimacyError (List GovernanceClaim) := do
  let feed ← additional.foldlM (appendClaim node) (incoming, claimIndices incoming)
  .ok feed.1

def insertClaim (node : NodeId) (merged : BTreeMap ClaimantId GovernanceClaim) (claim : GovernanceClaim) :
    Except LegitimacyError (BTreeMap ClaimantId GovernanceClaim) :=
  match merged[claim.claimantId]? with
  | some existing =>
    if ¬existing.sameAs claim then .error (.conflictingClaimFeed node.asStr claim.claimantId) else .ok merged
  | none => .ok (merged.insert claim.claimantId claim)

def mergeClaimBatches (node : NodeId) (incoming additional : List GovernanceClaim) :
    Except LegitimacyError (List GovernanceClaim) := do
  let merged ← (incoming ++ additional).foldlM (insertClaim node) ∅
  .ok (merged.toList.map (·.2))

abbrev NodeEvaluator : Type := GovernanceNode → List GovernanceClaim → Except LegitimacyError (List ClaimDecision)

abbrev FeedMerger : Type := NodeId → List GovernanceClaim → List GovernanceClaim → Except LegitimacyError (List GovernanceClaim)

def followEdge (merge : FeedMerger) (forwarded : List GovernanceClaim) (decisions : List ClaimDecision)
    (queued : BTreeMap NodeId (List GovernanceClaim)) (edge : GovernanceEdge) :
    Except LegitimacyError (BTreeMap NodeId (List GovernanceClaim)) := do
  let transformed ← applyTransform edge.transform forwarded decisions
  let merged ← merge edge.toNode ((queued[edge.toNode]?).getD []) transformed
  .ok (queued.insert edge.toNode merged)

/-- One turn of the evaluation loop that the traversal shares with the order probes. -/
def visitNode (graph : GovernanceGraph) (evaluate : NodeEvaluator) (merge : FeedMerger) (state : TraversalState) (node : NodeId) :
    Except LegitimacyError TraversalState := do
  match graph.nodes[node]? with
  | none => .error (.invalidEdgeReference node.asStr)
  | some governanceNode => do
    let currentClaims := (state.queuedClaims[node]?).getD []
    let decisions ← evaluate governanceNode currentClaims
    let outgoing := ((outgoingEdges graph)[node]?).getD []
    let queuedClaims ← outgoing.foldlM (followEdge merge (forwardedClaims currentClaims decisions) decisions)
      (state.queuedClaims.erase node)
    .ok {
      queuedClaims := queuedClaims
      finalDecisions := recordFinalDecisions state.finalDecisions decisions (!outgoing.isEmpty)
      nodeDecisions := state.nodeDecisions.map fun captured => captured.insert node decisions }

def startState (graph : GovernanceGraph) (claims : List GovernanceClaim) (captureNodeDecisions : Bool) : TraversalState where
  queuedClaims := (entryNodes graph).foldl (fun queued node => queued.insert node claims) ∅
  finalDecisions := ∅
  nodeDecisions := if captureNodeDecisions then some ∅ else none

def traverseClaims (regexes : RegexEngine) (graph : GovernanceGraph) (claims : List GovernanceClaim) (captureNodeDecisions : Bool) :
    Except LegitimacyError (List NodeId × TraversalState) := do
  validateGovernanceClaims claims
  match ← detectCycles graph with
  | cycle :: _ => .error (cycleError cycle)
  | [] =>
    let entries := sorted (entryNodes graph)
    if graph.nodes.isEmpty ∨ entries = [] then .error .noEntryNodes
    else do
      let order ← topologicalOrder graph (incomingCounts graph)
      let final ← order.foldlM (visitNode graph (evaluateNodeValidated regexes) mergeSharedClaimBatches)
        (startState graph claims captureNodeDecisions)
      .ok (entries, final)

def traverseFinalDecisions (regexes : RegexEngine) (graph : GovernanceGraph) (claims : List GovernanceClaim) :
    Except LegitimacyError (BTreeMap ClaimantId Decision) := do
  let (_, final) ← traverseClaims regexes graph claims false
  .ok final.finalDecisions

def traverse (regexes : RegexEngine) (graph : GovernanceGraph) (claims : List GovernanceClaim) :
    Except LegitimacyError TraversalResult := do
  let (entries, final) ← traverseClaims regexes graph claims true
  .ok {
    entryNodes := entries
    nodeDecisions := final.nodeDecisions.getD ∅
    finalDecisions := final.finalDecisions
    cycles := [] }

end Legitimacy
