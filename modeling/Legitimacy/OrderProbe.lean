import Legitimacy.Allocation
import Legitimacy.Traverse

namespace Legitimacy

inductive KernelAxiom where
  | certifiable
  | observable
  | corrigible
  | compositionalSafety
  | nonVacuous

def KernelAxiom.graphAxiomName : KernelAxiom → String
  | .certifiable => "graph certifiability"
  | .observable => "graph observable determinacy"
  | .corrigible => "graph corrigibility"
  | .compositionalSafety => "graph compositional safety"
  | .nonVacuous => "graph nonvacuity"

inductive AxiomVerdict where
  | pass (kernelAxiom : KernelAxiom) (perturbationsTested : Nat)
  | fail (kernelAxiom : KernelAxiom) (reason : String) (witness : Counterexample)
  | skipped (kernelAxiom : KernelAxiom) (reason : String)

def AxiomVerdict.isFail : AxiomVerdict → Bool
  | .fail .. => true
  | _ => false

def Decision.debug : Decision → String
  | .permit => "Permit"
  | .deny => "Deny"
  | .escalate => "Escalate"

def decisionAllocationRank : Decision → Float
  | .deny => 0
  | .escalate => 1
  | .permit => 2

def convertGovernanceClaims (claims : List GovernanceClaim) : Except LegitimacyError (List Claim) :=
  claims.mapM fun claim => do
    let converted ← Claim.new claim.claimantId claim.strength
    .ok (claim.metrics.toList.foldl (fun converted (field, value) => converted.withMetric field value) converted)

def decisionAllocation (claims : List GovernanceClaim) (decisions : BTreeMap ClaimantId Decision) :
    Except LegitimacyError ValidAllocation := do
  let allocation : Allocation := claims.foldl (fun allocation claim =>
    allocation.insert claim.claimantId (decisionAllocationRank ((decisions[claim.claimantId]?).getD .escalate))) ∅
  let converted ← convertGovernanceClaims claims
  ValidAllocation.new allocation converted

def formatOrder (order : List NodeId) : String := " -> ".intercalate (order.map (·.asStr))

/-- Numbers the nodes of an order; a node met before is a repetition. -/
def recordPosition (graph : GovernanceGraph) (positions : BTreeMap NodeId Nat) (entry : NodeId × Nat) :
    Except LegitimacyError (BTreeMap NodeId Nat) :=
  if ¬graph.nodes.contains entry.1 then .error (.invalidEdgeReference entry.1.asStr)
  else if positions.contains entry.1 then
    .error (.invalidInput ("node '" ++ entry.1.asStr ++ "' appears more than once in evaluation order"))
  else .ok (positions.insert entry.1 entry.2)

def checkEdgeOrder (order : List NodeId) (positions : BTreeMap NodeId Nat) (edge : GovernanceEdge) : Except LegitimacyError Unit :=
  match positions[edge.fromNode]?, positions[edge.toNode]? with
  | none, _ => .error (.invalidEdgeReference edge.fromNode.asStr)
  | some _, none => .error (.invalidEdgeReference edge.toNode.asStr)
  | some source, some target =>
    if source ≥ target then
      .error (.invalidInput ("order " ++ formatOrder order ++ " violates edge " ++ edge.fromNode.asStr ++ " -> " ++
        edge.toNode.asStr))
    else .ok ()

def validateTopologicalOrder (graph : GovernanceGraph) (order : List NodeId) : Except LegitimacyError Unit :=
  if order.length ≠ graph.nodes.size then
    .error (.invalidInput "topological order must include every node exactly once")
  else do
    let positions ← order.zipIdx.foldlM (recordPosition graph) ∅
    graph.edges.forM (checkEdgeOrder order positions)

inductive TieBreak where
  | ascending
  | descending

/-- Takes the first or the last of the sorted ready nodes. -/
def TieBreak.take (tiebreak : TieBreak) (ready : List NodeId) : Option (NodeId × List NodeId) :=
  match tiebreak with
  | .ascending => match sorted ready with
    | [] => none
    | first :: rest => some (first, rest)
  | .descending => match (sorted ready).reverse with
    | [] => none
    | last :: rest => some (last, rest.reverse)

/-- Lowers the counts behind a node and appends what becomes ready. -/
def releaseReady (edges : List GovernanceEdge) (counts : BTreeMap NodeId Nat) (ready : List NodeId) :
    Except LegitimacyError (BTreeMap NodeId Nat × List NodeId) :=
  edges.foldlM (fun (counts, ready) edge =>
    match counts[edge.toNode]? with
    | none => .error (.invalidEdgeReference edge.toNode.asStr)
    | some remaining =>
      .ok (counts.insert edge.toNode (remaining - 1), if remaining - 1 = 0 then ready ++ [edge.toNode] else ready)) (counts, ready)

def readyLoop (graph : GovernanceGraph) (tiebreak : TieBreak) : Nat → BTreeMap NodeId Nat → List NodeId → List NodeId →
    Except LegitimacyError (List NodeId)
  | 0, _, _, order => .ok order
  | fuel + 1, counts, ready, order =>
    match tiebreak.take ready with
    | none => .ok order
    | some (node, ready) => do
      let (counts, ready) ← releaseReady (graph.edges.filter fun edge => edge.fromNode = node) counts ready
      readyLoop graph tiebreak fuel counts ready (order ++ [node])

def readyOrder (graph : GovernanceGraph) (tiebreak : TieBreak) : Except LegitimacyError (List NodeId) :=
  readyLoop graph tiebreak (graph.nodes.size + graph.edges.length) (incomingCounts graph) (entryNodes graph) []

def firstCycleError (graph : GovernanceGraph) : Except LegitimacyError LegitimacyError := do
  let cycles ← detectCycles graph
  .ok (cycleError (cycles.head?.getD []))

def evaluateAlong (regexes : RegexEngine) (graph : GovernanceGraph) (claims : List GovernanceClaim) (order : List NodeId) :
    Except LegitimacyError (BTreeMap ClaimantId Decision) := do
  let final ← order.foldlM (visitNode graph (evaluateNode regexes) mergeClaimBatches) (startState graph claims false)
  .ok final.finalDecisions

def claimantIds (claims : List GovernanceClaim) : List ClaimantId :=
  (claims.foldl (fun ids claim => ids.insert claim.claimantId) (∅ : BTreeSet ClaimantId)).toList

def firstDifference (left right : BTreeMap ClaimantId Decision) (claims : List GovernanceClaim) :
    Option (ClaimantId × Decision × Decision) :=
  (claimantIds claims).findSome? fun claimantId =>
    let first := (left[claimantId]?).getD .escalate
    let second := (right[claimantId]?).getD .escalate
    if first ≠ second then some (claimantId, first, second) else none

namespace Observable

def exhaustiveObservableOrderLimit : Nat := 100000

def exhaustiveObservableNodeLimit : Nat := 10

def evaluateWithOrder (regexes : RegexEngine) (graph : GovernanceGraph) (claims : List GovernanceClaim) (order : List NodeId) :
    Except LegitimacyError (BTreeMap ClaimantId Decision) := do
  validateTopologicalOrder graph order
  if graph.nodes.isEmpty ∨ entryNodes graph = [] then .error .noEntryNodes else evaluateAlong regexes graph claims order

def topologicalOrder (graph : GovernanceGraph) : Except LegitimacyError (List NodeId) := do
  let order ← readyOrder graph .ascending
  validateTopologicalOrder graph order
  .ok order

def countBranches (limit : Nat) (branch : NodeId → Except LegitimacyError Nat) : List NodeId → Nat → Except LegitimacyError Nat
  | [], total => .ok total
  | node :: rest, total => do
    let found ← branch node
    if total + found > limit then .ok (total + found) else countBranches limit branch rest (total + found)

def countOrders (graph : GovernanceGraph) (limit : Nat) : Nat → BTreeMap NodeId Nat → BTreeSet NodeId → Except LegitimacyError Nat
  | 0, _, _ => .ok 1
  | remaining + 1, incoming, ready =>
    if ready.isEmpty then do
      let failure ← firstCycleError graph
      .error failure
    else countBranches limit (fun node => do
      let (incoming, ready) ← releaseSuccessors (graph.edges.filter fun edge => edge.fromNode = node) incoming (ready.erase node)
      countOrders graph limit remaining incoming ready) ready.toList 0

def countTopologicalOrdersUpTo (graph : GovernanceGraph) (limit : Nat) : Except LegitimacyError Nat :=
  countOrders graph limit graph.nodes.size (incomingCounts graph)
    ((entryNodes graph).foldl (fun ready node => ready.insert node) ∅)

def enumerateOrders (graph : GovernanceGraph) : Nat → BTreeMap NodeId Nat → BTreeSet NodeId → List NodeId → List (List NodeId) →
    Except LegitimacyError (List (List NodeId))
  | 0, _, _, order, orders => .ok (orders ++ [order])
  | remaining + 1, incoming, ready, order, orders =>
    if ready.isEmpty then do
      let failure ← firstCycleError graph
      .error failure
    else ready.toList.foldlM (fun orders node => do
      let (incoming, ready) ← releaseSuccessors (graph.edges.filter fun edge => edge.fromNode = node) incoming (ready.erase node)
      enumerateOrders graph remaining incoming ready (order ++ [node]) orders) orders

def allTopologicalOrders (graph : GovernanceGraph) : Except LegitimacyError (List (List NodeId)) :=
  enumerateOrders graph graph.nodes.size (incomingCounts graph)
    ((entryNodes graph).foldl (fun ready node => ready.insert node) ∅) [] []

def observableRejection (kernelAxiom : KernelAxiom) (claims : List GovernanceClaim) (description : String)
    (originalDecisions perturbedDecisions : BTreeMap ClaimantId Decision) : Except LegitimacyError AxiomVerdict := do
  let originalClaims ← convertGovernanceClaims claims
  let originalEstate ← Estate.new 2 "binary-decision-rank"
  let originalAllocation ← decisionAllocation claims originalDecisions
  let perturbedAllocation ← decisionAllocation claims perturbedDecisions
  .ok (.fail kernelAxiom description {
    description := description
    originalClaims := originalClaims
    originalEstate := originalEstate
    originalAllocation := originalAllocation
    perturbedClaims := originalClaims
    perturbedEstate := originalEstate
    perturbedAllocation := perturbedAllocation
    violation := kernelAxiom.graphAxiomName ++ " requires claimant decisions to be invariant across legal traversal orders" })

/-- Evaluates the orders one after the other until one differs from the canonical decisions. -/
def compareOrders (regexes : RegexEngine) (graph : GovernanceGraph) (claims : List GovernanceClaim) (canonicalOrder : List NodeId)
    (canonical : BTreeMap ClaimantId Decision) : List (List NodeId) → Nat → Except LegitimacyError AxiomVerdict
  | [], tested => .ok (.pass .observable tested)
  | order :: rest, tested =>
    if order = canonicalOrder then compareOrders regexes graph claims canonicalOrder canonical rest tested
    else do
      let candidate ← evaluateWithOrder regexes graph claims order
      match firstDifference canonical candidate claims with
      | some (claimantId, first, second) =>
        observableRejection .observable claims
          ("Evaluating graph orders " ++ formatOrder canonicalOrder ++ " and " ++ formatOrder order ++ " changed '" ++ claimantId ++
            "' from " ++ first.debug ++ " to " ++ second.debug) canonical candidate
      | none => compareOrders regexes graph claims canonicalOrder canonical rest (tested + 1)

def checkGraphObservableDeterminacy (regexes : RegexEngine) (graph : GovernanceGraph) (claims : List GovernanceClaim) :
    Except LegitimacyError AxiomVerdict := do
  let cycles ← detectCycles graph
  if cycles ≠ [] then .ok (.skipped .observable "cyclic graphs are handled by cycle and nonvacuity probes")
  else if graph.nodes.isEmpty then .ok (.skipped .observable "empty graph has no order-dependent decision surface")
  else do
    let canonicalOrder ← topologicalOrder graph
    let canonical ← evaluateWithOrder regexes graph claims canonicalOrder
    if graph.nodes.size > exhaustiveObservableNodeLimit then
      .ok (.skipped .observable ("graph has " ++ toString graph.nodes.size ++
        " nodes, above exhaustive observable-determinacy limit " ++ toString exhaustiveObservableNodeLimit))
    else do
      let orderCount ← countTopologicalOrdersUpTo graph exhaustiveObservableOrderLimit
      if orderCount > exhaustiveObservableOrderLimit then
        .ok (.skipped .observable ("graph has more than " ++ toString exhaustiveObservableOrderLimit ++ " legal topological orders"))
      else do
        let orders ← allTopologicalOrders graph
        compareOrders regexes graph claims canonicalOrder canonical orders 1

end Observable

inductive GraphParadoxType where
  | compositionalAlabama
  | feedbackMonotonicity
  | pathDependence

structure GraphParadoxViolation where
  paradoxType : GraphParadoxType
  description : String
  originalDecisions : BTreeMap ClaimantId Decision
  perturbedDecisions : BTreeMap ClaimantId Decision

namespace Paradox

def topologicalOrderWithTiebreak (graph : GovernanceGraph) (tiebreak : TieBreak) : Except LegitimacyError (List NodeId) := do
  let order ← readyOrder graph tiebreak
  if order.length ≠ graph.nodes.size then do
    let failure ← firstCycleError graph
    .error failure
  else .ok order

def evaluateWithOrder (regexes : RegexEngine) (graph : GovernanceGraph) (claims : List GovernanceClaim) (order : List NodeId) :
    Except LegitimacyError (BTreeMap ClaimantId Decision) := do
  validateTopologicalOrder graph order
  evaluateAlong regexes graph claims order

def pathDependence (regexes : RegexEngine) (graph : GovernanceGraph) (claims : List GovernanceClaim) :
    Except LegitimacyError (Option GraphParadoxViolation) := do
  let cycles ← detectCycles graph
  if cycles ≠ [] then .ok none
  else do
    let ascending ← topologicalOrderWithTiebreak graph .ascending
    let descending ← topologicalOrderWithTiebreak graph .descending
    if ascending = descending then .ok none
    else do
      let left ← evaluateWithOrder regexes graph claims ascending
      let right ← evaluateWithOrder regexes graph claims descending
      match firstDifference left right claims with
      | some (claimantId, first, second) =>
        .ok (some {
          paradoxType := .pathDependence
          description := "Evaluating the same DAG in orders " ++ formatOrder ascending ++ " and " ++ formatOrder descending ++
            " changed '" ++ claimantId ++ "' from " ++ first.debug ++ " to " ++ second.debug
          originalDecisions := left
          perturbedDecisions := right })
      | none => .ok none

end Paradox

end Legitimacy
