import Legitimacy.GraphChecks
import Legitimacy.OrderIndependence
import Legitimacy.SyntheticClaims

namespace Legitimacy

open ExceptRun StrongComponents

structure CycleResult where
  converged : Bool
  iterations : Nat
  fixedPointDecisions : BTreeMap ClaimantId Decision

def cycleEdges (graph : GovernanceGraph) (cycle : List NodeId) : BTreeMap NodeId (List GovernanceEdge) :=
  graph.edges.foldl (fun edges edge =>
    if edge.fromNode ∈ cycle ∧ edge.toNode ∈ cycle then
      edges.insert edge.fromNode ((edges[edge.fromNode]?).getD [] ++ [edge])
    else edges) ∅

def recordDecisions (fixedPointDecisions : BTreeMap ClaimantId Decision) (decisions : List ClaimDecision) : BTreeMap ClaimantId Decision :=
  decisions.foldl (fun recorded decision => recorded.insert decision.claimantId decision.decision) fixedPointDecisions

structure CycleQueues where
  current : BTreeMap NodeId (List GovernanceClaim)
  next : BTreeMap NodeId (List GovernanceClaim)

/-- An edge feeds the node it leads to: in this round when that comes later in the cycle, otherwise in the next one. -/
def feedCycleEdge (cycle : List NodeId) (index : Nat) (forwarded : List GovernanceClaim) (decisions : List ClaimDecision)
    (queues : CycleQueues) (edge : GovernanceEdge) : Except LegitimacyError CycleQueues := do
  let transformed ← applyTransform edge.transform forwarded decisions
  match cycle.idxOf? edge.toNode with
  | none => .error (.invalidEdgeReference edge.toNode.asStr)
  | some target =>
    if index < target then do
      let merged ← mergeClaimBatches edge.toNode ((queues.current[edge.toNode]?).getD []) transformed
      .ok { queues with current := queues.current.insert edge.toNode merged }
    else do
      let merged ← mergeClaimBatches edge.toNode ((queues.next[edge.toNode]?).getD []) transformed
      .ok { queues with next := queues.next.insert edge.toNode merged }

structure CycleRound where
  queues : CycleQueues
  decisions : BTreeMap ClaimantId Decision

def visitCycleNode (regexes : RegexEngine) (graph : GovernanceGraph) (cycle : List NodeId) (round : CycleRound) (entry : NodeId × Nat) :
    Except LegitimacyError CycleRound :=
  match graph.nodes[entry.1]? with
  | none => .error (.invalidEdgeReference entry.1.asStr)
  | some node => do
    let currentClaims := (round.queues.current[entry.1]?).getD []
    let decisions ← evaluateNode regexes node currentClaims
    let queues ← (((cycleEdges graph cycle)[entry.1]?).getD []).foldlM
      (feedCycleEdge cycle entry.2 (forwardedClaims currentClaims decisions) decisions)
      { round.queues with current := round.queues.current.erase entry.1 }
    .ok ⟨queues, recordDecisions round.decisions decisions⟩

section

variable (epsilon : Float)

def metricsWithinEpsilon (left right : BTreeMap String Float) : Bool :=
  if left.size ≠ right.size then false
  else left.toList.all fun (field, leftValue) => right[field]?.any fun rightValue => (leftValue - rightValue).abs ≤ epsilon

def claimsWithinEpsilon (left right : GovernanceClaim) : Bool :=
  left.claimantId == right.claimantId && left.priorityClass == right.priorityClass && left.path == right.path &&
    left.action == right.action && left.content == right.content && decide ((left.strength - right.strength).abs ≤ epsilon) &&
    metricsWithinEpsilon epsilon left.metrics right.metrics

def claimsById (claims : List GovernanceClaim) : BTreeMap ClaimantId GovernanceClaim :=
  claims.foldl (fun claims claim => claims.insert claim.claimantId claim) ∅

def claimsMatch (baseline observed : BTreeMap ClaimantId GovernanceClaim) : List ClaimantId → Except LegitimacyError Bool
  | [] => .ok true
  | claimantId :: rest => do
    let left ← baseline[claimantId]?.elim (.error (.missingAllocationShare claimantId "cycle baseline queue")) .ok
    let right ← observed[claimantId]?.elim (.error (.missingAllocationShare claimantId "cycle observed queue")) .ok
    if ¬claimsWithinEpsilon epsilon left right then .ok false else claimsMatch baseline observed rest

/-- Only the entry node is fed, and by the claims the iteration began with. -/
def queueMatchesBaseline (queuedClaims : BTreeMap NodeId (List GovernanceClaim)) (entryNode : NodeId)
    (baselineClaims : List GovernanceClaim) : Except LegitimacyError Bool :=
  if queuedClaims.size ≠ 1 then .ok false
  else match queuedClaims[entryNode]? with
    | none => .ok false
    | some queuedForEntry =>
      let baseline := claimsById baselineClaims
      let observed := claimsById queuedForEntry
      if queuedForEntry.length ≠ baselineClaims.length then .ok false
      else if baseline.keys ≠ observed.keys then .ok false
      else claimsMatch epsilon baseline observed baseline.keys

end

/-- The rounds that are left, `iteration` being the next one. -/
def iterateRounds (regexes : RegexEngine) (graph : GovernanceGraph) (cycle : List NodeId) (entryNode : NodeId)
    (claims : List GovernanceClaim) (maxIterations : Nat) (epsilon : Float) : Nat → Nat → BTreeMap NodeId (List GovernanceClaim) →
    BTreeMap ClaimantId Decision → Except LegitimacyError CycleResult
  | 0, _, _, fixedPointDecisions => .ok ⟨false, maxIterations, fixedPointDecisions⟩
  | remaining + 1, iteration, queuedClaims, _ => do
    let round ← cycle.zipIdx.foldlM (visitCycleNode regexes graph cycle) ⟨⟨queuedClaims, ∅⟩, ∅⟩
    if round.queues.next.isEmpty then .ok ⟨true, iteration, round.decisions⟩
    else if ← queueMatchesBaseline epsilon round.queues.next entryNode claims then .ok ⟨false, iteration, round.decisions⟩
    else iterateRounds regexes graph cycle entryNode claims maxIterations epsilon remaining (iteration + 1) round.queues.next round.decisions

def iterateCycle (regexes : RegexEngine) (graph : GovernanceGraph) (cycle : List NodeId) (claims : List GovernanceClaim)
    (maxIterations : Nat) (epsilon : Float) : Except LegitimacyError CycleResult :=
  match cycle with
  | [] => .error (.invalidInput "cycle iteration requires at least one node")
  | entryNode :: _ =>
    if maxIterations = 0 then .error (.invalidInput "cycle iteration requires max_iterations > 0")
    else if ¬epsilon.isFinite ∨ epsilon < 0 then
      .error (.invalidInput ("cycle iteration epsilon must be finite and non-negative, got " ++ FloatText.display epsilon))
    else do
      cycle.forM fun node => if graph.nodes.contains node then .ok () else .error (.invalidEdgeReference node.asStr)
      iterateRounds regexes graph cycle entryNode claims maxIterations epsilon maxIterations 1
        ((∅ : BTreeMap NodeId (List GovernanceClaim)).insert entryNode claims) ∅

/-- Rust's `{:?}` of a list of node ids. -/
def debugNodes (nodes : List NodeId) : String :=
  "[" ++ ", ".intercalate (nodes.map fun node => "NodeId(" ++ debugText node.asStr ++ ")") ++ "]"

def cycleRejection (claims : List GovernanceClaim) (fixedPointAllocation : ValidAllocation) (description violation : String) :
    Except LegitimacyError Verdict := do
  let originalClaims ← Diagnostics.convertClaims claims
  let originalEstate ← Diagnostics.graphEstate
  let originalAllocation ← Diagnostics.decisionAllocation claims ∅
  .ok (.rejected "cycle admissibility" {
    description := description
    originalClaims := originalClaims
    originalEstate := originalEstate
    originalAllocation := originalAllocation
    perturbedClaims := originalClaims
    perturbedEstate := originalEstate
    perturbedAllocation := fixedPointAllocation
    violation := violation })

def checkCycleAdmissibility (regexes : RegexEngine) (graph : GovernanceGraph) (cycle : List NodeId) (claims : List GovernanceClaim) :
    Except LegitimacyError Verdict := do
  let result ← iterateCycle regexes graph cycle claims 32 epsilon
  let fixedPointAllocation ← Diagnostics.decisionAllocation claims result.fixedPointDecisions
  if !result.converged then
    cycleRejection claims fixedPointAllocation
      ("Cycle " ++ debugNodes cycle ++ " did not converge within " ++ toString result.iterations ++ " iterations")
      "reflexive inadmissibility: the cycle kept feeding itself instead of settling to an admissible fixed point"
  else if result.fixedPointDecisions.toList.any fun entry => entry.2 = .escalate then
    cycleRejection claims fixedPointAllocation ("Cycle " ++ debugNodes cycle ++ " converged to a non-terminal Escalate state")
      "reflexive inadmissibility: the cycle stabilized only by preserving non-terminal escalation inside the loop"
  else .ok (.admissible "cycle admissibility" result.iterations)

def syntheticClaimsForCycle (graph : GovernanceGraph) (cycle : List NodeId) : List GovernanceClaim := syntheticClaimsForNodes graph cycle

def syntheticClaimsForCycles (graph : GovernanceGraph) (cycles : List (List NodeId)) : List GovernanceClaim :=
  let nodeIds : BTreeSet NodeId := cycles.flatten.foldl (fun ids node => ids.insert node) ∅
  syntheticClaimsForNodes graph nodeIds.toList

/-- The probes of the cycles one after the other: a verdict that ends them, or whether some probe was permitted and how many
perturbations were tested. -/
def probeCycles (regexes : RegexEngine) (graph : GovernanceGraph) :
    List (List NodeId) → Bool → Nat → Except LegitimacyError (AxiomVerdict ⊕ Bool × Nat)
  | [], permitFound, perturbationsTested => .ok (.inr (permitFound, perturbationsTested))
  | cycle :: rest, permitFound, perturbationsTested => do
    let cycleClaims := syntheticClaimsForCycle graph cycle
    let result ← iterateCycle regexes graph cycle cycleClaims 32 epsilon
    if !result.converged then do
      let verdict ← nonvacuityRejection cycleClaims
        ("cycle " ++ debugNodes cycle ++ " deadlocked before reaching terminal dispositions")
        "NON-VACUOUS rejects deadlocked governance cycles" (cycleClaims.map (·.claimantId))
      .ok (.inl verdict)
    else
      let nonterminal := nonterminalClaimants cycleClaims result.fixedPointDecisions
      if nonterminal ≠ [] then do
        let verdict ← nonvacuityRejection cycleClaims
          ("cycle " ++ debugNodes cycle ++ " left " ++ toString nonterminal.length ++ " synthetic claims in Escalate: " ++
            ", ".intercalate nonterminal)
          "NON-VACUOUS rejects permanent escalation loops" nonterminal
        .ok (.inl verdict)
      else
        let permitted := cycleClaims.any fun claim => result.fixedPointDecisions[claim.claimantId]? = some .permit
        probeCycles regexes graph rest (permitFound || permitted) (perturbationsTested + result.iterations)

def checkNonvacuityOfCycles (regexes : RegexEngine) (graph : GovernanceGraph) (claims : List GovernanceClaim) (cycles : List (List NodeId)) :
    Except LegitimacyError AxiomVerdict :=
  if graph.nodes.isEmpty ∨ cycles = [] then checkGraphNonvacuity regexes graph claims
  else do
    let outcome ← probeCycles regexes graph cycles false claims.length
    match outcome with
    | .inl verdict => return verdict
    | .inr (permitFound, perturbationsTested) =>
      if permitFound then return .pass .nonVacuous perturbationsTested
      else
        nonvacuityRejection (syntheticClaimsForCycles graph cycles)
          "all synthetic cycle probes reached Deny; the graph refused every governed claim"
          "NON-VACUOUS requires at least one synthetic cycle probe to reach Permit" []

section

variable {regexes : RegexEngine} {graph : GovernanceGraph} {cycle : List NodeId} {cycles : List (List NodeId)}

theorem cycleEdges_eq : cycleEdges graph cycle =
    outgoingEdges { graph with edges := graph.edges.filter fun edge => edge.fromNode ∈ cycle ∧ edge.toNode ∈ cycle } := by
  simp [cycleEdges, outgoingEdges, List.foldl_filter]

theorem mem_cycleEdges {node : NodeId} {edge : GovernanceEdge} : edge ∈ ((cycleEdges graph cycle)[node]?).getD [] ↔
    edge ∈ graph.edges ∧ edge.fromNode = node ∧ edge.fromNode ∈ cycle ∧ edge.toNode ∈ cycle := by
  rw [cycleEdges_eq, outgoingEdges_lookup]
  simp only [List.mem_filter, decide_eq_true_eq, and_assoc]
  exact and_congr_right fun _ => ⟨fun ⟨inside, into, same⟩ => ⟨same, inside, into⟩, fun ⟨same, inside, into⟩ => ⟨inside, into, same⟩⟩

theorem feedCycleEdge_next {index : Nat} {forwarded : List GovernanceClaim} {decisions : List ClaimDecision} {queues after : CycleQueues}
    {edge : GovernanceEdge} (run : feedCycleEdge cycle index forwarded decisions queues edge = .ok after) :
    (∀ node ∈ queues.next, node ∈ after.next) ∧ (cycle.idxOf edge.toNode ≤ index → edge.toNode ∈ after.next) := by
  obtain ⟨transformed, -, step⟩ := bind_eq_ok.1 run
  cases found : cycle.idxOf? edge.toNode with
  | none => simp [found] at step
  | some target =>
    have place : cycle.idxOf edge.toNode = target := by
      rw [List.idxOf_eq_getD_idxOf?, found, Option.getD_some]
    simp only [found] at step
    split at step
    case isTrue forward =>
      obtain ⟨merged, -, rfl⟩ := by simpa only [bind_eq_ok, Except.ok.injEq] using step
      exact ⟨fun _ queued => queued, fun backward => absurd forward (by omega)⟩
    case isFalse =>
      obtain ⟨merged, -, rfl⟩ := by simpa only [bind_eq_ok, Except.ok.injEq] using step
      exact ⟨fun node queued => Std.ExtTreeMap.mem_insert.2 (Or.inr queued), fun _ => Std.ExtTreeMap.mem_insert_self⟩

theorem visitCycleNode_next {round after : CycleRound} {entry : NodeId × Nat} (run : visitCycleNode regexes graph cycle round entry = .ok after) :
    (∀ node ∈ round.queues.next, node ∈ after.queues.next) ∧
      ∀ edge ∈ ((cycleEdges graph cycle)[entry.1]?).getD [], cycle.idxOf edge.toNode ≤ entry.2 → edge.toNode ∈ after.queues.next := by
  unfold visitCycleNode at run
  split at run
  · cases run
  · obtain ⟨decisions, -, rest⟩ := bind_eq_ok.1 run
    obtain ⟨queues, fed, made⟩ := bind_eq_ok.1 rest
    obtain rfl := Except.ok.inj made
    refine foldlM_invariant (fun done queues => (∀ node ∈ round.queues.next, node ∈ queues.next) ∧
      ∀ edge ∈ done, cycle.idxOf edge.toNode ≤ entry.2 → edge.toNode ∈ queues.next) ⟨fun _ queued => queued, by simp⟩ ?_ fed
    rintro done edge rest queues next - ⟨kept, queued⟩ step
    obtain ⟨keeps, queues⟩ := feedCycleEdge_next step
    refine ⟨fun node member => keeps node (kept node member), fun other member backward => ?_⟩
    rcases List.mem_append.1 member with earlier | last
    · exact keeps _ (queued other earlier backward)
    · obtain rfl := List.mem_singleton.1 last
      exact queues backward

theorem round_next_nonempty (isCycle : IsCycle graph.Edge cycle) {start final : CycleRound}
    (run : cycle.zipIdx.foldlM (visitCycleNode regexes graph cycle) start = .ok final) : final.queues.next.isEmpty = false := by
  obtain ⟨node, inside, next, nextInside, ⟨edge, listed, rfl, rfl⟩, backward⟩ := isCycle.backward_edge
  have queued : ∀ entry ∈ cycle.zipIdx, ∀ edge ∈ ((cycleEdges graph cycle)[entry.1]?).getD [],
      cycle.idxOf edge.toNode ≤ entry.2 → edge.toNode ∈ final.queues.next := by
    refine foldlM_invariant (fun done round => ∀ entry ∈ done, ∀ edge ∈ ((cycleEdges graph cycle)[entry.1]?).getD [],
      cycle.idxOf edge.toNode ≤ entry.2 → edge.toNode ∈ round.queues.next) (by simp) ?_ run
    intro done entry rest round after _ queued step other member edge fed backward
    obtain ⟨kept, queues⟩ := visitCycleNode_next step
    rcases List.mem_append.1 member with earlier | last
    · exact kept _ (queued other earlier edge fed backward)
    · obtain rfl := List.mem_singleton.1 last
      exact queues edge fed backward
  have visited : (edge.fromNode, cycle.idxOf edge.fromNode) ∈ cycle.zipIdx :=
    List.mem_zipIdx_iff_getElem?.2 (List.getElem?_idxOf inside)
  have target := queued _ visited edge (mem_cycleEdges.2 ⟨listed, rfl, inside, nextInside⟩) backward
  cases empty : final.queues.next.isEmpty with
  | false => rfl
  | true =>
    rw [Std.ExtTreeMap.isEmpty_iff.1 empty] at target
    exact absurd target Std.ExtTreeMap.not_mem_empty

variable {claims : List GovernanceClaim}

theorem iterateRounds_not_converged (isCycle : IsCycle graph.Edge cycle) {entryNode : NodeId}
    {maxIterations : Nat} {epsilon : Float} {remaining iteration : Nat} {queued : BTreeMap NodeId (List GovernanceClaim)}
    {decisions : BTreeMap ClaimantId Decision} {result : CycleResult}
    (run : iterateRounds regexes graph cycle entryNode claims maxIterations epsilon remaining iteration queued decisions = .ok result) :
    result.converged = false := by
  induction remaining generalizing iteration queued decisions with
  | zero =>
    obtain rfl := Except.ok.inj run
    rfl
  | succ remaining ih =>
    obtain ⟨round, visited, rest⟩ := bind_eq_ok.1 run
    rw [round_next_nonempty isCycle visited, if_neg Bool.false_ne_true] at rest
    obtain ⟨settled, -, rest⟩ := bind_eq_ok.1 rest
    split at rest
    · obtain rfl := Except.ok.inj rest
      rfl
    · exact ih rest

theorem iterateCycle_not_converged (isCycle : IsCycle graph.Edge cycle) {maxIterations : Nat} {epsilon : Float}
    {result : CycleResult} (run : iterateCycle regexes graph cycle claims maxIterations epsilon = .ok result) : result.converged = false := by
  unfold iterateCycle at run
  split at run
  · cases run
  · split at run
    · cases run
    · split at run
      · cases run
      · obtain ⟨-, -, rounds⟩ := bind_eq_ok.1 run
        exact iterateRounds_not_converged isCycle rounds

theorem nonvacuityRejection_isFail {description violation : String} {nonterminal : List ClaimantId}
    {verdict : AxiomVerdict} (run : nonvacuityRejection claims description violation nonterminal = .ok verdict) : verdict.isFail = true := by
  obtain ⟨originalClaims, -, rest⟩ := bind_eq_ok.1 run
  obtain ⟨estate, -, rest⟩ := bind_eq_ok.1 rest
  obtain ⟨originalAllocation, -, rest⟩ := bind_eq_ok.1 rest
  obtain ⟨perturbedAllocation, -, made⟩ := bind_eq_ok.1 rest
  obtain rfl := Except.ok.inj made
  rfl

theorem probeCycles_verdict (areCycles : ∀ cycle ∈ cycles, IsCycle graph.Edge cycle) (nonempty : cycles ≠ [])
    {permitFound : Bool} {perturbationsTested : Nat} {outcome : AxiomVerdict ⊕ Bool × Nat}
    (run : probeCycles regexes graph cycles permitFound perturbationsTested = .ok outcome) :
    ∃ verdict, outcome = .inl verdict ∧ verdict.isFail = true := by
  cases cycles with
  | nil => exact absurd rfl nonempty
  | cons cycle rest =>
    obtain ⟨result, iterated, rest⟩ := bind_eq_ok.1 run
    rw [iterateCycle_not_converged (areCycles cycle List.mem_cons_self) iterated, Bool.not_false, if_pos rfl] at rest
    obtain ⟨verdict, rejected, made⟩ := bind_eq_ok.1 rest
    exact ⟨verdict, (Except.ok.inj made).symm, nonvacuityRejection_isFail rejected⟩

theorem checkCycleAdmissibility_rejects (isCycle : IsCycle graph.Edge cycle) {kind : String}
    {perturbationsTested : Nat} : checkCycleAdmissibility regexes graph cycle claims ≠ .ok (.admissible kind perturbationsTested) := by
  intro run
  obtain ⟨result, iterated, rest⟩ := bind_eq_ok.1 run
  obtain ⟨allocation, -, rest⟩ := bind_eq_ok.1 rest
  rw [iterateCycle_not_converged isCycle iterated, Bool.not_false, if_pos rfl] at rest
  obtain ⟨originalClaims, -, rest⟩ := bind_eq_ok.1 rest
  obtain ⟨estate, -, rest⟩ := bind_eq_ok.1 rest
  obtain ⟨originalAllocation, -, made⟩ := bind_eq_ok.1 rest
  cases made

theorem checkNonvacuityOfCycles_fails (areCycles : ∀ cycle ∈ cycles, IsCycle graph.Edge cycle) (nonempty : cycles ≠ [])
    {verdict : AxiomVerdict} (run : checkNonvacuityOfCycles regexes graph claims cycles = .ok verdict) :
    verdict.isFail = true := by
  unfold checkNonvacuityOfCycles at run
  split at run
  case isTrue reason =>
    have empty := reason.resolve_right nonempty
    unfold checkGraphNonvacuity at run
    rw [if_pos empty] at run
    exact nonvacuityRejection_isFail run
  case isFalse =>
    obtain ⟨outcome, probed, rest⟩ := bind_eq_ok.1 run
    obtain ⟨verdict, rfl, fails⟩ := probeCycles_verdict areCycles nonempty probed
    obtain rfl := Except.ok.inj rest
    exact fails

end

/-- A reported component never settles, in whatever order its nodes are listed: the rounds always leave claims to be visited again. -/
theorem cycles_rejected {regexes : RegexEngine} {graph : GovernanceGraph} {cycles : List (List NodeId)}
    (valid : validateGovernanceGraph regexes graph = .ok ()) (detected : detectCycles graph = .ok cycles) :
    (∀ component ∈ cycles, ∀ cycle, cycle.Perm component → ∀ claims, (∀ maxIterations epsilon result,
        iterateCycle regexes graph cycle claims maxIterations epsilon = .ok result → result.converged = false) ∧
      ∀ kind perturbationsTested, checkCycleAdmissibility regexes graph cycle claims ≠ .ok (.admissible kind perturbationsTested)) ∧
    ∀ listed, listed ≠ [] → (∀ cycle ∈ listed, ∃ component ∈ cycles, cycle.Perm component) → ∀ claims verdict,
      checkNonvacuityOfCycles regexes graph claims listed = .ok verdict → verdict.isFail = true := by
  obtain ⟨reported, run, reports, -⟩ := detectCycles_reports (closed_of_valid valid)
  obtain rfl := Except.ok.inj (detected.symm.trans run)
  have isCycle : ∀ component ∈ cycles, ∀ cycle, cycle.Perm component → IsCycle graph.Edge cycle :=
    fun component member cycle perm => ((reports component).1 member).cycle.perm perm
  refine ⟨fun component member cycle perm claims => ?_, fun listed nonempty members claims verdict run => ?_⟩
  · have cyclic := isCycle component member cycle perm
    exact ⟨fun _ _ _ run => iterateCycle_not_converged cyclic run, fun _ _ => checkCycleAdmissibility_rejects cyclic⟩
  · refine checkNonvacuityOfCycles_fails (fun cycle member => ?_) nonempty run
    obtain ⟨component, reported, perm⟩ := members cycle member
    exact isCycle component reported cycle perm

theorem cycles_rejected_looped :
    ((iterateCycle .error loopedGraph [⟨"right", by decide⟩, ⟨"left", by decide⟩] [plainClaim "a" 0.5] 3 0).map (·.converged) = .ok false ∧
      ∀ kind perturbationsTested, checkCycleAdmissibility .error loopedGraph [⟨"right", by decide⟩, ⟨"left", by decide⟩] [plainClaim "a" 0.5] ≠
        .ok (.admissible kind perturbationsTested)) ∧
    (checkNonvacuityOfCycles .error loopedGraph [] [[⟨"self", by decide⟩]]).map (·.isFail) = .ok true := by
  obtain ⟨each, together⟩ := @cycles_rejected .error loopedGraph [[⟨"left", by decide⟩, ⟨"right", by decide⟩], [⟨"self", by decide⟩]]
    (by decide +kernel) (by decide +kernel)
  refine ⟨⟨by decide +kernel, (each _ List.mem_cons_self _ (List.Perm.swap _ _ _) _).2⟩, ?_⟩
  have ends : (checkNonvacuityOfCycles .error loopedGraph [] [[⟨"self", by decide⟩]]).toBool = true := by decide +kernel
  obtain ⟨verdict, run⟩ := exists_of_toBool ends
  have listed : ∀ cycle ∈ [[(⟨"self", by decide⟩ : NodeId)]], ∃ component ∈ [[⟨"left", by decide⟩, ⟨"right", by decide⟩], [⟨"self", by decide⟩]],
      cycle.Perm component := by
    intro cycle member
    exact ⟨cycle, List.mem_cons_of_mem _ member, List.Perm.refl cycle⟩
  have fails := together _ (List.cons_ne_nil _ _) listed [] verdict run
  rw [run]
  exact congrArg Except.ok fails

end Legitimacy
