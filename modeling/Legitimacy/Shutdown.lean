import Legitimacy.TraversalRun
import Legitimacy.Lifecycle

namespace Legitimacy

open ExceptRun

/-- No batch that the graph can traverse has a permitted claimant. -/
def PermitsNothing (regexes : RegexEngine) (graph : GovernanceGraph) : Prop :=
  ∀ claims result, traverse regexes graph claims = .ok result → ∀ claimant : ClaimantId, result.finalDecisions[claimant]? ≠ some Decision.permit

/-- A node without gates whose default is not to permit. -/
def IsRefusal (governanceNode : GovernanceNode) : Prop :=
  ∃ id name default, governanceNode = .binary id name [] default .firstMatch ∧ default ≠ .permit

def Refusing (graph : GovernanceGraph) : Prop :=
  ∀ (key : NodeId) (governanceNode : GovernanceNode), graph.nodes[key]? = some governanceNode → IsRefusal governanceNode

section

variable {regexes : RegexEngine} {graph : GovernanceGraph} {claims : List GovernanceClaim}

theorem traverseClaims_loop {captureNodeDecisions : Bool} {entries : List NodeId} {final : TraversalState}
    (run : traverseClaims regexes graph claims captureNodeDecisions = .ok (entries, final)) :
    ∃ order : List NodeId, order.foldlM (visitNode graph (evaluateNodeValidated regexes) mergeSharedClaimBatches)
      (startState graph claims captureNodeDecisions) = .ok final := by
  obtain ⟨⟨⟩, -, run⟩ := bind_eq_ok.1 run
  obtain ⟨cycles, -, run⟩ := bind_eq_ok.1 run
  cases cycles with
  | cons cycle rest => cases run
  | nil =>
    obtain ⟨-, run⟩ := guard_eq_ok.1 run
    obtain ⟨order, -, run⟩ := bind_eq_ok.1 run
    obtain ⟨last, looped, made⟩ := bind_eq_ok.1 run
    obtain rfl : last = final := congrArg Prod.snd (Except.ok.inj made)
    exact ⟨order, looped⟩

theorem IsRefusal.decisions {governanceNode : GovernanceNode} (refusal : IsRefusal governanceNode) {decisions : List ClaimDecision}
    (evaluated : evaluateNodeValidated regexes governanceNode claims = .ok decisions) :
    ∀ decision ∈ decisions, decision.decision ≠ .permit := by
  obtain ⟨id, name, default, rfl, withheld⟩ := refusal
  have decided := (evaluateNodeValidated_eq_ok rfl).1 evaluated
  intro decision member
  obtain ⟨index, inside, atIndex⟩ := List.getElem_of_mem member
  have bound : index < claims.length := decided.length_eq ▸ inside
  have here := ((List.forall₂_iff_get.1 decided).2 index bound inside).1
  have constant : default = decisions[index].decision := Except.ok.inj here
  rw [atIndex] at constant
  exact constant ▸ withheld

theorem visitNode_refusing (refusing : Refusing graph) {merge : FeedMerger} {state next : TraversalState} {node : NodeId}
    (visited : visitNode graph (evaluateNodeValidated regexes) merge state node = .ok next) {made : ClaimantId → Set Decision}
    (records : Records state.finalDecisions made) (withheld : ∀ claimant, .permit ∉ made claimant) :
    ∃ made, Records next.finalDecisions made ∧ ∀ claimant, .permit ∉ made claimant := by
  unfold visitNode at visited
  cases atNode : graph.nodes[node]? with
  | none => simp [atNode] at visited
  | some governanceNode =>
    rw [atNode] at visited
    obtain ⟨decisions, evaluated, visited⟩ := bind_eq_ok.1 visited
    obtain ⟨queued, -, stepped⟩ := bind_eq_ok.1 visited
    obtain rfl := Except.ok.inj stepped
    refine ⟨_, records.recordFinalDecisions decisions _, fun claimant permitted => ?_⟩
    rcases permitted with earlier | ⟨member, -⟩
    · exact withheld claimant earlier
    · exact (refusing node governanceNode atNode).decisions evaluated _ member rfl

theorem Refusing.permitsNothing (refusing : Refusing graph) : PermitsNothing regexes graph := by
  intro claims result traversed claimant permitted
  obtain ⟨⟨entries, final⟩, run, made⟩ := bind_eq_ok.1 traversed
  obtain rfl := Except.ok.inj made
  obtain ⟨order, looped⟩ := traverseClaims_loop run
  obtain ⟨made, records, withheld⟩ : ∃ made, Records final.finalDecisions made ∧ ∀ claimant, .permit ∉ made claimant := by
    refine foldlM_invariant (fun _ (state : TraversalState) =>
      ∃ made, Records state.finalDecisions made ∧ ∀ claimant, .permit ∉ made claimant) ?_ ?_ looped
    · exact ⟨_, records_empty, fun _ => Set.notMem_empty _⟩
    · intro done node rest state next _ earlier visited
      obtain ⟨made, records, withheld⟩ := earlier
      exact visitNode_refusing refusing visited records withheld
  exact withheld claimant ((records claimant .permit).1 permitted).1

end

namespace Protocol

section

variable {graph : GovernanceGraph}

theorem refusing_rewriteAsConstant {decision : Decision} (withheld : decision ≠ .permit) :
    Refusing (rewriteAsConstant graph decision) := by
  intro key governanceNode found
  simp only [rewriteAsConstant, Std.ExtTreeMap.getElem?_map, Option.map_eq_some_iff] at found
  obtain ⟨original, -, rfl⟩ := found
  exact ⟨_, _, decision, rfl, withheld⟩

theorem refusing_restrict (refusing : Refusing graph) (keep : NodeId → Bool) : Refusing (restrict graph keep) := by
  intro key governanceNode found
  exact refusing key governanceNode (restrict_lookup.1 found).1

theorem refusing_degradeGraph (refusing : Refusing graph) (directive : SupervisoryDirective) :
    Refusing (degradeGraph graph directive) := by
  intro key governanceNode found
  simp only [degradeGraph, Std.ExtTreeMap.getElem?_map, Option.map_eq_some_iff] at found
  obtain ⟨original, atKey, rfl⟩ := found
  obtain ⟨id, name, default, rfl, withheld⟩ := refusing key original atKey
  exact ⟨id, name, default, rfl, withheld⟩

theorem refusing_rerouteGraph (refusing : Refusing graph) {directive : SupervisoryDirective} {overlay : GovernanceGraph}
    (rerouted : rerouteGraph graph directive = .ok overlay) : Refusing overlay := by
  obtain ⟨requested, -, rerouted⟩ := bind_eq_ok.1 rerouted
  dsimp only at rerouted
  split at rerouted
  · obtain rfl := Except.ok.inj rerouted
    exact refusing_rewriteAsConstant (by decide)
  · obtain ⟨rerouteId, -, made⟩ := bind_eq_ok.1 rerouted
    obtain rfl := Except.ok.inj made
    intro key governanceNode found
    rw [lookup_insert] at found
    split at found
    · obtain rfl := Option.some.inj found
      exact ⟨rerouteId, "supervision-reroute", .escalate, rfl, by decide⟩
    · exact refusing_restrict refusing _ key governanceNode found

theorem refusing_applySupervisoryAction (refusing : Refusing graph) {declaration : GovernanceDeclaration} {action : SupervisoryAction}
    {directive : SupervisoryDirective} {overlay : GovernanceGraph} (kept : action ≠ .rollback)
    (applied : applySupervisoryAction graph declaration action directive = .ok overlay) : Refusing overlay := by
  cases action with
  | pause => exact Except.ok.inj applied ▸ refusing_rewriteAsConstant (by decide)
  | deny => exact Except.ok.inj applied ▸ refusing_rewriteAsConstant (by decide)
  | stop => exact Except.ok.inj applied ▸ refusing_rewriteAsConstant (by decide)
  | sandbox =>
    obtain ⟨requested, -, made⟩ := bind_eq_ok.1 applied
    exact Except.ok.inj made ▸ refusing_restrict refusing _
  | degrade => exact Except.ok.inj applied ▸ refusing_degradeGraph refusing directive
  | rollback => exact absurd rfl kept
  | reroute => exact refusing_rerouteGraph refusing applied

end

section

variable {host : ProtocolHost}

def Operation.supervisoryAction? : Operation → Option SupervisoryAction
  | .supervise action _ _ => some action
  | _ => none

def ShutDown (state : ProtocolState) : Prop :=
  ∃ intervention monitorSession ledger declaration, state = .supervised intervention monitorSession ledger declaration ∧
    Refusing intervention.overlayGraph

theorem supervise_stop_shutDown {state next : ProtocolState} {reason : Option String} {now : Except LegitimacyError String}
    (stopped : supervise host state .stop reason now = .ok next) : ShutDown next := by
  obtain ⟨graph, monitorSession, ledger, declaration, directive, intervention, -, -, applied, -, -, -, rfl⟩ := supervise_eq_ok stopped
  exact ⟨intervention, monitorSession, ledger, declaration, rfl, Except.ok.inj applied ▸ refusing_rewriteAsConstant (by decide)⟩

theorem ShutDown.supervise {state next : ProtocolState} {action : SupervisoryAction} {reason : Option String}
    {now : Except LegitimacyError String} (shut : ShutDown state) (kept : action ≠ .rollback)
    (supervised : Protocol.supervise host state action reason now = .ok next) : ShutDown next := by
  obtain ⟨graph, monitorSession, ledger, declaration, directive, intervention, active, -, applied, -, -, -, rfl⟩ :=
    supervise_eq_ok supervised
  obtain ⟨earlier, session, entries, declared, rfl, refusing⟩ := shut
  obtain ⟨rfl, rfl, rfl, rfl⟩ := by simpa [activeOverlay] using active
  exact ⟨intervention, _, _, _, rfl, refusing_applySupervisoryAction refusing kept applied⟩

/-- After a stop, whatever supervision follows short of a rollback, no batch has a permitted claimant. -/
theorem stop_permanent (host : ProtocolHost) (before after : List Operation) (reason : Option String)
    (now : Except LegitimacyError String)
    (supervised : ∀ operation ∈ after, ∃ action, operation.supervisoryAction? = some action ∧ action ≠ .rollback)
    (state : ProtocolState) (reached : run host (before ++ .supervise .stop reason now :: after) = .ok state) :
    ∃ intervention monitorSession ledger declaration, state = .supervised intervention monitorSession ledger declaration ∧
      PermitsNothing host.regexes intervention.overlayGraph := by
  unfold run at reached
  rw [List.foldlM_append] at reached
  obtain ⟨live, -, reached⟩ := bind_eq_ok.1 reached
  rw [List.foldlM_cons] at reached
  obtain ⟨stopped, atStop, reached⟩ := bind_eq_ok.1 reached
  have shut : ShutDown state := by
    refine foldlM_invariant (fun _ state => ShutDown state) (supervise_stop_shutDown atStop) ?_ reached
    intro done operation rest state next split shut stepped
    obtain ⟨action, acts, kept⟩ := supervised operation (by simp [split])
    cases operation with
    | supervise action' reason now =>
      obtain rfl : action' = action := Option.some.inj acts
      exact shut.supervise kept stepped
    | _ => cases acts
  obtain ⟨intervention, monitorSession, ledger, declaration, rfl, refusing⟩ := shut
  exact ⟨intervention, monitorSession, ledger, declaration, rfl, refusing.permitsNothing⟩

theorem stop_permanent_solo : ∃ state, run plainHost (soloOperations .permit [] ++ .supervise .stop none (.ok "2026-01-01T00:00:03Z") ::
      [.supervise .degrade none (.ok "2026-01-01T00:00:04Z"), .supervise .sandbox none (.ok "2026-01-01T00:00:05Z"),
        .supervise .reroute none (.ok "2026-01-01T00:00:06Z"), .supervise .pause none (.ok "2026-01-01T00:00:07Z")]) = .ok state ∧
    ∃ intervention monitorSession ledger declaration, state = .supervised intervention monitorSession ledger declaration ∧
      PermitsNothing plainHost.regexes intervention.overlayGraph := by
  obtain ⟨state, reached⟩ := @exists_of_toBool _ _ (run plainHost (soloOperations .permit [] ++
    .supervise .stop none (.ok "2026-01-01T00:00:03Z") ::
      [.supervise .degrade none (.ok "2026-01-01T00:00:04Z"), .supervise .sandbox none (.ok "2026-01-01T00:00:05Z"),
        .supervise .reroute none (.ok "2026-01-01T00:00:06Z"), .supervise .pause none (.ok "2026-01-01T00:00:07Z")])) (by decide +kernel)
  exact ⟨state, reached, stop_permanent plainHost _ _ _ _ (by simp [Operation.supervisoryAction?]) state reached⟩

def revives (claim : GovernanceClaim) : Except ProtocolError ProtocolState → Bool
  | .ok (.supervised intervention ..) => match traverse plainHost.regexes intervention.overlayGraph [claim] with
    | .ok result => decide (result.finalDecisions[claim.claimantId]? = some .permit)
    | .error _ => false
  | _ => false

/-- A rollback after a stop puts the declared graph in force again, and its claims are permitted. -/
theorem rollback_revives : ∃ intervention monitorSession ledger declaration result,
    run plainHost (soloOperations .permit [] ++ [.supervise .stop none (.ok "2026-01-01T00:00:03Z"),
      .supervise .rollback none (.ok "2026-01-01T00:00:04Z")]) = .ok (.supervised intervention monitorSession ledger declaration) ∧
    traverse plainHost.regexes intervention.overlayGraph [soloClaim] = .ok result ∧
    result.finalDecisions[soloClaim.claimantId]? = some .permit := by
  have revived : revives soloClaim (run plainHost (soloOperations .permit [] ++ [.supervise .stop none (.ok "2026-01-01T00:00:03Z"),
      .supervise .rollback none (.ok "2026-01-01T00:00:04Z")])) = true := by decide +kernel
  unfold revives at revived
  split at revived
  · rename_i intervention monitorSession ledger declaration reached
    split at revived
    · rename_i result traversed
      exact ⟨intervention, monitorSession, ledger, declaration, result, reached, traversed, of_decide_eq_true revived⟩
    · cases revived
  · cases revived

end

end Protocol

end Legitimacy
