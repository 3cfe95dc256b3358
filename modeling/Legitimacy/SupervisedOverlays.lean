import Legitimacy.Lifecycle
import Legitimacy.StateJson
import Legitimacy.TraversalOutcome

namespace Legitimacy

open ExceptRun

/-- A graph that claims can run through: it has nodes, no cycle, and passes the check of its parts. -/
structure GovernanceGraph.Sound (regexes : RegexEngine) (graph : GovernanceGraph) : Prop where
  nonempty : graph.nodes.isEmpty = false
  acyclic : graph.Acyclic
  valid : validateGovernanceGraph regexes graph = .ok ()

section

variable {regexes : RegexEngine} {graph : GovernanceGraph}

theorem validateGovernanceGraph_iff : validateGovernanceGraph regexes graph = .ok () ↔
    (∀ key node, graph.nodes[key]? = some node → key = nodeId node ∧ validateGovernanceNode regexes node = .ok ()) ∧
      graph.Closed ∧ ∀ edge ∈ graph.edges, validateTransform edge.transform = .ok () := by
  have entry : ∀ key node, validateNodeEntry regexes key node = .ok () ↔
      key = nodeId node ∧ validateGovernanceNode regexes node = .ok () := by
    intro key node
    rw [validateNodeEntry, guard_eq_ok, not_not]
  have edge : ∀ edge, validateEdge graph edge = .ok () ↔
      (edge.fromNode ∈ graph.nodes ∧ edge.toNode ∈ graph.nodes) ∧ validateTransform edge.transform = .ok () := by
    intro edge
    rw [validateEdge, guard_eq_ok, guard_eq_ok, not_not, not_not, Std.ExtTreeMap.contains_iff_mem, Std.ExtTreeMap.contains_iff_mem,
      and_assoc]
  rw [validateGovernanceGraph_eq_ok]
  simp only [entry, edge, forall_and, GovernanceGraph.Closed]

theorem GovernanceGraph.Sound.closed (sound : graph.Sound regexes) : graph.Closed := closed_of_valid sound.valid

theorem nonempty_of_mem {node : NodeId} (member : node ∈ graph.nodes) : graph.nodes.isEmpty = false := by
  refine Std.ExtTreeMap.isEmpty_eq_false_iff.2 fun empty => ?_
  rw [empty] at member
  exact Std.ExtTreeMap.not_mem_empty member

end

namespace Protocol

section

variable {regexes : RegexEngine} {graph : GovernanceGraph}

theorem rewriteAsConstant_lookup {decision : Decision} {key : NodeId} :
    (rewriteAsConstant graph decision).nodes[key]? = (graph.nodes[key]?).map (constantNode decision) := by
  simp only [rewriteAsConstant, Std.ExtTreeMap.getElem?_map]

theorem rewriteAsConstant_sound (sound : graph.Sound regexes) (decision : Decision) :
    (rewriteAsConstant graph decision).Sound regexes := by
  obtain ⟨nodes, closed, transforms⟩ := validateGovernanceGraph_iff.1 sound.valid
  have kept : ∀ {node : NodeId}, node ∈ graph.nodes → node ∈ (rewriteAsConstant graph decision).nodes := by
    intro node member
    obtain ⟨governanceNode, found⟩ := mem_iff_lookup.1 member
    exact mem_iff_lookup.2 ⟨_, by rw [rewriteAsConstant_lookup, found, Option.map_some]⟩
  obtain ⟨entry, isEntry⟩ := exists_entry closed sound.acyclic sound.nonempty
  refine ⟨nonempty_of_mem (kept isEntry.1), sound.acyclic, validateGovernanceGraph_iff.2 ⟨?_, rewriteAsConstant_closed closed, transforms⟩⟩
  intro key node found
  rw [rewriteAsConstant_lookup] at found
  obtain ⟨original, atKey, rfl⟩ := Option.map_eq_some_iff.1 found
  exact ⟨(nodes key original atKey).1, rfl⟩

end

section

variable {regexes : RegexEngine} {graph : GovernanceGraph}

theorem restrict_sound (sound : graph.Sound regexes) {keep : NodeId → Bool} {node : NodeId} (inGraph : node ∈ graph.nodes)
    (kept : keep node = true) : (restrict graph keep).Sound regexes := by
  obtain ⟨nodes, closed, transforms⟩ := validateGovernanceGraph_iff.1 sound.valid
  refine ⟨nonempty_of_mem (mem_restrict.2 ⟨inGraph, kept⟩), restrict_acyclic sound.acyclic,
    validateGovernanceGraph_iff.2 ⟨?_, restrict_closed closed, ?_⟩⟩
  · intro key governanceNode found
    exact nodes key governanceNode (restrict_lookup.1 found).1
  · intro edge listed
    exact transforms edge (List.mem_filter.1 listed).1

theorem sandboxGraph_sound (sound : graph.Sound regexes) {directive : SupervisoryDirective} {overlay : GovernanceGraph}
    (sandboxed : sandboxGraph graph directive = .ok overlay) : overlay.Sound regexes := by
  obtain ⟨requested, parsed, -⟩ := bind_eq_ok.1 sandboxed
  obtain ⟨keep, rfl, kept⟩ := sandboxGraph_eq_ok sandboxed
  cases raw : directive.sandboxNodes with
  | nil =>
    obtain ⟨entry, isEntry⟩ := exists_entry sound.closed sound.acyclic sound.nonempty
    exact restrict_sound sound isEntry.1 ((kept entry).2 (by rw [Kept, if_pos raw]; exact isEntry))
  | cons first rest =>
    obtain ⟨nodeIds, named, -⟩ := bind_eq_ok.1 parsed
    rw [raw] at named
    obtain ⟨node, -, atFirst, -, -⟩ := List.forall₂_cons_left_iff.1 (mapM_eq_ok.1 named)
    obtain ⟨same, inGraph⟩ := parseExistingNodeId_eq_ok atFirst
    refine restrict_sound sound inGraph ((kept node).2 ?_)
    rw [Kept, if_neg (by simp [raw]), raw, same]
    exact List.mem_cons_self

end

section

variable {regexes : RegexEngine} {graph : GovernanceGraph}

def thresholdOf : Gate → Option Float
  | .thresholdGate _ min _ => some min
  | _ => none

def thresholds : GovernanceNode → List Float
  | .binary _ _ gates _ _ => gates.filterMap thresholdOf
  | .proportional .. => []
  | .threshold _ _ threshold _ => [threshold]

/-- Every threshold of the graph stays a number when it is multiplied by the factor. -/
def ScalesWithin (graph : GovernanceGraph) (factor : Float) : Prop :=
  ∀ (key : NodeId) (node : GovernanceNode), graph.nodes[key]? = some node → ∀ threshold ∈ thresholds node, (threshold * factor).isFinite = true

theorem degradeGate_valid {gate : Gate} (valid : validateGate regexes gate = .ok ()) {factor : Float} :
    validateGate regexes (degradeGate factor gate) = .ok () ↔ ∀ threshold ∈ thresholdOf gate, (threshold * factor).isFinite = true := by
  cases gate with
  | thresholdGate field min decision =>
    obtain ⟨⟨⟩, named, -⟩ := bind_eq_ok.1 valid
    simp only [degradeGate, validateGate, thresholdOf, Option.mem_some_iff, forall_eq']
    rw [bind_eq_ok]
    constructor
    · intro scaled
      obtain ⟨⟨⟩, -, within⟩ := scaled
      exact check_eq_ok.1 within
    · intro within
      exact ⟨(), named, check_eq_ok.2 within⟩
  | _ => simp [degradeGate, valid, thresholdOf]

theorem degradeNode_valid {node : GovernanceNode} (valid : validateGovernanceNode regexes node = .ok ()) {factor : Float} :
    validateGovernanceNode regexes (degradeNode factor node) = .ok () ↔ ∀ threshold ∈ thresholds node, (threshold * factor).isFinite = true := by
  cases node with
  | binary id name gates default combination =>
    have each := forM_eq_ok.1 valid
    simp only [degradeNode, validateGovernanceNode, thresholds, List.mem_filterMap]
    rw [forM_eq_ok]
    constructor
    · intro scaled threshold member
      obtain ⟨gate, listed, named⟩ := member
      exact (degradeGate_valid (each gate listed)).1 (scaled _ (List.mem_map_of_mem listed)) threshold named
    · intro within scaled member
      obtain ⟨gate, listed, rfl⟩ := List.mem_map.1 member
      exact (degradeGate_valid (each gate listed)).2 fun threshold named => within threshold ⟨gate, listed, named⟩
  | proportional => simp [degradeNode, valid, thresholds]
  | threshold id name threshold field =>
    obtain ⟨-, valid⟩ := guard_eq_ok.1 valid
    obtain ⟨named, -⟩ := guard_eq_ok.1 valid
    simp only [degradeNode, validateGovernanceNode, thresholds, List.forall_mem_singleton]
    rw [guard_eq_ok, guard_eq_ok, not_not]
    exact and_iff_left ⟨named, rfl⟩

theorem nodeId_degradeNode (factor : Float) (node : GovernanceNode) : nodeId (degradeNode factor node) = nodeId node := by
  cases node <;> rfl

theorem degradeGraph_valid (valid : validateGovernanceGraph regexes graph = .ok ()) {directive : SupervisoryDirective} :
    validateGovernanceGraph regexes (degradeGraph graph directive) = .ok () ↔ ScalesWithin graph (degradationFactor directive) := by
  obtain ⟨nodes, closed, transforms⟩ := validateGovernanceGraph_iff.1 valid
  rw [validateGovernanceGraph_iff]
  constructor
  · intro scaled key node found
    refine (degradeNode_valid (nodes key node found).2).1 (scaled.1 key _ ?_).2
    rw [degradeGraph_lookup, found, Option.map_some]
  · intro within
    refine ⟨fun key node found => ?_, degradeGraph_closed closed, transforms⟩
    rw [degradeGraph_lookup] at found
    obtain ⟨original, atKey, rfl⟩ := Option.map_eq_some_iff.1 found
    rw [nodeId_degradeNode]
    exact ⟨(nodes key original atKey).1, (degradeNode_valid (nodes key original atKey).2).2 (within key original atKey)⟩

theorem degradeGraph_sound (sound : graph.Sound regexes) {directive : SupervisoryDirective}
    (within : ScalesWithin graph (degradationFactor directive)) : (degradeGraph graph directive).Sound regexes := by
  obtain ⟨entry, isEntry⟩ := exists_entry sound.closed sound.acyclic sound.nonempty
  exact ⟨nonempty_of_mem (mem_degradeGraph.2 isEntry.1), sound.acyclic, (degradeGraph_valid sound.valid).2 within⟩

end

section

variable {regexes : RegexEngine} {graph overlay : GovernanceGraph} {directive : SupervisoryDirective}

theorem rerouteGraph_transforms (transforms : ∀ edge ∈ graph.edges, validateTransform edge.transform = .ok ())
    (rerouted : rerouteGraph graph directive = .ok overlay) : ∀ edge ∈ overlay.edges, validateTransform edge.transform = .ok () := by
  obtain ⟨requested, -, rerouted⟩ := bind_eq_ok.1 rerouted
  dsimp only at rerouted
  split at rerouted
  · obtain rfl := Except.ok.inj rerouted
    exact transforms
  · obtain ⟨rerouteId, -, made⟩ := bind_eq_ok.1 rerouted
    obtain rfl := Except.ok.inj made
    intro edge listed
    rcases List.mem_append.1 listed with earlier | added
    · exact transforms edge (List.mem_filter.1 earlier).1
    · obtain ⟨target, -, rfl⟩ := List.mem_map.1 added
      rfl

theorem rerouteGraph_sound (sound : graph.Sound regexes) (rerouted : rerouteGraph graph directive = .ok overlay) :
    overlay.Sound regexes := by
  obtain ⟨nodes, closed, transforms⟩ := validateGovernanceGraph_iff.1 sound.valid
  have passing := rerouteGraph_transforms transforms rerouted
  rcases rerouteGraph_eq_ok closed rerouted with rfl | ⟨rerouteId, targets, shape, -⟩
  · exact rewriteAsConstant_sound sound .deny
  · refine ⟨nonempty_of_mem (shape.isEntry closed).1, shape.acyclic closed sound.acyclic,
      validateGovernanceGraph_iff.2 ⟨?_, shape.closed closed, passing⟩⟩
    intro key node found
    by_cases fresh : key = rerouteId
    · subst fresh
      obtain rfl := Option.some.inj (shape.source.symm.trans found)
      exact ⟨rfl, rfl⟩
    · exact nodes key node ((shape.kept key node fresh).1 found).1

end

section

variable {host : ProtocolHost}

theorem applySupervisoryAction_sound {graph overlay : GovernanceGraph} {declaration : GovernanceDeclaration} {action : SupervisoryAction}
    {directive : SupervisoryDirective} (sound : graph.Sound host.regexes) (declared : declaration.graph.Sound host.regexes)
    (within : action = .degrade → ScalesWithin graph (degradationFactor directive))
    (applied : applySupervisoryAction graph declaration action directive = .ok overlay) : overlay.Sound host.regexes := by
  cases action with
  | pause => exact Except.ok.inj applied ▸ rewriteAsConstant_sound sound .escalate
  | deny => exact Except.ok.inj applied ▸ rewriteAsConstant_sound sound .deny
  | stop => exact Except.ok.inj applied ▸ rewriteAsConstant_sound sound .deny
  | sandbox => exact sandboxGraph_sound sound applied
  | degrade => exact Except.ok.inj applied ▸ degradeGraph_sound sound (within rfl)
  | rollback => exact Except.ok.inj applied ▸ declared
  | reroute => exact rerouteGraph_sound sound applied

/-- The arguments of a call of `supervise` and the clock's answer. -/
structure SuperviseCall where
  action : SupervisoryAction
  reason : Option String
  now : Except LegitimacyError String

def superviseAll (host : ProtocolHost) (state : ProtocolState) (calls : List SuperviseCall) : Except ProtocolError ProtocolState :=
  calls.foldlM (fun state call => supervise host state call.action call.reason call.now) state

/-- A call that degrades a state scales no threshold of its overlay out of range. -/
def CallWithin (host : ProtocolHost) (state : ProtocolState) (call : SuperviseCall) : Prop :=
  call.action = .degrade → ∀ graph monitorSession ledger declaration directive,
    activeOverlay state = .ok (graph, monitorSession, ledger, declaration) → parseDirective host call.reason = .ok directive →
      ScalesWithin graph (degradationFactor directive)

/-- The graph in force is well formed; the session, the ledger and the declaration are those of the live state. -/
def SoundUnder (host : ProtocolHost) (monitorSession : MonitorSession) (ledger : ProtocolLedger) (declaration : GovernanceDeclaration)
    (state : ProtocolState) : Prop :=
  ∃ graph, activeOverlay state = .ok (graph, monitorSession, ledger, declaration) ∧ graph.Sound host.regexes

theorem supervise_sound {monitorSession : MonitorSession} {ledger : ProtocolLedger} {declaration : GovernanceDeclaration}
    {state next : ProtocolState} {call : SuperviseCall} (declared : declaration.graph.Sound host.regexes)
    (holds : SoundUnder host monitorSession ledger declaration state) (within : CallWithin host state call)
    (supervised : supervise host state call.action call.reason call.now = .ok next) :
    SoundUnder host monitorSession ledger declaration next := by
  obtain ⟨graph, active, sound⟩ := holds
  obtain ⟨before, session, entries, declaration', directive, intervention, again, parsed, applied, -, -, -, rfl⟩ :=
    supervise_eq_ok supervised
  have same := Except.ok.inj (active.symm.trans again)
  obtain ⟨rfl, rfl, rfl, rfl⟩ : graph = before ∧ monitorSession = session ∧ ledger = entries ∧ declaration = declaration' := by
    simpa only [Prod.mk.injEq] using same
  refine ⟨intervention.overlayGraph, rfl, applySupervisoryAction_sound sound declared (fun degrades => ?_) applied⟩
  exact within degrades graph monitorSession ledger declaration directive active parsed

theorem supervise_valid {state next : ProtocolState} {action : SupervisoryAction} {reason : Option String}
    {now : Except LegitimacyError String} (supervised : supervise host state action reason now = .ok next) :
    next.validate host = .ok () := by
  obtain ⟨⟨⟩, -, supervised⟩ := bind_eq_ok.1 supervised
  obtain ⟨⟨graph, monitorSession, ledger, declaration⟩, -, supervised⟩ := bind_eq_ok.1 supervised
  obtain ⟨directive, -, supervised⟩ := bind_eq_ok.1 supervised
  obtain ⟨overlayGraph, -, supervised⟩ := bind_eq_ok.1 supervised
  obtain ⟨issuedAt, -, supervised⟩ := bind_eq_ok.1 supervised
  obtain ⟨⟨⟩, valid, made⟩ := bind_eq_ok.1 supervised
  obtain rfl := Except.ok.inj made
  exact valid

end

section

theorem gate_fits {regexes : RegexEngine} {gate : Gate} (valid : validateGate regexes gate = .ok ()) : StateJson.gate.Fits gate := by
  cases gate with
  | thresholdGate field min decision =>
    obtain ⟨⟨⟩, -, finite⟩ := bind_eq_ok.1 valid
    have number : min.isFinite = true := check_eq_ok.1 finite
    exact ⟨trivial, number, trivial, trivial⟩
  | peerRelative field percentile decision =>
    obtain ⟨⟨⟩, -, within⟩ := bind_eq_ok.1 valid
    obtain ⟨within, -⟩ := guard_eq_ok.1 within
    exact ⟨trivial, not_not.1 fun infinite => within (.inl infinite), trivial, trivial⟩
  | _ => exact ⟨trivial, trivial, trivial⟩

theorem node_fits {regexes : RegexEngine} {node : GovernanceNode} (valid : validateGovernanceNode regexes node = .ok ()) :
    StateJson.node.Fits node := by
  cases node with
  | binary id name gates default combination =>
    exact ⟨trivial, trivial, fun gate listed => gate_fits (forM_eq_ok.1 valid gate listed), trivial, trivial, trivial⟩
  | proportional id name rule priorityClasses =>
    have named : StateJson.ruleKind.Fits rule := by cases rule <;> trivial
    exact ⟨trivial, trivial, named, fun _ _ => trivial, trivial⟩
  | threshold id name threshold field =>
    obtain ⟨finite, -⟩ := guard_eq_ok.1 valid
    exact ⟨trivial, trivial, not_not.1 finite, trivial, trivial⟩

theorem transform_fits {transform : EdgeTransform} (valid : validateTransform transform = .ok ()) : StateJson.transform.Fits transform := by
  cases transform with
  | passThrough => trivial
  | claimModification delta =>
    have number : delta.isFinite = true := check_eq_ok.1 valid
    exact ⟨number, trivial⟩

theorem graph_fits {regexes : RegexEngine} {graph : GovernanceGraph} (valid : validateGovernanceGraph regexes graph = .ok ()) :
    StateJson.graph.Fits graph := by
  obtain ⟨nodes, -, transforms⟩ := validateGovernanceGraph_iff.1 valid
  refine ⟨fun key node found => ?_, fun edge listed => ?_, trivial⟩
  · exact node_fits (nodes key node found).2
  · exact ⟨trivial, trivial, transform_fits (transforms edge listed), trivial⟩

theorem supervised_fits {regexes : RegexEngine} {intervention : SupervisoryIntervention} {monitorSession : MonitorSession}
    {ledger : ProtocolLedger} {declaration : GovernanceDeclaration}
    (fits : StateJson.protocolState.Fits (.live monitorSession ledger declaration))
    (valid : validateGovernanceGraph regexes intervention.overlayGraph = .ok ()) :
    StateJson.protocolState.Fits (.supervised intervention monitorSession ledger declaration) :=
  ⟨⟨trivial, trivial, trivial, graph_fits valid, trivial, fun _ _ => trivial, trivial⟩, fits⟩

end

section

variable {host : ProtocolHost}

theorem superviseAll_sound {monitorSession : MonitorSession} {ledger : ProtocolLedger} {declaration : GovernanceDeclaration}
    {calls : List SuperviseCall} {state : ProtocolState} (compiled : monitorSession.compiledGraph.graph.Sound host.regexes)
    (declared : declaration.graph.Sound host.regexes)
    (within : ∀ done call rest before, calls = done ++ call :: rest →
      superviseAll host (.live monitorSession ledger declaration) done = .ok before → CallWithin host before call)
    (supervised : superviseAll host (.live monitorSession ledger declaration) calls = .ok state) :
    SoundUnder host monitorSession ledger declaration state := by
  have both := foldlM_invariant (fun done before => superviseAll host (.live monitorSession ledger declaration) done = .ok before ∧
    SoundUnder host monitorSession ledger declaration before) ⟨rfl, _, rfl, compiled⟩ ?_ supervised
  · exact both.2
  intro done call rest before next split holds stepped
  obtain ⟨reached, sound⟩ := holds
  have further : superviseAll host (.live monitorSession ledger declaration) (done ++ [call]) = .ok next := by
    unfold superviseAll
    rw [List.foldlM_append]
    exact bind_eq_ok.2 ⟨before, reached, bind_eq_ok.2 ⟨next, stepped, rfl⟩⟩
  exact ⟨further, supervise_sound declared sound (within done call rest before split reached) stepped⟩

theorem superviseAll_supervised {start state : ProtocolState} {calls : List SuperviseCall} (called : calls ≠ [])
    (supervised : superviseAll host start calls = .ok state) :
    state.validate host = .ok () ∧ ∃ intervention monitorSession ledger declaration,
      state = .supervised intervention monitorSession ledger declaration := by
  obtain ⟨done, last, rfl⟩ : ∃ done last, calls = done ++ [last] := ⟨_, _, (List.dropLast_append_getLast called).symm⟩
  unfold superviseAll at supervised
  rw [List.foldlM_append] at supervised
  obtain ⟨before, -, supervised⟩ := bind_eq_ok.1 supervised
  obtain ⟨next, stepped, made⟩ := bind_eq_ok.1 supervised
  obtain rfl : next = state := Except.ok.inj made
  obtain ⟨graph, monitorSession, ledger, declaration, directive, intervention, -, -, -, -, -, -, same⟩ := supervise_eq_ok stepped
  exact ⟨supervise_valid stepped, intervention, monitorSession, ledger, declaration, same⟩

/-- Every overlay that supervision puts on a live state is well formed, and the state is read back as it was written, as long as no
degradation scales a threshold out of range. -/
theorem supervised_overlays_sound (host : ProtocolHost) (text : JsonText) (describe : ProtocolError → String) (path : String)
    (monitorSession : MonitorSession) (ledger : ProtocolLedger) (declaration : GovernanceDeclaration) (calls : List SuperviseCall)
    (state : ProtocolState) (compiled : monitorSession.compiledGraph.graph.Sound host.regexes)
    (declared : declaration.graph.Sound host.regexes) (fits : StateJson.protocolState.Fits (.live monitorSession ledger declaration))
    (within : ∀ done call rest before, calls = done ++ call :: rest →
      superviseAll host (.live monitorSession ledger declaration) done = .ok before → CallWithin host before call)
    (called : calls ≠ []) (supervised : superviseAll host (.live monitorSession ledger declaration) calls = .ok state)
    (keeps : text.Keeps (StateJson.protocolState.encode state)) :
    ∃ intervention, state = .supervised intervention monitorSession ledger declaration ∧
      intervention.overlayGraph.Sound host.regexes ∧ ∀ allowTamperedLedger,
        readProtocolState host text describe path allowTamperedLedger (some (writeProtocolState text state)) = .ok state := by
  obtain ⟨graph, active, sound⟩ := superviseAll_sound compiled declared within supervised
  obtain ⟨valid, intervention, session, entries, declaration', rfl⟩ := superviseAll_supervised called supervised
  obtain ⟨rfl, rfl, rfl, rfl⟩ : intervention.overlayGraph = graph ∧ session = monitorSession ∧ entries = ledger ∧
      declaration' = declaration := by
    simpa only [activeOverlay, Except.ok.injEq, Prod.mk.injEq] using active
  exact ⟨intervention, rfl, sound, readProtocolState_written valid (supervised_fits fits sound.valid) keeps⟩

theorem scalesWithin_of_toList {graph : GovernanceGraph} {factor : Float}
    (within : ∀ entry ∈ graph.nodes.toList, ∀ threshold ∈ thresholds entry.2, (threshold * factor).isFinite = true) :
    ScalesWithin graph factor :=
  fun key node found => within (key, node) (Std.ExtTreeMap.mem_toList_iff_getElem?_eq_some.2 found)

/-- A graph that denies what has no two approvals. -/
def quorumGraph : GovernanceGraph where
  nodes := Std.ExtTreeMap.ofList [(⟨"quorum", by decide⟩,
    .binary ⟨"quorum", by decide⟩ "quorum" [.thresholdGate "approval" 2 .permit] .deny .firstMatch)] compare
  edges := []

def quorumDirective : String := "\x7b\"degradation_factor\": 1e308\x7d"

/-- A host that reads one directive. -/
def quorumHost : ProtocolHost :=
  { plainHost with parseJson := fun reason => if reason = quorumDirective then .ok ⟨[], some 1e308, []⟩ else .error reason }

def quorumDeclaration : GovernanceDeclaration := ⟨packageVersion, "2026-01-01T00:00:00Z", "quorum", "1", quorumGraph, [], 0, 0⟩

def quorumSession : MonitorSession where
  compiledGraph := {
    name := "quorum"
    version := "1"
    graph := quorumGraph
    axiomVerdicts := requiredAxioms.map fun axiomName => .admissible axiomName 4
    strategyproofness := .strategyproof
    compiledRuleHash := plainHost.stableHash (.graph quorumGraph [])
    compiledAt := "2026-01-01T00:00:01Z" }
  sacrificeCerts := []
  monitoredProperties := defaultMonitoredProperties
  representativeClaims := []
  intervalSeconds := 60
  monitorConfig := ⟨60, 60, 0⟩

theorem quorumGraph_sound : quorumGraph.Sound quorumHost.regexes where
  nonempty := by decide
  acyclic := acyclic_of_ascending fun edge listed => by cases listed
  valid := by decide

theorem quorum_fits : StateJson.protocolState.Fits (.live quorumSession emptyLedger quorumDeclaration) := by
  have graph := graph_fits quorumGraph_sound.valid
  have verdicts : ∀ verdict ∈ quorumSession.compiledGraph.axiomVerdicts, StateJson.verdict.Fits verdict := by
    intro verdict listed
    obtain ⟨axiomName, -, rfl⟩ := List.mem_map.1 listed
    exact ⟨trivial, (by decide : (4 : Nat) < 2 ^ 64), trivial⟩
  have interval : (60 : Nat) < 2 ^ 64 := by decide
  have seed : (0 : Nat) < 2 ^ 64 := by decide
  have number : (0 : Float).isFinite = true := by decide
  exact ⟨⟨⟨trivial, trivial, graph, verdicts, trivial, trivial, trivial, trivial⟩, nofun, fun _ _ => trivial, nofun, interval,
      ⟨interval, interval, seed, trivial⟩, trivial⟩, ⟨nofun, nofun, nofun, trivial⟩,
    ⟨trivial, trivial, trivial, trivial, graph, nofun, number, number, trivial⟩, trivial⟩

def quorumCalls : List SuperviseCall := [⟨.degrade, none, .ok "2026-01-01T00:00:02Z"⟩, ⟨.sandbox, none, .ok "2026-01-01T00:00:03Z"⟩,
  ⟨.reroute, none, .ok "2026-01-01T00:00:04Z"⟩]

theorem supervised_overlays_sound_quorum : ∃ text state,
    superviseAll quorumHost (.live quorumSession emptyLedger quorumDeclaration) quorumCalls = .ok state ∧
    ∃ intervention, state = .supervised intervention quorumSession emptyLedger quorumDeclaration ∧
      intervention.overlayGraph.Sound quorumHost.regexes ∧ ∀ allowTamperedLedger,
        readProtocolState quorumHost text (fun _ => "malformed") "state.json" allowTamperedLedger (some (writeProtocolState text state)) =
          .ok state := by
  obtain ⟨state, called⟩ := @exists_of_toBool _ _
    (superviseAll quorumHost (.live quorumSession emptyLedger quorumDeclaration) quorumCalls) (by decide)
  -- a text layer that reads the text of this state
  have scaled : ScalesWithin quorumGraph defaultDegradationFactor := scalesWithin_of_toList (by decide)
  refine ⟨⟨Json.compact FloatText.ryu, fun input =>
    if input = Json.compact FloatText.ryu (StateJson.protocolState.encode state) then some (StateJson.protocolState.encode state) else none⟩,
    state, called, ?_⟩
  refine supervised_overlays_sound quorumHost _ _ _ _ _ _ _ state quorumGraph_sound quorumGraph_sound quorum_fits ?_ (by decide) called
    fun _ _ => if_pos rfl
  intro done call rest before split reached degrades graph monitorSession ledger declaration directive active parsed
  cases done with
  | nil =>
    obtain ⟨rfl, -⟩ := List.cons.inj split
    obtain rfl := Except.ok.inj reached
    obtain ⟨rfl, -⟩ := Prod.mk.inj (Except.ok.inj active)
    obtain rfl := Except.ok.inj parsed
    exact scaled
  | cons first done =>
    obtain ⟨-, others⟩ := List.cons.inj split
    have tail : quorumCalls.tail = done ++ call :: rest := others
    have listed : call ∈ quorumCalls.tail := tail ▸ List.mem_append_right done List.mem_cons_self
    have other : ∀ call ∈ quorumCalls.tail, call.action ≠ .degrade := by decide
    exact absurd degrades (other call listed)

def quorumOperations : List Operation :=
  [.declare quorumGraph [] (.ok "2026-01-01T00:00:00Z"), .compile (.ok "2026-01-01T00:00:01Z"), .measure [], .activate ⟨60, 60, 0⟩]

/-- The degraded overlay is invalid, and its state is not read back. -/
def unreadable : Except ProtocolError ProtocolState → Bool
  | .ok live => match superviseAll quorumHost live [⟨.degrade, some quorumDirective, .ok "2026-01-01T00:00:02Z"⟩] with
    | .ok (.supervised intervention monitorSession ledger declaration) => decide (live.name = "live") &&
      !(validateGovernanceGraph quorumHost.regexes intervention.overlayGraph).toBool &&
      (StateJson.protocolState.decode (StateJson.protocolState.encode
        (.supervised intervention monitorSession ledger declaration))).isNone
    | _ => false
  | .error _ => false

/-- A factor that is a number scales a threshold out of range: the overlay is refused by the check of graphs, and the state, in which
`null` stands for the threshold, is not read back. -/
theorem degrade_overflows : ∃ live intervention monitorSession ledger declaration,
    run quorumHost quorumOperations = .ok live ∧ live.name = "live" ∧
    superviseAll quorumHost live [⟨.degrade, some quorumDirective, .ok "2026-01-01T00:00:02Z"⟩] =
      .ok (.supervised intervention monitorSession ledger declaration) ∧
    validateGovernanceGraph quorumHost.regexes intervention.overlayGraph ≠ .ok () ∧
    ∀ text describe path allowTamperedLedger,
      text.read (writeProtocolState text (.supervised intervention monitorSession ledger declaration)) =
        some (StateJson.protocolState.encode (.supervised intervention monitorSession ledger declaration)) →
      readProtocolState quorumHost text describe path allowTamperedLedger
          (some (writeProtocolState text (.supervised intervention monitorSession ledger declaration))) =
        .error (.json ("protocol state '" ++ path ++ "'")) := by
  have evaluated : unreadable (run quorumHost quorumOperations) = true := by decide +kernel
  unfold unreadable at evaluated
  split at evaluated
  · rename_i live reached
    split at evaluated
    · rename_i intervention monitorSession ledger declaration degraded
      simp only [Bool.and_eq_true, decide_eq_true_eq, Bool.not_eq_true', Option.isNone_iff_eq_none] at evaluated
      obtain ⟨⟨named, refused⟩, undecoded⟩ := evaluated
      refine ⟨live, intervention, monitorSession, ledger, declaration, reached, named, degraded, ?_, ?_⟩
      · intro valid
        rw [valid] at refused
        cases refused
      · intro text describe path allowTamperedLedger read
        simp only [readProtocolState, read, Option.bind_some, undecoded]
    · cases evaluated
  · cases evaluated

end

end Protocol

end Legitimacy
