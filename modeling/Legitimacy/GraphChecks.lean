import Legitimacy.OrderProbe

namespace Legitimacy

def debugCharacter (character : Char) : String :=
  if character = '"' then "\\\""
  else if character = '\\' then "\\\\"
  else if character = '\n' then "\\n"
  else if character = '\r' then "\\r"
  else if character = '\t' then "\\t"
  else if character.toNat = 0 then "\\0"
  else if character.toNat < 0x20 ∨ (0x7F ≤ character.toNat ∧ character.toNat < 0xA0) then
    "\\u\x7b" ++ String.ofList (Nat.toDigits 16 character.toNat) ++ "\x7d"
  else character.toString

/-- Rust's `{:?}` of a string; of the unprintable characters, the control characters are escaped. -/
def debugText (value : String) : String := "\"" ++ String.join (value.toList.map debugCharacter) ++ "\""

def debugList (values : List String) : String := "[" ++ ", ".intercalate (values.map debugText) ++ "]"

structure BinaryShock where
  field : String
  delta : Float

structure BinaryDelta where
  field : String
  delta : Float

namespace Diagnostics

def applyFieldDelta (claim : GovernanceClaim) (field : String) (delta : Float) : Except LegitimacyError GovernanceClaim :=
  if field = "strength" then
    let strength := claim.strength + delta
    if ¬strength.isFinite ∨ strength ≤ 0 then .error (.invalidGovernanceStrength claim.claimantId strength)
    else .ok { claim with strength := strength }
  else
    let value := (claim.metrics[field]?).getD 0 + delta
    if ¬value.isFinite then
      .error (.invalidGate field ("delta produced non-finite value for '" ++ claim.claimantId ++ "'"))
    else .ok { claim with metrics := claim.metrics.insert field value }

def convertClaims (claims : List GovernanceClaim) : Except LegitimacyError (List Claim) :=
  claims.mapM fun claim => do
    let converted ← Claim.new claim.claimantId claim.strength
    .ok { converted with metrics := claim.metrics }

def decisionAllocation (claims : List GovernanceClaim) (decisions : BTreeMap ClaimantId Decision) :
    Except LegitimacyError ValidAllocation := do
  let allocation : Allocation := claims.foldl (fun allocation claim =>
    allocation.insert claim.claimantId (decisionRank ((decisions[claim.claimantId]?).getD .escalate)).toFloat) ∅
  let converted ← convertClaims claims
  ValidAllocation.new allocation converted

def graphEstate : Except LegitimacyError Estate := Estate.new 2 "binary-decision-rank"

/-- The claimants of each priority class with more than one member; a claim without a class is its own. -/
def sameClassGroups (claims : List GovernanceClaim) : List (List ClaimantId) :=
  let groups : BTreeMap String (List ClaimantId) := claims.foldl (fun groups claim =>
    let className := claim.priorityClass.getD claim.claimantId
    groups.insert className ((groups[className]?).getD [] ++ [claim.claimantId])) ∅
  (groups.toList.map (·.2)).filter fun group => group.length > 1

def decisionDirection (before after : Decision) : Int :=
  if decisionRank after < decisionRank before then -1
  else if decisionRank after = decisionRank before then 0
  else 1

def decisionOf (decisions : BTreeMap ClaimantId Decision) (claimantId : ClaimantId) (context : String) :
    Except LegitimacyError Decision :=
  match decisions[claimantId]? with
  | some decision => .ok decision
  | none => .error (.missingAllocationShare claimantId context)

theorem decisionOf_eq_ok {decisions : BTreeMap ClaimantId Decision} {claimantId : ClaimantId} {context : String} {decision : Decision}
    (found : decisionOf decisions claimantId context = .ok decision) : decisions[claimantId]? = some decision := by
  unfold decisionOf at found
  split at found
  · next known => exact known.trans (congrArg some (Except.ok.inj found))
  · cases found

/-- The unperturbed side of a graph check. -/
structure Baseline where
  decisions : BTreeMap ClaimantId Decision
  allocation : ValidAllocation
  claims : List Claim
  estate : Estate

def baseline (regexes : RegexEngine) (graph : GovernanceGraph) (claims : List GovernanceClaim) :
    Except LegitimacyError Baseline := do
  let decisions ← traverseFinalDecisions regexes graph claims
  let allocation ← decisionAllocation claims decisions
  let converted ← convertClaims claims
  let estate ← graphEstate
  .ok ⟨decisions, allocation, converted, estate⟩

def rejection (original : Baseline) (description : String) (perturbedClaims : List GovernanceClaim)
    (perturbedAllocation : ValidAllocation) (violation : String) : Except LegitimacyError Counterexample := do
  let converted ← convertClaims perturbedClaims
  .ok {
    description := description
    originalClaims := original.claims
    originalEstate := original.estate
    originalAllocation := original.allocation
    perturbedClaims := converted
    perturbedEstate := original.estate
    perturbedAllocation := perturbedAllocation
    violation := violation }

def firstChange (before after : BTreeMap ClaimantId Decision) (beforeContext afterContext : String) (changed : Decision → Decision → Bool) :
    List ClaimantId → Except LegitimacyError (Option (ClaimantId × Decision × Decision))
  | [] => .ok none
  | claimantId :: rest => do
    let first ← decisionOf before claimantId beforeContext
    let second ← decisionOf after claimantId afterContext
    if changed first second then .ok (some (claimantId, first, second))
    else firstChange before after beforeContext afterContext changed rest

def consistencyLoop (regexes : RegexEngine) (graph : GovernanceGraph) (claims : List GovernanceClaim) (original : Baseline) :
    List (GovernanceClaim × Nat) → Nat → Except LegitimacyError Verdict
  | [], perturbationsTested => .ok (.admissible "graph consistency" perturbationsTested)
  | (removed, removedIndex) :: rest, perturbationsTested => do
    let reducedClaims := claims.eraseIdx removedIndex
    let reducedDecisions ← traverseFinalDecisions regexes graph reducedClaims
    let reducedAllocation ← decisionAllocation reducedClaims reducedDecisions
    let change ← firstChange original.decisions reducedDecisions "graph consistency original lookup"
      "graph consistency reduced lookup" (fun before after => before ≠ after) (reducedClaims.map (·.claimantId))
    match change with
    | some (claimantId, before, after) => do
      let counterexample ← rejection original
        ("Removing claimant '" ++ removed.claimantId ++ "' changed '" ++ claimantId ++ "' from " ++ before.debug ++ " to " ++ after.debug)
        reducedClaims reducedAllocation
        ("The composed graph depends on '" ++ removed.claimantId ++
          "' being present. Removing one claimant changed an unrelated claimant's final exit decision.")
      .ok (.rejected "graph consistency" counterexample)
    | none => consistencyLoop regexes graph claims original rest (perturbationsTested + 1)

def checkGraphConsistency (regexes : RegexEngine) (graph : GovernanceGraph) (claims : List GovernanceClaim) :
    Except LegitimacyError Verdict := do
  let original ← baseline regexes graph claims
  consistencyLoop regexes graph claims original claims.zipIdx 0

def groupMovement (before after : BTreeMap ClaimantId Decision) : List ClaimantId → Bool × Bool → Except LegitimacyError (Bool × Bool)
  | [], movement => .ok movement
  | claimantId :: rest, (sawImprovement, sawWorsening) => do
    let first ← decisionOf before claimantId "graph solidarity original lookup"
    let second ← decisionOf after claimantId "graph solidarity shocked lookup"
    groupMovement before after rest
      (sawImprovement || decisionDirection first second == 1, sawWorsening || decisionDirection first second == -1)

def splitGroup (before after : BTreeMap ClaimantId Decision) (known : List ClaimantId) :
    List (List ClaimantId) → Except LegitimacyError (Option (List ClaimantId))
  | [] => .ok none
  | group :: rest => do
    let (sawImprovement, sawWorsening) ← groupMovement before after (group.filter (· ∈ known)) (false, false)
    if sawImprovement && sawWorsening then .ok (some group) else splitGroup before after known rest

def solidarityLoop (regexes : RegexEngine) (graph : GovernanceGraph) (claims : List GovernanceClaim) (original : Baseline) :
    List BinaryShock → Nat → Except LegitimacyError Verdict
  | [], perturbationsTested => .ok (.admissible "graph solidarity" perturbationsTested)
  | shock :: rest, perturbationsTested =>
    if ¬shock.delta.isFinite ∨ shock.delta == 0 then solidarityLoop regexes graph claims original rest perturbationsTested
    else do
      let shockedClaims ← claims.mapM fun claim => applyFieldDelta claim shock.field shock.delta
      let shockedDecisions ← traverseFinalDecisions regexes graph shockedClaims
      let shockedAllocation ← decisionAllocation shockedClaims shockedDecisions
      let split ← splitGroup original.decisions shockedDecisions (claimantIds claims) (sameClassGroups claims)
      match split with
      | some group => do
        let counterexample ← rejection original
          ("Common shock on '" ++ shock.field ++ "' split priority class " ++ debugList group ++ " into winners and losers")
          shockedClaims shockedAllocation
          ("A shared entry shock produced opposite exit movements inside one priority class. The composed graph created " ++
            "accidental winners and losers.")
        .ok (.rejected "graph solidarity" counterexample)
      | none => solidarityLoop regexes graph claims original rest (perturbationsTested + 1)

def checkGraphSolidarity (regexes : RegexEngine) (graph : GovernanceGraph) (claims : List GovernanceClaim) (shocks : List BinaryShock) :
    Except LegitimacyError Verdict := do
  let original ← baseline regexes graph claims
  solidarityLoop regexes graph claims original shocks 0

inductive AuditMetricPolarity where
  | higherBetter
  | lowerBetter
  | diagnosticPresence

def auditMetricPolaritySchema : List (String × AuditMetricPolarity) := [
  ("approval_forbidden", .lowerBetter), ("approval_not_found", .lowerBetter), ("block_reason", .lowerBetter),
  ("blocked_context", .lowerBetter), ("combined_untrusted_suspicion", .lowerBetter), ("blocked", .lowerBetter),
  ("dangerous_keyword", .lowerBetter), ("dangerous_pattern", .lowerBetter), ("dangerous_user_approved", .lowerBetter),
  ("dangerous_user_rejected", .lowerBetter), ("dangerous_without_ui", .lowerBetter), ("deployment_context", .lowerBetter),
  ("hook_invalid_or_unsupported", .lowerBetter), ("latency", .lowerBetter), ("monitor_validation_failure", .lowerBetter),
  ("paradox_risk", .lowerBetter), ("policyblocked", .lowerBetter), ("policy_strictness", .lowerBetter), ("risk", .lowerBetter),
  ("trusted_edit_band_suspicion", .lowerBetter), ("trusted_edit_top2_suspicion", .lowerBetter),
  ("trusted_suspicion", .lowerBetter), ("trusted_suspicion_defer_band", .lowerBetter),
  ("trusted_suspicion_top2", .lowerBetter), ("test_failure", .lowerBetter), ("upfront_audit_window", .lowerBetter),
  ("after_hook", .higherBetter), ("allowacrossproviders", .higherBetter), ("allowcrosscontextsend", .higherBetter),
  ("allowed", .higherBetter), ("alloweddecisions", .higherBetter), ("allowfinalsymlink", .higherBetter),
  ("allowlist", .higherBetter), ("allowlist_match", .higherBetter), ("allowlistsatisfied", .higherBetter),
  ("allowpluginfallback", .higherBetter), ("allowskillpreludeatindex", .higherBetter), ("allowskills", .higherBetter),
  ("allowunsafereplay", .higherBetter), ("allowwithinprovider", .higherBetter), ("agent_id", .higherBetter),
  ("approval", .higherBetter), ("approval_policy", .higherBetter), ("approval_required", .diagnosticPresence),
  ("approvalcommandid", .higherBetter), ("approvalid", .higherBetter), ("approvalkind", .higherBetter),
  ("approvalslug", .higherBetter), ("approved", .higherBetter), ("approvedforsession", .higherBetter),
  ("analysis_ok", .higherBetter), ("audit_recorded", .higherBetter), ("audit_signal", .higherBetter),
  ("available", .higherBetter), ("base_authorization", .higherBetter), ("baseline", .higherBetter),
  ("baseline_allow", .higherBetter), ("before_hook", .higherBetter), ("block_threshold", .higherBetter),
  ("checkpoint_written", .higherBetter), ("claude_md_always_execute", .higherBetter), ("completed_turn", .higherBetter),
  ("consequential", .higherBetter), ("content_length", .higherBetter), ("deny_signal", .diagnosticPresence),
  ("denied", .diagnosticPresence), ("diversity", .higherBetter), ("durable_trust", .higherBetter),
  ("escalated", .diagnosticPresence), ("escalate_signal", .diagnosticPresence), ("executed", .higherBetter),
  ("execution_skipped", .diagnosticPresence), ("fallback_selected", .higherBetter), ("file_edit", .higherBetter),
  ("full_access", .higherBetter), ("hook", .higherBetter), ("hook_blocks", .higherBetter), ("hook_event_name", .higherBetter),
  ("hook_registration", .higherBetter), ("hook_registration:BeforeToolCall", .higherBetter),
  ("hook_registration:CodeExecutorApproval", .higherBetter), ("hook_registration:DialoguePolicy", .higherBetter),
  ("hook_registration:InterruptBeforeTool", .higherBetter), ("hook_registration:PreToolUse", .higherBetter),
  ("hook_run_is_quiet_success", .higherBetter), ("human_resume_required", .diagnosticPresence),
  ("human_review", .higherBetter), ("interrupt", .higherBetter), ("invocation_id", .higherBetter), ("listed", .higherBetter),
  ("maxTurns", .higherBetter), ("memory_id", .higherBetter), ("most_common_answer_score", .higherBetter),
  ("needs_approval", .diagnosticPresence), ("observation_id", .higherBetter), ("permission", .higherBetter),
  ("permission_mode", .higherBetter), ("permissiongrantscope", .higherBetter), ("permissions", .higherBetter),
  ("patch_applied", .higherBetter), ("peer_relative", .higherBetter), ("policy", .higherBetter), ("policy_cwd", .higherBetter),
  ("policy_for_chat", .higherBetter), ("policy_match", .higherBetter), ("policy_rule_matched", .higherBetter),
  ("permit_signal", .higherBetter), ("primary_failed", .diagnosticPresence), ("profile_restricted", .higherBetter),
  ("record_id", .higherBetter), ("refusal_emitted", .diagnosticPresence), ("reviewdecision", .higherBetter),
  ("runtime_roots_readable", .higherBetter), ("sandbox", .higherBetter), ("sandbox_policy", .higherBetter),
  ("sandbox_setup_is_complete", .higherBetter), ("sandboxpolicy", .higherBetter), ("sandboxed", .higherBetter),
  ("sanitize_context", .higherBetter), ("scarcity_bonus", .higherBetter), ("security_allowlist", .higherBetter),
  ("sensitive_path", .higherBetter), ("skip_exec_approval", .diagnosticPresence), ("solve_directly", .higherBetter),
  ("specialization_floor", .higherBetter), ("specialization_penalty", .higherBetter), ("stdout_taken_over", .higherBetter),
  ("strength", .higherBetter), ("task_id", .higherBetter), ("tests_run", .higherBetter), ("tool_call", .higherBetter),
  ("tool_ready", .higherBetter), ("tool_name", .higherBetter), ("training_context", .higherBetter),
  ("unsafe_intent", .diagnosticPresence), ("word_count", .higherBetter)]

def polarityFor (schema : List (String × AuditMetricPolarity)) (field : String) : Option AuditMetricPolarity :=
  schema.findSome? fun (candidate, polarity) => if candidate = field then some polarity else none

/-- Strengthens the claimants one after the other along one field. -/
def strengtheningLoop (regexes : RegexEngine) (graph : GovernanceGraph) (claims : List GovernanceClaim) (original : Baseline)
    (delta : BinaryDelta) (improvementDelta : Float) : List (GovernanceClaim × Nat) → Except LegitimacyError (Option Counterexample)
  | [] => .ok none
  | (strengthened, index) :: rest => do
    let strengthenedClaims ← claims.zipIdx.mapM fun (claim, claimIndex) =>
      if claimIndex = index then applyFieldDelta claim delta.field improvementDelta else .ok claim
    let strengthenedDecisions ← traverseFinalDecisions regexes graph strengthenedClaims
    let strengthenedAllocation ← decisionAllocation strengthenedClaims strengthenedDecisions
    let change ← firstChange original.decisions strengthenedDecisions "graph monotonicity original lookup"
      "graph monotonicity strengthened lookup" (fun before after => decisionDirection before after < 0) (claimantIds claims)
    match change with
    | some (claimantId, before, after) => do
      let counterexample ← rejection original
        ("Improving '" ++ strengthened.claimantId ++ "' on '" ++ delta.field ++ "' by " ++ FloatText.fixed 2 delta.delta ++
          " worsened '" ++ claimantId ++ "' from " ++ before.debug ++ " to " ++ after.debug)
        strengthenedClaims strengthenedAllocation
        ("Schema-aware improvement of '" ++ strengthened.claimantId ++ "' changed the composed graph so that '" ++ claimantId ++
          "' became strictly worse at the exit node.")
      .ok (some counterexample)
    | none => strengtheningLoop regexes graph claims original delta improvementDelta rest

def monotonicityLoop (regexes : RegexEngine) (graph : GovernanceGraph) (claims : List GovernanceClaim)
    (schema : List (String × AuditMetricPolarity)) (original : Baseline) : List BinaryDelta → Nat → Except LegitimacyError Verdict
  | [], perturbationsTested => .ok (.admissible "graph monotonicity" perturbationsTested)
  | delta :: rest, perturbationsTested =>
    if ¬delta.delta.isFinite ∨ delta.delta ≤ 0 then monotonicityLoop regexes graph claims schema original rest perturbationsTested
    else
      let strengthen (improvementDelta : Float) : Except LegitimacyError Verdict := do
        match ← strengtheningLoop regexes graph claims original delta improvementDelta claims.zipIdx with
        | some counterexample => .ok (.rejected "graph monotonicity" counterexample)
        | none => monotonicityLoop regexes graph claims schema original rest (perturbationsTested + claims.length)
      match polarityFor schema delta.field with
      | some .higherBetter => strengthen delta.delta
      | some .lowerBetter => strengthen (-delta.delta)
      | some .diagnosticPresence => monotonicityLoop regexes graph claims schema original rest perturbationsTested
      | none =>
        .error (.invalidGate delta.field ("metric field '" ++ delta.field ++ "' has no schema polarity annotation"))

def monotonicityCheckViaPolaritySchema (regexes : RegexEngine) (graph : GovernanceGraph) (claims : List GovernanceClaim)
    (deltas : List BinaryDelta) (schema : List (String × AuditMetricPolarity)) : Except LegitimacyError Verdict := do
  let original ← baseline regexes graph claims
  monotonicityLoop regexes graph claims schema original deltas 0

end Diagnostics

def epsilon : Float := 1e-9

def misreportFactors : List Float := [0.5, 0.8, 1.2, 1.5, 2.0]

structure StrategyproofnessWitness where
  claimant : ClaimantId
  trueStrength : Float
  reported : Float
  trueAlloc : Float
  manipulatedAlloc : Float

inductive StrategyproofnessVerdict where
  | strategyproof
  | manipulable (claimant : ClaimantId) (trueStrength reported trueAlloc manipulatedAlloc : Float)

def StrategyproofnessVerdict.witness : StrategyproofnessVerdict → Option StrategyproofnessWitness
  | .strategyproof => none
  | .manipulable claimant trueStrength reported trueAlloc manipulatedAlloc =>
    some ⟨claimant, trueStrength, reported, trueAlloc, manipulatedAlloc⟩

def StrategyproofnessVerdict.exposure (verdict : StrategyproofnessVerdict) : Float := if verdict.witness.isSome then 1 else 0

def finalDecisionScores (decisions : BTreeMap ClaimantId Decision) : BTreeMap ClaimantId Float :=
  decisions.map fun _ decision => (decisionRank decision).toFloat

def scoreFor (scores : BTreeMap ClaimantId Float) (claimantId : ClaimantId) (context : String) : Except LegitimacyError Float :=
  match scores[claimantId]? with
  | some score => .ok score
  | none => .error (.missingAllocationShare claimantId context)

def strictlyImproves (candidate base : Float) : Bool :=
  let tolerance := epsilon + epsilon * (candidate.abs + base.abs)
  base + tolerance < candidate

def misreportLoop (regexes : RegexEngine) (graph : GovernanceGraph) (claims : List GovernanceClaim) (claim : GovernanceClaim)
    (index : Nat) (trueAlloc : Float) : List Float → Except LegitimacyError (Option StrategyproofnessVerdict)
  | [] => .ok none
  | factor :: rest => do
    let reported := claim.strength * factor
    let manipulatedClaims := claims.zipIdx.map fun (candidate, candidateIndex) =>
      if candidateIndex = index then { candidate with strength := reported } else candidate
    let manipulated ← traverse regexes graph manipulatedClaims
    let manipulatedAlloc ← scoreFor (finalDecisionScores manipulated.finalDecisions) claim.claimantId "strategyproofness misreport"
    if strictlyImproves manipulatedAlloc trueAlloc then
      .ok (some (.manipulable claim.claimantId claim.strength reported trueAlloc manipulatedAlloc))
    else misreportLoop regexes graph claims claim index trueAlloc rest

def manipulationLoop (regexes : RegexEngine) (graph : GovernanceGraph) (claims : List GovernanceClaim)
    (baselineScores : BTreeMap ClaimantId Float) : List (GovernanceClaim × Nat) → Except LegitimacyError StrategyproofnessVerdict
  | [] => .ok .strategyproof
  | (claim, index) :: rest => do
    let trueAlloc ← scoreFor baselineScores claim.claimantId "strategyproofness baseline"
    match ← misreportLoop regexes graph claims claim index trueAlloc misreportFactors with
    | some verdict => .ok verdict
    | none => manipulationLoop regexes graph claims baselineScores rest

def checkGraphStrategyproofnessVerdict (regexes : RegexEngine) (graph : GovernanceGraph) (claims : List GovernanceClaim) :
    Except LegitimacyError StrategyproofnessVerdict := do
  let baseline ← traverse regexes graph claims
  manipulationLoop regexes graph claims (finalDecisionScores baseline.finalDecisions) claims.zipIdx

namespace Diagnostics

def kernelRejection (kernelAxiom : KernelAxiom) (claims : List GovernanceClaim) (original perturbed : BTreeMap ClaimantId Decision)
    (description violation : String) : Except LegitimacyError AxiomVerdict := do
  let originalClaims ← convertClaims claims
  let originalEstate ← graphEstate
  let originalAllocation ← decisionAllocation claims original
  let perturbedAllocation ← decisionAllocation claims perturbed
  .ok (.fail kernelAxiom description {
    description := description
    originalClaims := originalClaims
    originalEstate := originalEstate
    originalAllocation := originalAllocation
    perturbedClaims := originalClaims
    perturbedEstate := originalEstate
    perturbedAllocation := perturbedAllocation
    violation := violation })

end Diagnostics

def cyclicSkip : String := "cyclic graphs are handled by cycle and nonvacuity probes"

def checkGraphCertifiability (regexes : RegexEngine) (graph : GovernanceGraph) (claims : List GovernanceClaim) :
    Except LegitimacyError AxiomVerdict := do
  let cycles ← detectCycles graph
  if cycles ≠ [] then .ok (.skipped .certifiable cyclicSkip)
  else if graph.nodes.isEmpty then
    Diagnostics.kernelRejection .certifiable claims ∅ ∅ "graph has no governance nodes to replay"
      "CERTIFIABLE requires a finite replay certificate for audited graph decisions"
  else do
    validateGovernanceGraph regexes graph
    let traversal ← traverse regexes graph claims
    let missing := (claims.filter fun claim => !traversal.finalDecisions.contains claim.claimantId).map (·.claimantId)
    if missing ≠ [] then
      Diagnostics.kernelRejection .certifiable claims traversal.finalDecisions traversal.finalDecisions
        ("graph traversal produced no replayable final decision for " ++ ", ".intercalate missing)
        "CERTIFIABLE requires every governed claim to have a replayable final decision"
    else
      let replaySteps := (traversal.nodeDecisions.toList.map fun entry => entry.2.length).sum
      .ok (.pass .certifiable (replaySteps + claims.length))

def constantOverrideGraph (graph : GovernanceGraph) (decision : Decision) : GovernanceGraph where
  nodes := graph.nodes.map fun id _ => .binary id ("supervisory-override-" ++ id.asStr) [] decision .firstMatch
  edges := graph.edges.map fun edge => { edge with transform := .passThrough }

def checkGraphCorrigibility (regexes : RegexEngine) (graph : GovernanceGraph) (claims : List GovernanceClaim) :
    Except LegitimacyError AxiomVerdict := do
  let cycles ← detectCycles graph
  if cycles ≠ [] then .ok (.skipped .corrigible cyclicSkip)
  else if graph.nodes.isEmpty then
    Diagnostics.kernelRejection .corrigible claims ∅ ∅ "graph has no governance nodes for supervisory override"
      "CORRIGIBLE requires a nonempty graph surface that can be paused, denied, or permitted"
  else do
    let _ ← traverse regexes (constantOverrideGraph graph .escalate) claims
    let _ ← traverse regexes (constantOverrideGraph graph .deny) claims
    let _ ← traverse regexes (constantOverrideGraph graph .permit) claims
    .ok (.pass .corrigible 3)

def terminalNodes (graph : GovernanceGraph) : List NodeId :=
  graph.nodes.keys.filter fun node => node ∉ graph.edges.map (·.fromNode)

def sinkName (index : Nat) : String := "__kernel_compositional_append_" ++ toString index

/-- The first free sink name among the first `nodes + 1`, or the fallback name. -/
def freshSinkId (graph : GovernanceGraph) : Except LegitimacyError NodeId := do
  let candidates ← (List.range (graph.nodes.size + 1)).mapM fun index => NodeId.new (sinkName index)
  match candidates.find? fun candidate => !graph.nodes.contains candidate with
  | some candidate => .ok candidate
  | none => NodeId.new "__kernel_compositional_append_fallback"

def appendPermissiveStage (graph : GovernanceGraph) : Except LegitimacyError GovernanceGraph := do
  let sink ← freshSinkId graph
  .ok {
    nodes := graph.nodes.insert sink (.binary sink "kernel-compositional-permit-suffix" [] .permit .firstMatch)
    edges := graph.edges ++ (terminalNodes graph).map fun source => ⟨source, sink, .passThrough⟩ }

def checkGraphCompositionalSafety (regexes : RegexEngine) (graph : GovernanceGraph) (claims : List GovernanceClaim) :
    Except LegitimacyError AxiomVerdict := do
  let cycles ← detectCycles graph
  if cycles ≠ [] then .ok (.skipped .compositionalSafety cyclicSkip)
  else if graph.nodes.isEmpty then .ok (.skipped .compositionalSafety "empty graph has no denied decision surface to extend")
  else do
    let original ← traverseFinalDecisions regexes graph claims
    let appendedGraph ← appendPermissiveStage graph
    let appended ← traverseFinalDecisions regexes appendedGraph claims
    let after (claim : GovernanceClaim) : Decision := (appended[claim.claimantId]?).getD .escalate
    match claims.find? fun claim => (original[claim.claimantId]?).getD .escalate = .deny ∧ after claim ≠ .deny with
    | some claim =>
      Diagnostics.kernelRejection .compositionalSafety claims original appended
        ("appending a permissive governance stage changed '" ++ claim.claimantId ++ "' from Deny to " ++ (after claim).debug)
        "COMPOSITIONAL SAFETY requires denied claims to remain denied under graph extension"
    | none => .ok (.pass .compositionalSafety claims.length)

def nonterminalClaimants (claims : List GovernanceClaim) (decisions : BTreeMap ClaimantId Decision) : List ClaimantId :=
  sorted ((claims.filter fun claim => (decisions[claim.claimantId]?).getD .escalate = .escalate).map (·.claimantId))

def zeroDecisionAllocation (claims : List GovernanceClaim) : Except LegitimacyError ValidAllocation := do
  let converted ← convertGovernanceClaims claims
  ValidAllocation.new (claims.foldl (fun allocation claim => allocation.insert claim.claimantId 0) ∅) converted

def nonvacuityLivenessAllocation (claims : List GovernanceClaim) (nonterminal : List ClaimantId) :
    Except LegitimacyError ValidAllocation := do
  let stuck : BTreeSet ClaimantId := nonterminal.foldl (fun stuck claimantId => stuck.insert claimantId) ∅
  let stuckFraction : Float := if claims.isEmpty then 0 else stuck.size.toFloat / claims.length.toFloat
  let converted ← convertGovernanceClaims claims
  ValidAllocation.new (claims.foldl (fun allocation claim =>
    allocation.insert claim.claimantId (if stuck.contains claim.claimantId then stuckFraction else 0)) ∅) converted

def nonvacuityRejection (claims : List GovernanceClaim) (description violation : String) (nonterminal : List ClaimantId) :
    Except LegitimacyError AxiomVerdict := do
  let originalClaims ← convertGovernanceClaims claims
  let estate ← Estate.new 1 "decision"
  let originalAllocation ← zeroDecisionAllocation claims
  let perturbedAllocation ← nonvacuityLivenessAllocation claims nonterminal
  .ok (.fail .nonVacuous description {
    description := description
    originalClaims := originalClaims
    originalEstate := estate
    originalAllocation := originalAllocation
    perturbedClaims := originalClaims
    perturbedEstate := estate
    perturbedAllocation := perturbedAllocation
    violation := violation })

/-- The check without cycle probes, as the protocol calls it. -/
def checkGraphNonvacuity (regexes : RegexEngine) (graph : GovernanceGraph) (claims : List GovernanceClaim) :
    Except LegitimacyError AxiomVerdict :=
  if graph.nodes.isEmpty then
    nonvacuityRejection claims "graph has no governance nodes"
      "NON-VACUOUS requires a nonempty governance graph with at least one permitting disposition" []
  else do
    let traversal ← traverse regexes graph claims
    let nonterminal := nonterminalClaimants claims traversal.finalDecisions
    if nonterminal ≠ [] then
      nonvacuityRejection claims
        (toString nonterminal.length ++ " examined claims remained in Escalate after traversal: " ++ ", ".intercalate nonterminal)
        "NON-VACUOUS requires every governed claim to reach a terminal Permit or Deny disposition" nonterminal
    else if claims.any fun claim => traversal.finalDecisions[claim.claimantId]? = some .permit then
      .ok (.pass .nonVacuous claims.length)
    else
      nonvacuityRejection claims "all examined claims reached Deny; the graph refused every governed claim"
        "NON-VACUOUS requires at least one examined claim to reach Permit" []

/-- A kernel verdict in the older shape; a skip has none. -/
def AxiomVerdict.toVerdict : AxiomVerdict → Option Verdict
  | .pass kernelAxiom perturbationsTested => some (.admissible kernelAxiom.graphAxiomName perturbationsTested)
  | .fail kernelAxiom _ witness => some (.rejected kernelAxiom.graphAxiomName witness)
  | .skipped .. => none

end Legitimacy
