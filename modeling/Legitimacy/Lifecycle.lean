import Legitimacy.Operations
import Mathlib.Data.List.Chain

namespace Legitimacy.Protocol

open ExceptRun

/-- The compiled graph and its certificates answer the declaration: the evaluation they come from is that of the declared graph, the
certificates are the measured bounds of its failing properties, and each of them was declared. -/
structure Certified (host : ProtocolHost) (compiledGraph : CompiledGraph) (sacrificeCerts : List SacrificeCertificate)
    (declaration : GovernanceDeclaration) (evaluation : GraphEvaluation) : Prop where
  evaluated : evaluateGraph host.regexes declaration.graph (syntheticClaims declaration.graph) = .ok evaluation
  covered : ∀ property violation, Fails evaluation property violation →
    ∃ cert ∈ sacrificeCerts, cert.property = property ∧ cert.impactBound = violation.actualMagnitude
  measured : ∀ cert ∈ sacrificeCerts, ∃ violation, Fails evaluation cert.property violation ∧
    cert.impactBound = violation.actualMagnitude
  declared : ∀ cert ∈ sacrificeCerts, ∃ sacrifice ∈ declaration.sacrifices, sacrifice.property = cert.property
  graph : compiledGraph.graph = declaration.graph
  verdicts : compiledGraph.axiomVerdicts = evaluation.axiomVerdicts ∧ compiledGraph.strategyproofness = evaluation.strategyproofness
  hash : compiledGraph.compiledRuleHash =
    canonicalCompiledRuleHash host declaration.graph evaluation.axiomVerdicts evaluation.strategyproofness

def Covers (monitorSession : MonitorSession) : Prop :=
  ∀ property, property ∈ monitorSession.monitoredProperties ∨ ∃ cert ∈ monitorSession.sacrificeCerts, cert.property = property

/-- Every certificate carries the hash of the one before it, and the head is the hash of the last. -/
structure Chained (host : ProtocolHost) (ledger : ProtocolLedger) : Prop where
  first : ∀ certificate, ledger.certificates.head? = some certificate → certificate.prevCertHash = none
  linked : ledger.certificates.IsChain fun earlier later => later.prevCertHash = some (certificateHash host earlier)
  head : ledger.headHash = ledger.certificates.getLast?.map (certificateHash host)

structure Monitored (host : ProtocolHost) (monitorSession : MonitorSession) (ledger : ProtocolLedger)
    (declaration : GovernanceDeclaration) : Prop where
  certified : ∃ evaluation, Certified host monitorSession.compiledGraph monitorSession.sacrificeCerts declaration evaluation
  covers : Covers monitorSession
  chained : Chained host ledger

/-- A declared state is about its declaration, and its sacrifices are of properties that fail. -/
structure Admitted (host : ProtocolHost) (graph : GovernanceGraph) (sacrifices : List DeclaredSacrifice)
    (declaration : GovernanceDeclaration) (evaluation : GraphEvaluation) : Prop where
  evaluated : evaluateGraph host.regexes graph (syntheticClaims graph) = .ok evaluation
  violated : ∀ sacrifice ∈ sacrifices, ∃ violation, Fails evaluation sacrifice.property violation
  graph : declaration.graph = graph
  sacrifices : declaration.sacrifices = sacrifices

def Lifecycle (host : ProtocolHost) : ProtocolState → Prop
  | .undeclared => True
  | .declared graph sacrifices declaration => ∃ evaluation, Admitted host graph sacrifices declaration evaluation
  | .compiled compiledGraph sacrificeCerts declaration => ∃ evaluation, Certified host compiledGraph sacrificeCerts declaration evaluation
  | .measured _ _ compiledGraph sacrificeCerts declaration _ =>
    ∃ evaluation, Certified host compiledGraph sacrificeCerts declaration evaluation
  | .live monitorSession ledger declaration => Monitored host monitorSession ledger declaration
  | .supervised intervention monitorSession ledger declaration => Monitored host monitorSession ledger declaration ∧
      intervention.overlayGraphHash = canonicalGraphHash host intervention.overlayGraph
  | .drifted _ monitorSession ledger declaration => Monitored host monitorSession ledger declaration
  -- the state holds no compiled graph of its own, only the declaration of the session it leaves
  | .recompiling _ _ declaration =>
    ∃ compiledGraph sacrificeCerts evaluation, Certified host compiledGraph sacrificeCerts declaration evaluation

section

variable {host : ProtocolHost}

theorem propertyNames_contains {properties : List GovernanceProperty} {property : GovernanceProperty} :
    (propertyNames properties).contains property.asStr = true ↔ property ∈ properties := by
  unfold propertyNames
  rw [contains_foldl_insert]
  constructor
  · rintro (absent | ⟨other, member, same⟩)
    · simp at absent
    · exact GovernanceProperty.asStr_injective same ▸ member
  · intro member
    exact Or.inr ⟨property, member, rfl⟩

theorem propertyFromStr_asStr (property : GovernanceProperty) : propertyFromStr property.asStr = some property := by
  cases property <;> rfl

theorem mem_defaultMonitoredProperties (property : GovernanceProperty) : property ∈ defaultMonitoredProperties := by
  cases property <;> decide

theorem covers_nonSacrificed {monitorSession : MonitorSession}
    (monitors : monitorSession.monitoredProperties = nonSacrificedMonitoringProperties monitorSession.sacrificeCerts) :
    Covers monitorSession := by
  intro property
  by_cases sacrificed : property ∈ monitorSession.sacrificeCerts.map (·.property)
  · right
    simpa using sacrificed
  · left
    have uncertified : (propertyNames (monitorSession.sacrificeCerts.map (·.property))).contains property.asStr ≠ true := fun contained =>
      sacrificed (propertyNames_contains.1 contained)
    rw [monitors, nonSacrificedMonitoringProperties, List.mem_filter]
    exact ⟨mem_defaultMonitoredProperties property, by rw [Bool.eq_false_of_not_eq_true uncertified, Bool.not_false]⟩

theorem declared_of_unsacrificed_nil {violations : BTreeMap String GraphViolation} {sacrifices : List DeclaredSacrifice}
    (sacrificed : (violations.keys.filter fun property =>
      !(propertyNames (sacrifices.map (·.property))).contains property).filterMap propertyFromStr = [])
    {property : GovernanceProperty} {violation : GraphViolation} (violated : violations[property.asStr]? = some violation) :
    ∃ sacrifice ∈ sacrifices, sacrifice.property = property := by
  have listed : property.asStr ∈ violations.keys :=
    Std.ExtTreeMap.mem_keys.2 (mem_iff_lookup.2 ⟨violation, violated⟩)
  by_contra undeclared
  have uncovered : (propertyNames (sacrifices.map (·.property))).contains property.asStr ≠ true := fun contained =>
    undeclared (List.mem_map.1 (propertyNames_contains.1 contained))
  have left : property ∈ (violations.keys.filter fun property =>
      !(propertyNames (sacrifices.map (·.property))).contains property).filterMap propertyFromStr :=
    List.mem_filterMap.2 ⟨property.asStr, List.mem_filter.2 ⟨listed, by rw [Bool.eq_false_of_not_eq_true uncovered, Bool.not_false]⟩,
      propertyFromStr_asStr property⟩
  rw [sacrificed] at left
  cases left

theorem sacrificeCertificate_property (violations : BTreeMap String GraphViolation) (sacrifice : DeclaredSacrifice) :
    (sacrificeCertificate violations sacrifice).property = sacrifice.property := by
  unfold sacrificeCertificate
  split <;> rfl

theorem sacrificeCertificate_impactBound {violations : BTreeMap String GraphViolation} {sacrifice : DeclaredSacrifice}
    {violation : GraphViolation} (violated : violations[sacrifice.property.asStr]? = some violation) :
    (sacrificeCertificate violations sacrifice).impactBound = violation.actualMagnitude := by
  unfold sacrificeCertificate
  rw [violated]

theorem declareWithMetadata_lifecycle {next : ProtocolState} {graph : GovernanceGraph} {sacrifices : List DeclaredSacrifice}
    {graphName graphVersion : String} {now : Except LegitimacyError String}
    (declared : declareWithMetadata host graph sacrifices graphName graphVersion now = .ok next) : Lifecycle host next := by
  obtain ⟨evaluation, declaration, evaluated, violated, sameGraph, sameSacrifices, rfl⟩ := declareWithMetadata_eq_ok declared
  refine ⟨evaluation, evaluated, fun sacrifice member => ?_, sameGraph, sameSacrifices⟩
  obtain ⟨violation, found⟩ := violated sacrifice member
  exact ⟨violation, (violations_eq_some evaluated).1 found⟩

theorem compile_lifecycle {state next : ProtocolState} {now : Except LegitimacyError String} (admitted : Lifecycle host state)
    (compiled : compile host state now = .ok next) : Lifecycle host next := by
  obtain ⟨graph, sacrifices, declaration, evaluation, compiledGraph, rfl, evaluated, sacrificed, sameGraph, verdicts,
      strategyproofness, hash, rfl⟩ :=
    compile_eq_ok compiled
  obtain ⟨earlier, admitted⟩ := admitted
  obtain rfl : earlier = evaluation := Except.ok.inj (admitted.evaluated.symm.trans evaluated)
  have ofGraph := admitted.graph
  subst ofGraph
  refine ⟨earlier, evaluated, fun property violation fails => ?_, fun cert member => ?_, fun cert member => ?_, sameGraph,
    ⟨verdicts, strategyproofness⟩, hash⟩
  · have violated := (violations_eq_some evaluated).2 fails
    obtain ⟨sacrifice, member, rfl⟩ := declared_of_unsacrificed_nil sacrificed violated
    exact ⟨_, List.mem_map.2 ⟨sacrifice, member, rfl⟩, sacrificeCertificate_property _ sacrifice,
      sacrificeCertificate_impactBound violated⟩
  · obtain ⟨sacrifice, listed, rfl⟩ := List.mem_map.1 member
    obtain ⟨violation, fails⟩ := admitted.violated sacrifice listed
    rw [sacrificeCertificate_property]
    exact ⟨violation, fails, sacrificeCertificate_impactBound ((violations_eq_some evaluated).2 fails)⟩
  · obtain ⟨sacrifice, listed, rfl⟩ := List.mem_map.1 member
    rw [sacrificeCertificate_property, admitted.sacrifices]
    exact ⟨sacrifice, listed, rfl⟩

end

section

variable {host : ProtocolHost}

theorem chained_empty : Chained host emptyLedger where
  first _ found := by cases found
  linked := List.IsChain.nil
  head := rfl

theorem Chained.append {ledger : ProtocolLedger} (chained : Chained host ledger) {issued : PromotionCertificate}
    {driftAlerts : List GovernanceDriftAlert} (follows : issued.prevCertHash = ledger.headHash) :
    Chained host ⟨ledger.certificates ++ [issued], driftAlerts, some (certificateHash host issued)⟩ where
  first certificate found := by
    cases certificates : ledger.certificates with
    | nil =>
      simp only [certificates, List.nil_append, List.head?_cons, Option.some_inj] at found
      subst found
      rw [follows, chained.head, certificates]
      rfl
    | cons start rest =>
      simp only [certificates, List.cons_append, List.head?_cons, Option.some_inj] at found
      exact chained.first certificate (by rw [certificates, List.head?_cons, found])
  linked := by
    refine chained.linked.append (List.isChain_singleton issued) fun last isLast certificate isNew => ?_
    obtain rfl : issued = certificate := by simpa using isNew
    rw [follows, chained.head, Option.mem_def.1 isLast]
    rfl
  head := by simp

def ProtocolState.ledger? : ProtocolState → Option ProtocolLedger
  | .live _ ledger _ => some ledger
  | .supervised _ _ ledger _ => some ledger
  | .drifted _ _ ledger _ => some ledger
  | _ => none

structure Grows (before after : ProtocolLedger) : Prop where
  certificates : before.certificates <+: after.certificates
  driftAlerts : before.driftAlerts <+: after.driftAlerts

theorem Grows.refl (ledger : ProtocolLedger) : Grows ledger ledger := ⟨List.prefix_rfl, List.prefix_rfl⟩

theorem Grows.trans {first second third : ProtocolLedger} (earlier : Grows first second) (later : Grows second third) :
    Grows first third :=
  ⟨earlier.certificates.trans later.certificates, earlier.driftAlerts.trans later.driftAlerts⟩

end

section

variable {host : ProtocolHost} {state next : ProtocolState}

theorem activeOverlay_eq_ok {graph : GovernanceGraph} {monitorSession : MonitorSession} {ledger : ProtocolLedger}
    {declaration : GovernanceDeclaration} (active : activeOverlay state = .ok (graph, monitorSession, ledger, declaration)) :
    (state = .live monitorSession ledger declaration ∧ graph = monitorSession.compiledGraph.graph) ∨
      ∃ intervention, state = .supervised intervention monitorSession ledger declaration ∧ graph = intervention.overlayGraph := by
  cases state with
  | live =>
    obtain ⟨rfl, rfl, rfl, rfl⟩ := by simpa [activeOverlay] using active
    exact Or.inl ⟨rfl, rfl⟩
  | supervised intervention =>
    obtain ⟨rfl, rfl, rfl, rfl⟩ := by simpa [activeOverlay] using active
    exact Or.inr ⟨intervention, rfl, rfl⟩
  | _ => cases active

theorem activeOverlay_monitored {graph : GovernanceGraph} {monitorSession : MonitorSession} {ledger : ProtocolLedger}
    {declaration : GovernanceDeclaration} (holds : Lifecycle host state)
    (active : activeOverlay state = .ok (graph, monitorSession, ledger, declaration)) :
    Monitored host monitorSession ledger declaration ∧ state.ledger? = some ledger := by
  rcases activeOverlay_eq_ok active with ⟨rfl, -⟩ | ⟨intervention, rfl, -⟩
  · exact ⟨holds, rfl⟩
  · exact ⟨holds.1, rfl⟩

theorem step_lifecycle {operation : Operation} (holds : Lifecycle host state) (stepped : step host state operation = .ok next) :
    Lifecycle host next := by
  cases operation with
  | declare graph sacrifices now => exact declareWithMetadata_lifecycle stepped
  | compile now => exact compile_lifecycle holds stepped
  | measure representativeClaims =>
    obtain ⟨riskReport, factorExposure, compiledGraph, sacrificeCerts, declaration, rfl, rfl⟩ := measure_eq_ok stepped
    exact holds
  | activate monitorConfig =>
    obtain ⟨riskReport, factorExposure, compiledGraph, sacrificeCerts, declaration, claims, interval, rfl, rfl⟩ :=
      activate_eq_ok stepped
    exact ⟨holds, covers_nonSacrificed rfl, chained_empty⟩
  | checkDecision claim order now =>
    obtain ⟨⟨after, issued⟩, checked, made⟩ := bind_eq_ok.1 stepped
    obtain rfl := Except.ok.inj made
    obtain ⟨monitorSession, ledger, declaration, claims, alerts, rfl, follows, rfl⟩ := checkDecision_eq_ok checked
    exact ⟨holds.certified, holds.covers, holds.chained.append follows⟩
  | reportDrift violation =>
    obtain ⟨monitorSession, ledger, declaration, rfl, rfl⟩ := reportDrift_eq_ok stepped
    exact ⟨holds.certified, holds.covers, holds.chained.first, holds.chained.linked, holds.chained.head⟩
  | supervise action reason now =>
    obtain ⟨graph, monitorSession, ledger, declaration, directive, intervention, active, -, -, hash, -, -, rfl⟩ :=
      supervise_eq_ok stepped
    exact ⟨(activeOverlay_monitored holds active).1, hash⟩
  | proposeRevision newGraph revisedSacrifices =>
    obtain ⟨driftReport, monitorSession, ledger, declaration, rfl, rfl⟩ := proposeRevision_eq_ok stepped
    obtain ⟨evaluation, certified⟩ := holds.certified
    exact ⟨monitorSession.compiledGraph, monitorSession.sacrificeCerts, evaluation, certified⟩
  | recompile declaredAt compiledAt =>
    obtain ⟨proposedGraph, sacrifices, declaration, declared, rfl, made, compiled⟩ := recompile_eq_ok stepped
    exact compile_lifecycle (declareWithMetadata_lifecycle made) compiled

/-- From one state of a session to the next, certificates and drift alerts are only appended. -/
theorem step_grows {operation : Operation} (stepped : step host state operation = .ok next) {before after : ProtocolLedger}
    (earlier : state.ledger? = some before) (later : next.ledger? = some after) : Grows before after := by
  cases operation with
  | declare graph sacrifices now =>
    obtain ⟨evaluation, declaration, -, -, -, -, rfl⟩ := declareWithMetadata_eq_ok stepped
    cases later
  | compile now =>
    obtain ⟨graph, sacrifices, declaration, evaluation, compiledGraph, rfl, -⟩ := compile_eq_ok stepped
    cases earlier
  | measure representativeClaims =>
    obtain ⟨riskReport, factorExposure, compiledGraph, sacrificeCerts, declaration, rfl, rfl⟩ := measure_eq_ok stepped
    cases earlier
  | activate monitorConfig =>
    obtain ⟨riskReport, factorExposure, compiledGraph, sacrificeCerts, declaration, claims, interval, rfl, rfl⟩ :=
      activate_eq_ok stepped
    cases earlier
  | checkDecision claim order now =>
    obtain ⟨⟨result, issued⟩, checked, made⟩ := bind_eq_ok.1 stepped
    obtain rfl := Except.ok.inj made
    obtain ⟨monitorSession, ledger, declaration, claims, alerts, rfl, -, rfl⟩ := checkDecision_eq_ok checked
    obtain rfl := Option.some.inj earlier
    obtain rfl := Option.some.inj later
    exact ⟨List.prefix_append _ _, List.prefix_append _ _⟩
  | reportDrift violation =>
    obtain ⟨monitorSession, ledger, declaration, rfl, rfl⟩ := reportDrift_eq_ok stepped
    obtain rfl := Option.some.inj earlier
    obtain rfl := Option.some.inj later
    exact ⟨List.prefix_rfl, List.prefix_append _ _⟩
  | supervise action reason now =>
    obtain ⟨graph, monitorSession, ledger, declaration, directive, intervention, active, -, -, -, -, -, rfl⟩ :=
      supervise_eq_ok stepped
    obtain rfl := Option.some.inj later
    rcases activeOverlay_eq_ok active with ⟨rfl, -⟩ | ⟨intervention, rfl, -⟩ <;>
      exact Option.some.inj earlier ▸ Grows.refl _
  | proposeRevision newGraph revisedSacrifices =>
    obtain ⟨driftReport, monitorSession, ledger, declaration, rfl, rfl⟩ := proposeRevision_eq_ok stepped
    cases later
  | recompile declaredAt compiledAt =>
    obtain ⟨proposedGraph, sacrifices, declaration, declared, rfl, -, -⟩ := recompile_eq_ok stepped
    cases earlier

/-- The states reached from `start` without leaving its monitoring session. -/
inductive Session (host : ProtocolHost) (start : ProtocolState) : ProtocolState → Prop where
  | start : Session host start start
  | step {middle next : ProtocolState} {operation : Operation} {ledger : ProtocolLedger} (earlier : Session host start middle)
      (stepped : step host middle operation = .ok next) (inside : next.ledger? = some ledger) : Session host start next

theorem Session.grows {start final : ProtocolState} (path : Session host start final) {before : ProtocolLedger}
    (entered : start.ledger? = some before) : ∃ after, final.ledger? = some after ∧ Grows before after := by
  induction path with
  | start => exact ⟨before, entered, Grows.refl before⟩
  | step earlier stepped inside ih =>
    obtain ⟨middle, atMiddle, grown⟩ := ih
    exact ⟨_, inside, grown.trans (step_grows stepped atMiddle inside)⟩

/-- Every state of every run satisfies the lifecycle invariant, and as long as a session lasts its ledger only grows. -/
theorem run_lifecycle (host : ProtocolHost) (operations : List Operation) (state : ProtocolState)
    (reached : run host operations = .ok state) :
    Lifecycle host state ∧ ∀ final before, Session host state final → state.ledger? = some before →
      ∃ after, final.ledger? = some after ∧ Grows before after := by
  refine ⟨?_, fun final before path entered => path.grows entered⟩
  exact foldlM_invariant (fun _ state => Lifecycle host state) (show Lifecycle host .undeclared from trivial)
    (fun done operation rest state next split holds stepped => step_lifecycle holds stepped) reached

def plainHost : ProtocolHost := ⟨.error, fun _ => "e3b0c44298fc1c149afbf4c8996fb92427ae41e4649b934ca495991b7852b855", .error⟩

theorem gate_named : isBlank "gate" = false := by decide

/-- A graph of one node that always decides the same. -/
def soloGraph (decision : Decision) : GovernanceGraph where
  nodes := Std.ExtTreeMap.ofList [(⟨"gate", gate_named⟩, .binary ⟨"gate", gate_named⟩ "gate" [] decision .firstMatch)] compare
  edges := []

def soloClaim : GovernanceClaim := ⟨"agent", 1, none, none, none, none, ∅⟩

theorem walk_in_order (entries : List (String × GraphViolation)) : (id entries).Perm entries := .refl _

def soloOperations (decision : Decision) (sacrifices : List DeclaredSacrifice) : List Operation :=
  [.declare (soloGraph decision) sacrifices (.ok "2026-01-01T00:00:00Z"), .compile (.ok "2026-01-01T00:00:01Z"), .measure [soloClaim],
    .activate ⟨60, 60, 0⟩, .checkDecision soloClaim ⟨id, walk_in_order⟩ (.ok "2026-01-01T00:00:02Z")]

theorem run_lifecycle_refusal : ∃ state, run plainHost (soloOperations .deny [⟨.nonVacuous, "refuses everything", []⟩]) = .ok state ∧
    Lifecycle plainHost state := by
  have passed : (run plainHost (soloOperations .deny [⟨.nonVacuous, "refuses everything", []⟩])).toBool = true := by decide +kernel
  obtain ⟨state, reached⟩ := exists_of_toBool passed
  exact ⟨state, reached, (run_lifecycle plainHost _ state reached).1⟩

end

end Legitimacy.Protocol
