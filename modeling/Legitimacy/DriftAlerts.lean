import Legitimacy.Lifecycle
import Legitimacy.Monitor

namespace Legitimacy.Protocol

open ExceptRun

section

theorem maxFloat_isBound {left right : Float} (leftBound : isBound left = true) (rightBound : isBound right = true) :
    isBound (Spectral.maxFloat left right) = true := by
  unfold Spectral.maxFloat
  split_ifs <;> assumption

theorem counterexampleMagnitude_isBound {counterexample : Counterexample} (measurable : Measurable counterexample) :
    isBound (counterexampleMagnitude counterexample) = true := by
  unfold counterexampleMagnitude
  refine List.foldlRecOn (motive := fun magnitude => isBound magnitude = true) _ _ (by decide +kernel) fun magnitude bound entry listed => ?_
  obtain ⟨claimantId, before⟩ := entry
  have known := Std.ExtTreeMap.mem_toList_iff_getElem?_eq_some.1 listed
  cases atAfter : counterexample.perturbedAllocation.allocation[claimantId]? with
  | none => simpa only [atAfter] using bound
  | some after =>
    have finite := measurable claimantId before after known atAfter
    simp only [atAfter]
    refine maxFloat_isBound bound ?_
    simp [isBound, finite, FloatOrder.not_abs_lt_zero]

def RankManipulation (verdict : StrategyproofnessVerdict) : Prop :=
  ∀ witness, verdict.witness = some witness → (witness.trueAlloc = 0 ∨ witness.trueAlloc = 1 ∨ witness.trueAlloc = 2) ∧
    (witness.manipulatedAlloc = 0 ∨ witness.manipulatedAlloc = 1 ∨ witness.manipulatedAlloc = 2)

variable {regexes : RegexEngine} {graph : GovernanceGraph} {claims : List GovernanceClaim}

theorem scoreFor_rank {decisions : BTreeMap ClaimantId Decision} {claimantId : ClaimantId} {context : String} {score : Float}
    (found : scoreFor (finalDecisionScores decisions) claimantId context = .ok score) : score = 0 ∨ score = 1 ∨ score = 2 := by
  unfold scoreFor at found
  split at found
  · next known atClaimant =>
    obtain rfl := Except.ok.inj found
    unfold finalDecisionScores at atClaimant
    rw [Std.ExtTreeMap.getElem?_map] at atClaimant
    obtain ⟨decision, -, rfl⟩ := Option.map_eq_some_iff.1 atClaimant
    exact decisionRank_share decision
  · cases found

theorem misreportLoop_ranks {claim : GovernanceClaim} {index : Nat} {trueAlloc : Float}
    (rank : trueAlloc = 0 ∨ trueAlloc = 1 ∨ trueAlloc = 2) {factors : List Float} {verdict : StrategyproofnessVerdict}
    (searched : misreportLoop regexes graph claims claim index trueAlloc factors = .ok (some verdict)) : RankManipulation verdict := by
  induction factors with
  | nil => cases Except.ok.inj searched
  | cons factor rest ih =>
    unfold misreportLoop at searched
    obtain ⟨manipulated, -, searched⟩ := bind_eq_ok.1 searched
    obtain ⟨manipulatedAlloc, scored, searched⟩ := bind_eq_ok.1 searched
    split at searched
    · obtain rfl := Option.some.inj (Except.ok.inj searched)
      intro witness found
      obtain rfl := Option.some.inj found
      exact ⟨rank, scoreFor_rank scored⟩
    · exact ih searched

theorem manipulationLoop_ranks {decisions : BTreeMap ClaimantId Decision} {indexed : List (GovernanceClaim × Nat)}
    {verdict : StrategyproofnessVerdict}
    (searched : manipulationLoop regexes graph claims (finalDecisionScores decisions) indexed = .ok verdict) : RankManipulation verdict := by
  induction indexed with
  | nil =>
    obtain rfl := Except.ok.inj searched
    intro witness found
    cases found
  | cons entry rest ih =>
    unfold manipulationLoop at searched
    obtain ⟨trueAlloc, scored, searched⟩ := bind_eq_ok.1 searched
    obtain ⟨found, misreported, searched⟩ := bind_eq_ok.1 searched
    cases found with
    | none => exact ih searched
    | some manipulable =>
      obtain rfl := Except.ok.inj searched
      exact misreportLoop_ranks (scoreFor_rank scored) misreported

theorem violation_isBound {evaluation : GraphEvaluation} (evaluated : evaluateGraph regexes graph claims = .ok evaluation)
    {property : GovernanceProperty} {violation : GraphViolation} (violated : evaluation.violations[property.asStr]? = some violation) :
    isBound violation.actualMagnitude = true := by
  obtain ⟨checked, truthful, -⟩ := evaluateGraph_checked evaluated
  cases (violations_eq_some evaluated).1 violated with
  | rejected listed named =>
    obtain ⟨name, -, verdict⟩ := exists_partner checked.flip listed
    exact counterexampleMagnitude_isBound verdict.measurable
  | manipulable found =>
    obtain ⟨baseline, -, searched⟩ := bind_eq_ok.1 truthful
    obtain ⟨truly, manipulated⟩ := manipulationLoop_ranks searched _ found
    simp [isBound, rank_distance manipulated truly, FloatOrder.not_abs_lt_zero]

end

section

variable {certs : List SacrificeCertificate}

theorem nodup_of_size {values : List String} {start : BTreeSet String}
    (size : (values.foldl (fun set value => set.insert value) start).size = start.size + values.length) : values.Nodup ∧
      ∀ value ∈ values, value ∉ start := by
  induction values generalizing start with
  | nil => exact ⟨List.nodup_nil, fun value listed => absurd listed List.not_mem_nil⟩
  | cons value rest ih =>
    rw [List.foldl_cons, List.length_cons] at size
    have later := size_foldl_insert_le rest (start.insert value)
    have fresh : value ∉ start := by
      intro known
      have same : (start.insert value).size = start.size := by
        rw [Std.ExtTreeSet.size_insert, if_pos (Std.ExtTreeSet.contains_iff_mem.2 known)]
      omega
    have larger : (start.insert value).size = start.size + 1 := by
      rw [Std.ExtTreeSet.size_insert, if_neg fun known => fresh (Std.ExtTreeSet.contains_iff_mem.1 known)]
    obtain ⟨distinct, outside⟩ := @ih (start.insert value) (by omega)
    refine ⟨List.nodup_cons.2 ⟨fun again => outside value again Std.ExtTreeSet.mem_insert_self, distinct⟩, fun other listed => ?_⟩
    rcases List.mem_cons.1 listed with rfl | later
    · exact fresh
    · exact fun known => outside other later (Std.ExtTreeSet.mem_insert.2 (.inr known))

theorem distinct_certificates {declaration : List DeclaredSacrifice} (aligned : validateSacrificeAlignment certs declaration = .ok ()) :
    (certs.map (·.property)).Nodup := by
  obtain ⟨⟨⟩, -, aligned⟩ := bind_eq_ok.1 aligned
  obtain ⟨⟨⟩, counted, -⟩ := bind_eq_ok.1 aligned
  have size : certs.length = (propertyNames (certs.map (·.property))).size := by
    unfold require at counted
    split at counted
    · exact beq_iff_eq.1 ‹_›
    · cases counted
  have names : ((certs.map (·.property)).map GovernanceProperty.asStr).Nodup := by
    refine (@nodup_of_size _ ∅ ?_).1
    rw [List.foldl_map, List.length_map, List.length_map, Std.ExtTreeSet.size_empty, Nat.zero_add, size]
    rfl
  exact List.Nodup.of_map _ names

theorem driftAlert_declared (distinct : (certs.map (·.property)).Nodup) {cert : SacrificeCertificate} (listed : cert ∈ certs)
    (violation : GraphViolation) : ∃ alert : GovernanceDriftAlert, alert.property = cert.property ∧
      alert.actualMagnitude = violation.actualMagnitude ∧
      driftAlert certs cert.property.asStr violation =
        .ok (if cert.impactBound + epsilon < violation.actualMagnitude then some alert else none) := by
  have found : certs.reverse.find? (fun other => decide (other.property.asStr = cert.property.asStr)) = some cert := by
    cases search : certs.reverse.find? (fun other => decide (other.property.asStr = cert.property.asStr)) with
    | none => simpa using List.find?_eq_none.1 search cert (List.mem_reverse.2 listed)
    | some other =>
      have named := List.find?_some search
      have same := GovernanceProperty.asStr_injective (of_decide_eq_true named)
      have member := List.mem_reverse.1 (List.mem_of_find?_eq_some search)
      rw [List.inj_on_of_nodup_map distinct member listed same]
  refine ⟨⟨"bound_breach", cert.property, cert.impactBound, violation.actualMagnitude,
    Std.ExtTreeMap.ofList [("witness", violation.witness)] compare, "propose revision and recompile"⟩, rfl, rfl, ?_⟩
  unfold driftAlert
  rw [found, propertyFromStr_asStr]
  dsimp only [Option.map_some, Option.getD_some]
  split <;> rfl

theorem driftAlert_undeclared {property : GovernanceProperty} (undeclared : ∀ cert ∈ certs, cert.property ≠ property)
    (violation : GraphViolation) : ∃ alert : GovernanceDriftAlert, alert.property = property ∧
      alert.actualMagnitude = violation.actualMagnitude ∧
      driftAlert certs property.asStr violation = .ok (if epsilon < violation.actualMagnitude then some alert else none) := by
  have found : certs.reverse.find? (fun other => decide (other.property.asStr = property.asStr)) = none := by
    refine List.find?_eq_none.2 fun other listed same => ?_
    exact undeclared other (List.mem_reverse.1 listed) (GovernanceProperty.asStr_injective (of_decide_eq_true same))
  have nothing : (0 : Float) + epsilon = epsilon := by decide +kernel
  refine ⟨⟨"undeclared_violation", property, 0, violation.actualMagnitude,
    Std.ExtTreeMap.ofList [("witness", violation.witness)] compare, "propose revision and recompile"⟩, rfl, rfl, ?_⟩
  unfold driftAlert
  simp only [found, propertyFromStr_asStr, Option.map_none, Option.getD_none, nothing]
  split <;> rfl

theorem mem_detectDriftAlerts {regexes : RegexEngine} {monitorSession : MonitorSession} {claims : List GovernanceClaim} {order : HashOrder}
    {alerts : List GovernanceDriftAlert} (detected : detectDriftAlerts regexes monitorSession claims order = .ok alerts) :
    ∃ evaluation, evaluateGraph regexes monitorSession.compiledGraph.graph claims = .ok evaluation ∧
      (∀ property violation, evaluation.violations[property]? = some violation →
        ∃ outcome, driftAlert monitorSession.sacrificeCerts property violation = .ok outcome) ∧
      ∀ alert, alert ∈ alerts ↔ ∃ property violation, evaluation.violations[property]? = some violation ∧
        driftAlert monitorSession.sacrificeCerts property violation = .ok (some alert) := by
  obtain ⟨evaluation, evaluated, detected⟩ := bind_eq_ok.1 detected
  obtain ⟨outcomes, walked, made⟩ := bind_eq_ok.1 detected
  obtain rfl := Except.ok.inj made
  have pairs := mapM_eq_ok.1 walked
  have walks : ∀ property violation, (property, violation) ∈ order.walk evaluation.violations.toList ↔
      evaluation.violations[property]? = some violation := fun property violation =>
    (order.walk_perm _).mem_iff.trans Std.ExtTreeMap.mem_toList_iff_getElem?_eq_some
  refine ⟨evaluation, evaluated, fun property violation found => ?_, fun alert => ?_⟩
  · obtain ⟨outcome, -, answered⟩ := exists_partner pairs ((walks property violation).2 found)
    exact ⟨outcome, answered⟩
  · simp only [List.mem_filterMap, id, exists_eq_right]
    constructor
    · intro listed
      obtain ⟨⟨property, violation⟩, walkedOver, answered⟩ := exists_partner pairs.flip listed
      exact ⟨property, violation, (walks property violation).1 walkedOver, answered⟩
    · rintro ⟨property, violation, found, answered⟩
      obtain ⟨outcome, listed, again⟩ := exists_partner pairs ((walks property violation).2 found)
      rw [Except.ok.inj (answered.symm.trans again)]
      exact listed

/-- Violations are recorded under the names of their properties. -/
theorem violation_key {regexes : RegexEngine} {graph : GovernanceGraph} {claims : List GovernanceClaim} {evaluation : GraphEvaluation}
    (evaluated : evaluateGraph regexes graph claims = .ok evaluation) {key : String} {violation : GraphViolation}
    (found : evaluation.violations[key]? = some violation) : ∃ property : GovernanceProperty, key = property.asStr := by
  have folded : ∀ (verdicts : List Verdict) (start : BTreeMap String GraphViolation),
      (∀ name ∈ start, ∃ property : GovernanceProperty, name = property.asStr) →
      ∀ name ∈ verdicts.foldl recordViolation start, ∃ property : GovernanceProperty, name = property.asStr := by
    intro verdicts
    induction verdicts with
    | nil => exact fun start known => known
    | cons verdict rest ih =>
      intro start known
      refine ih _ fun name listed => ?_
      unfold recordViolation at listed
      split at listed
      · exact known name listed
      · split at listed
        · next property _ =>
          rcases Std.ExtTreeMap.mem_insert.1 listed with same | earlier
          · exact ⟨property, (Std.LawfulEqCmp.eq_of_compare same).symm⟩
          · exact known name earlier
        · exact known name listed
  have recorded := folded evaluation.axiomVerdicts ∅ (by simp)
  rw [(evaluateGraph_checked evaluated).2.2] at found
  have listed := mem_iff_lookup.2 ⟨violation, found⟩
  unfold recordManipulation at listed
  split at listed
  · exact recorded key listed
  · rcases Std.ExtTreeMap.mem_insert.1 listed with same | earlier
    · exact ⟨.strategyproofness, (Std.LawfulEqCmp.eq_of_compare same).symm⟩
    · exact recorded key earlier

end

section

variable {certs : List SacrificeCertificate} {declaredSacrifices : List Ledger.DeclaredSacrifice}

/-- The stand-alone monitor has the bounds of the certificates. -/
def SameBounds (declaredSacrifices : List Ledger.DeclaredSacrifice) (certs : List SacrificeCertificate) : Prop :=
  (declaredSacrifices.map fun sacrifice => (sacrifice.sacrificedProperty, sacrifice.impactBound)).Perm
    (certs.map fun cert => (cert.property, cert.impactBound))

theorem SameBounds.bounds (same : SameBounds declaredSacrifices certs) (property : GovernanceProperty) :
    ((declaredSacrifices.filter fun sacrifice => sacrifice.sacrificedProperty = property).map (·.impactBound)).Perm
      ((certs.filter fun cert => cert.property = property).map (·.impactBound)) := by
  have selected := (List.Perm.filter (fun pair => decide (pair.1 = property)) same).map Prod.snd
  rw [List.filter_map, List.filter_map, List.map_map, List.map_map] at selected
  exact selected

theorem filter_certificate (distinct : (certs.map (·.property)).Nodup) {cert : SacrificeCertificate} (listed : cert ∈ certs) :
    certs.filter (fun other => other.property = cert.property) = [cert] := by
  induction certs with
  | nil => cases listed
  | cons first rest ih =>
    obtain ⟨fresh, distinctRest⟩ := List.nodup_cons.1 distinct
    rcases List.mem_cons.1 listed with rfl | later
    · have others : rest.filter (fun other => decide (other.property = cert.property)) = [] :=
        List.filter_eq_nil_iff.2 fun other member same => fresh (List.mem_map.2 ⟨other, member, of_decide_eq_true same⟩)
      rw [List.filter_cons_of_pos (by simp), others]
    · have apart : first.property ≠ cert.property := fun same => fresh (List.mem_map.2 ⟨cert, later, same.symm⟩)
      rw [List.filter_cons_of_neg (by simpa using apart), ih distinctRest later]

theorem driftFor_of_bound (same : SameBounds declaredSacrifices certs) {event : Monitor.GovernanceMonitoringEvent}
    (measured : isBound event.actualMagnitude = true) (distinct : (certs.map (·.property)).Nodup) {cert : SacrificeCertificate}
    (listed : cert ∈ certs) (about : cert.property = event.property) :
    Monitor.driftFor declaredSacrifices event = .ok (if cert.impactBound + epsilon < event.actualMagnitude then
      some ⟨event.property, cert.impactBound, event.actualMagnitude, event.timestamp, event.evidence⟩ else none) := by
  have bounds := same.bounds event.property
  rw [← about, filter_certificate distinct listed, List.map_singleton, List.perm_singleton] at bounds
  have valid : ¬(¬event.actualMagnitude.isFinite ∨ event.actualMagnitude < 0) := by
    simpa [isBound, not_or] using measured
  unfold Monitor.driftFor
  rw [if_neg valid, ← about, bounds]
  simp only [Monitor.leastBound, List.foldl_nil]
  split <;> rfl

theorem driftFor_undeclared (same : SameBounds declaredSacrifices certs) {event : Monitor.GovernanceMonitoringEvent}
    (measured : isBound event.actualMagnitude = true) (undeclared : ∀ cert ∈ certs, cert.property ≠ event.property) :
    Monitor.driftFor declaredSacrifices event = .ok none := by
  have bounds := same.bounds event.property
  have none : certs.filter (fun cert => decide (cert.property = event.property)) = [] :=
    List.filter_eq_nil_iff.2 fun cert listed about => undeclared cert listed (of_decide_eq_true about)
  rw [none, List.map_nil, List.perm_nil] at bounds
  have valid : ¬(¬event.actualMagnitude.isFinite ∨ event.actualMagnitude < 0) := by
    simpa [isBound, not_or] using measured
  unfold Monitor.driftFor
  rw [if_neg valid, bounds]
  rfl

end

/-- What the alerts of one decision say about the violations that its evaluation finds. -/
structure Notices (certs : List SacrificeCertificate) (violations : BTreeMap String GraphViolation)
    (alerts : List GovernanceDriftAlert) : Prop where
  undeclared : ∀ (property : GovernanceProperty) (violation : GraphViolation), violations[property.asStr]? = some violation →
    (∀ cert ∈ certs, cert.property ≠ property) → epsilon < violation.actualMagnitude →
    ∃ alert ∈ alerts, alert.property = property ∧ alert.actualMagnitude = violation.actualMagnitude
  declared : ∀ (violation : GraphViolation), ∀ cert ∈ certs, violations[cert.property.asStr]? = some violation →
    ((∃ alert ∈ alerts, alert.property = cert.property) ↔ cert.impactBound + epsilon < violation.actualMagnitude)
  violated : ∀ alert ∈ alerts, ∃ violation, violations[alert.property.asStr]? = some violation
  monitored : ∀ declaredSacrifices, SameBounds declaredSacrifices certs → ∀ (event : Monitor.GovernanceMonitoringEvent)
    (violation : GraphViolation), violations[event.property.asStr]? = some violation → event.actualMagnitude = violation.actualMagnitude →
    ∃ outcome, Monitor.driftFor declaredSacrifices event = .ok outcome ∧
      (outcome.isSome = true ↔ (∃ cert ∈ certs, cert.property = event.property) ∧ ∃ alert ∈ alerts, alert.property = event.property)

theorem notices_of_detected {regexes : RegexEngine} {monitorSession : MonitorSession} {claims : List GovernanceClaim} {order : HashOrder}
    {alerts : List GovernanceDriftAlert} (distinct : (monitorSession.sacrificeCerts.map (·.property)).Nodup)
    (detected : detectDriftAlerts regexes monitorSession claims order = .ok alerts) :
    ∃ evaluation, evaluateGraph regexes monitorSession.compiledGraph.graph claims = .ok evaluation ∧
      Notices monitorSession.sacrificeCerts evaluation.violations alerts := by
  obtain ⟨evaluation, evaluated, -, alerted⟩ := mem_detectDriftAlerts detected
  have alertProperty : ∀ alert ∈ alerts, ∃ violation, evaluation.violations[alert.property.asStr]? = some violation ∧
      driftAlert monitorSession.sacrificeCerts alert.property.asStr violation = .ok (some alert) := by
    intro alert listed
    obtain ⟨key, violation, found, answered⟩ := (alerted alert).1 listed
    obtain ⟨property, rfl⟩ := violation_key evaluated found
    have about : alert.property = property := by
      by_cases certified : ∃ cert ∈ monitorSession.sacrificeCerts, cert.property = property
      · obtain ⟨cert, member, rfl⟩ := certified
        obtain ⟨made, about, -, outcome⟩ := driftAlert_declared distinct member violation
        rw [answered] at outcome
        split at outcome
        · rw [Option.some.inj (Except.ok.inj outcome), about]
        · cases Except.ok.inj outcome
      · obtain ⟨made, about, -, outcome⟩ :=
          driftAlert_undeclared (fun cert member same => certified ⟨cert, member, same⟩) violation
        rw [answered] at outcome
        split at outcome
        · rw [Option.some.inj (Except.ok.inj outcome), about]
        · cases Except.ok.inj outcome
    exact ⟨violation, about ▸ found, about ▸ answered⟩
  have declared : ∀ (violation : GraphViolation), ∀ cert ∈ monitorSession.sacrificeCerts,
      evaluation.violations[cert.property.asStr]? = some violation →
      ((∃ alert ∈ alerts, alert.property = cert.property) ↔ cert.impactBound + epsilon < violation.actualMagnitude) := by
    intro violation cert member found
    obtain ⟨made, about, -, outcome⟩ := driftAlert_declared distinct member violation
    constructor
    · rintro ⟨alert, listed, same⟩
      obtain ⟨other, again, answered⟩ := alertProperty alert listed
      rw [same] at again answered
      rw [← Option.some.inj (found.symm.trans again), outcome] at answered
      by_contra within
      rw [if_neg within] at answered
      cases Except.ok.inj answered
    · intro exceeds
      rw [if_pos exceeds] at outcome
      exact ⟨made, (alerted made).2 ⟨_, violation, found, outcome⟩, about⟩
  refine ⟨evaluation, evaluated, ⟨?_, declared, ?_, ?_⟩⟩
  · intro property violation found uncertified exceeds
    obtain ⟨made, about, magnitude, outcome⟩ := driftAlert_undeclared uncertified violation
    rw [if_pos exceeds] at outcome
    exact ⟨made, (alerted made).2 ⟨_, violation, found, outcome⟩, about, magnitude⟩
  · intro alert listed
    obtain ⟨violation, found, -⟩ := alertProperty alert listed
    exact ⟨violation, found⟩
  · intro declaredSacrifices same event violation found magnitude
    have measured : isBound event.actualMagnitude = true := magnitude ▸ violation_isBound evaluated found
    by_cases certified : ∃ cert ∈ monitorSession.sacrificeCerts, cert.property = event.property
    · obtain ⟨cert, member, about⟩ := certified
      refine ⟨_, driftFor_of_bound same measured distinct member about, ?_⟩
      rw [← about] at found
      have alike := declared violation cert member found
      rw [about, ← magnitude] at alike
      rw [alike]
      split
      · next exceeds =>
        have certified : ∃ cert ∈ monitorSession.sacrificeCerts, cert.property = event.property := ⟨cert, member, about⟩
        simp [exceeds, certified]
      · next within => simp [within]
    · refine ⟨none, driftFor_undeclared same measured fun cert member about => certified ⟨cert, member, about⟩, ?_⟩
      simp [certified]

/-- A decision in the live state alerts on every violation above its bound and on nothing else, and the stand-alone monitor agrees
on the declared properties. -/
theorem checkDecision_notices (host : ProtocolHost) (monitorSession : MonitorSession) (ledger : ProtocolLedger)
    (declaration : GovernanceDeclaration) (claim : GovernanceClaim) (order : HashOrder) (now : Except LegitimacyError String)
    (next : ProtocolState) (issued : PromotionCertificate)
    (checked : checkDecision host (.live monitorSession ledger declaration) claim order now = .ok (next, issued)) :
    ∃ evaluation alerts grown, evaluateGraph host.regexes monitorSession.compiledGraph.graph
        (mergeRepresentativeClaims monitorSession.representativeClaims claim) = .ok evaluation ∧
      next.ledger? = some grown ∧ grown.driftAlerts = ledger.driftAlerts ++ alerts ∧
      Notices monitorSession.sacrificeCerts evaluation.violations alerts := by
  obtain ⟨⟨⟩, valid, checked⟩ := bind_eq_ok.1 checked
  obtain ⟨⟨⟩, -, valid⟩ := bind_eq_ok.1 valid
  obtain ⟨⟨⟩, session, -⟩ := bind_eq_ok.1 valid
  obtain ⟨⟨⟩, -, session⟩ := bind_eq_ok.1 session
  obtain ⟨⟨⟩, aligned, -⟩ := bind_eq_ok.1 session
  obtain ⟨traversal, -, checked⟩ := bind_eq_ok.1 checked
  dsimp only at checked
  split at checked
  · cases checked
  · obtain ⟨timestamp, -, checked⟩ := bind_eq_ok.1 checked
    obtain ⟨alerts, detected, checked⟩ := bind_eq_ok.1 checked
    obtain ⟨⟨⟩, -, made⟩ := bind_eq_ok.1 checked
    obtain ⟨rfl, rfl⟩ := Prod.mk.inj (Except.ok.inj made)
    obtain ⟨evaluation, evaluated, notices⟩ := notices_of_detected (distinct_certificates aligned) detected
    exact ⟨evaluation, alerts, _, evaluated, rfl, rfl, notices⟩

def decides (claim : GovernanceClaim) : Except ProtocolError ProtocolState → Bool
  | .ok (.live monitorSession ledger declaration) => (checkDecision plainHost (.live monitorSession ledger declaration) claim
      ⟨id, walk_in_order⟩ (.ok "2026-01-01T00:00:03Z")).toBool
  | _ => false

theorem checkDecision_notices_solo : ∃ monitorSession ledger declaration next issued,
    checkDecision plainHost (.live monitorSession ledger declaration) soloClaim ⟨id, fun _ => List.Perm.refl _⟩
      (.ok "2026-01-01T00:00:03Z") = .ok (next, issued) ∧
    ∃ evaluation alerts grown, evaluateGraph plainHost.regexes monitorSession.compiledGraph.graph
        (mergeRepresentativeClaims monitorSession.representativeClaims soloClaim) = .ok evaluation ∧
      next.ledger? = some grown ∧ grown.driftAlerts = ledger.driftAlerts ++ alerts ∧
      Notices monitorSession.sacrificeCerts evaluation.violations alerts := by
  have passed : decides soloClaim (run plainHost (soloOperations .deny [⟨.nonVacuous, "refuses everything", []⟩])) = true := by decide +kernel
  unfold decides at passed
  split at passed
  · next monitorSession ledger declaration reached =>
    obtain ⟨⟨next, issued⟩, checked⟩ := ExceptRun.exists_of_toBool passed
    exact ⟨monitorSession, ledger, declaration, next, issued, checked, checkDecision_notices plainHost _ _ _ _ _ _ next issued checked⟩
  · cases passed

def blockGraph : GovernanceGraph where
  nodes := Std.ExtTreeMap.ofList
    [(⟨"gate", gate_named⟩, .binary ⟨"gate", gate_named⟩ "gate" [.exactMatch "blocked" .deny] .permit .firstMatch)] compare
  edges := []

def blockedClaim : GovernanceClaim := { soloClaim with action := some "blocked" }

def blockOperations : List Operation :=
  [.declare blockGraph [] (.ok "2026-01-01T00:00:00Z"), .compile (.ok "2026-01-01T00:00:01Z"), .measure [], .activate ⟨60, 60, 0⟩]

/-- A decision that finds a violation of non-vacuity where nothing is declared, and leaves the ledger without an alert. -/
def silent (claim : GovernanceClaim) : Except ProtocolError ProtocolState → Bool
  | .ok (.live monitorSession ledger declaration) =>
    match checkDecision plainHost (.live monitorSession ledger declaration) claim ⟨id, walk_in_order⟩ (.ok "2026-01-01T00:00:02Z"),
      evaluateGraph plainHost.regexes monitorSession.compiledGraph.graph
        (mergeRepresentativeClaims monitorSession.representativeClaims claim) with
    | .ok (next, _), .ok evaluation => (evaluation.violations[GovernanceProperty.nonVacuous.asStr]?).isSome &&
      monitorSession.sacrificeCerts.isEmpty && (next.ledger?.map (·.driftAlerts.isEmpty) == some true)
    | _, _ => false
  | _ => false

/-- A live session in which only a denied claim is decided: the graph refuses its whole batch, nothing was declared, and the violation of
magnitude zero raises no alert. -/
theorem undeclared_violation_unnoticed : ∃ monitorSession ledger declaration next issued grown evaluation violation,
    run plainHost blockOperations = .ok (.live monitorSession ledger declaration) ∧
    checkDecision plainHost (.live monitorSession ledger declaration) blockedClaim ⟨id, fun _ => List.Perm.refl _⟩
      (.ok "2026-01-01T00:00:02Z") = .ok (next, issued) ∧
    evaluateGraph plainHost.regexes monitorSession.compiledGraph.graph
      (mergeRepresentativeClaims monitorSession.representativeClaims blockedClaim) = .ok evaluation ∧
    evaluation.violations[GovernanceProperty.nonVacuous.asStr]? = some violation ∧ monitorSession.sacrificeCerts = [] ∧
    next.ledger? = some grown ∧ grown.driftAlerts = [] := by
  have passed : silent blockedClaim (run plainHost blockOperations) = true := by decide +kernel
  unfold silent at passed
  split at passed
  · next monitorSession ledger declaration reached =>
    split at passed
    · next next issued evaluation checked evaluated =>
      simp only [Bool.and_eq_true, List.isEmpty_iff, beq_iff_eq, Option.isSome_iff_exists, Option.map_eq_some_iff] at passed
      obtain ⟨⟨⟨violation, found⟩, uncertified⟩, grown, atGrown, silent⟩ := passed
      exact ⟨monitorSession, ledger, declaration, next, issued, grown, evaluation, violation, reached, checked, evaluated, found,
        uncertified, atGrown, silent⟩
    · cases passed
  · cases passed

end Legitimacy.Protocol
