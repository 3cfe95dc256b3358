import Legitimacy.Trajectory.PeerHalf
import Legitimacy.Trajectory.ReplayRoundTrip

namespace Legitimacy.Trajectory

open ExceptRun

section

/-- A replay record repeats the number, the id and the record digest of its event. -/
structure RecordOf (event : AgentActionEvent) (record : ReplayRecord) : Prop where
  sequenceIndex : event.sequenceIndex.value = some record.sequenceIndex
  eventId : event.eventId.value = some record.eventId
  rawRecord : record.rawRecordDigest.text = event.rawRecord.digest

theorem ReplayDigest.text_fromValidated {value : String} {digest : ReplayDigest} (made : ReplayDigest.fromValidated value = some digest) :
    digest.text = value := by
  unfold ReplayDigest.fromValidated at made
  split at made
  · exact (congrArg ReplayDigest.text (Option.some.inj made)).symm
  · cases made

theorem replayRecords_of {sha256 : List UInt8 → Digest} {previousHead finalHead : ReplayDigest} {events : List AgentActionEvent}
    {records : List ReplayRecord} (run : replayRecords sha256 previousHead events = some (records, finalHead)) :
    List.Forall₂ RecordOf events records := by
  induction events generalizing previousHead records with
  | nil =>
    cases run
    exact .nil
  | cons event rest ih =>
    obtain ⟨record, made, run⟩ := Option.bind_eq_some_iff.1 run
    obtain ⟨⟨others, last⟩, later, built⟩ := Option.bind_eq_some_iff.1 run
    cases built
    obtain ⟨sequenceIndex, atIndex, made⟩ := Option.bind_eq_some_iff.1 made
    obtain ⟨eventId, atId, made⟩ := Option.bind_eq_some_iff.1 made
    obtain ⟨rawRecordDigest, atDigest, built⟩ := Option.bind_eq_some_iff.1 made
    cases built
    exact .cons ⟨atIndex, atId, ReplayDigest.text_fromValidated atDigest⟩ (ih later)

theorem candidate_records {host : Host} {validated : ValidatedTrajectoryTrace host} {candidate : TrajectoryReplayCandidate}
    (built : trajectoryReplayCandidate validated = some candidate) : List.Forall₂ RecordOf validated.trace.events candidate.records := by
  obtain ⟨digest, -, built⟩ := Option.bind_eq_some_iff.1 built
  obtain ⟨schema, -, built⟩ := Option.bind_eq_some_iff.1 built
  obtain ⟨adapter, -, built⟩ := Option.bind_eq_some_iff.1 built
  obtain ⟨policy, -, built⟩ := Option.bind_eq_some_iff.1 built
  obtain ⟨capture, -, built⟩ := Option.bind_eq_some_iff.1 built
  obtain ⟨⟨records, finalHead⟩, made, built⟩ := Option.bind_eq_some_iff.1 built
  cases built
  exact replayRecords_of made

end

section

variable {regexes : RegexEngine} {graph : GovernanceGraph}

structure OccurrenceOf (regexes : RegexEngine) (graph : GovernanceGraph) (entry : (AgentActionEvent × ReplayRecord) × Nat)
    (occurrence : GovernanceClaim × EventPolicyReceipt) : Prop where
  claim : occurrence.1 = occurrenceClaim entry.2
  decided : decideSingleton regexes graph occurrence.1 = .ok occurrence.2.singletonDecision
  index : occurrence.2.claim.occurrenceIndex = entry.2
  eventId : entry.1.1.eventId.value = some occurrence.2.claim.eventId

theorem prepareOccurrence_of {entry : (AgentActionEvent × ReplayRecord) × Nat} {occurrence : GovernanceClaim × EventPolicyReceipt}
    (run : prepareOccurrence regexes graph entry = .ok occurrence) : OccurrenceOf regexes graph entry occurrence := by
  obtain ⟨-, run⟩ := guard_eq_ok.1 run
  obtain ⟨eventId, atId, run⟩ := bind_eq_ok.1 run
  obtain ⟨sequenceIndex, -, run⟩ := bind_eq_ok.1 run
  obtain ⟨kind, -, run⟩ := bind_eq_ok.1 run
  obtain ⟨sourceItemId, -, run⟩ := bind_eq_ok.1 run
  obtain ⟨-, run⟩ := guard_eq_ok.1 run
  obtain ⟨decision, decided, made⟩ := bind_eq_ok.1 run
  cases made
  exact ⟨rfl, decided, rfl, elim_eq_ok.1 atId⟩

/-- An event of a validated trace passes, given a decision on its claim. -/
theorem exists_occurrence {sha256 : List UInt8 → Digest} {rawRecords : List (List UInt8)} {declarations : TrajectoryValidationContext}
    {event : AgentActionEvent} {record : ReplayRecord} {index : Nat} (few : index < maxEvents)
    (valid : EventValid sha256 rawRecords declarations index event) (recordOf : RecordOf event record)
    {decision : BinaryPolicyDecision} (decided : decideSingleton regexes graph (occurrenceClaim index) = .ok decision) :
    ∃ occurrence, prepareOccurrence regexes graph ((event, record), index) = .ok occurrence := by
  obtain ⟨kind, atKind, -⟩ := valid.kind.value
  obtain ⟨sequenceIndex, atSequence, numbered⟩ := valid.sequenceIndex.value
  have sameIndex : record.sequenceIndex = .ofNat index := Option.some.inj ((recordOf.sequenceIndex.symm.trans atSequence).trans
    (congrArg some numbered))
  obtain ⟨sourceItemId, atSource⟩ : ∃ sourceItemId, presentSource event.sourceItemId = .ok sourceItemId := by
    cases source : event.sourceItemId with
    | none => exact ⟨none, rfl⟩
    | some field =>
      obtain ⟨value, present, -⟩ := (valid.sourceItemId field source).value
      exact ⟨some value, congrArg (Except.map some) (elim_eq_ok.2 present)⟩
  let claim : EncodedOccurrenceClaim := ⟨index, claimantWireId index, index + 1, 1, record.eventId, kind, sourceItemId, event.rawRecord.digest,
    record.canonicalEventDigest.text⟩
  refine ⟨(occurrenceClaim index, ⟨claim, decision⟩), guard_eq_ok.2 ⟨Nat.not_lt.2 few, ?_⟩⟩
  refine bind_eq_ok.2 ⟨_, elim_eq_ok.2 recordOf.eventId, ?_⟩
  refine bind_eq_ok.2 ⟨_, elim_eq_ok.2 atSequence, bind_eq_ok.2 ⟨_, elim_eq_ok.2 atKind, bind_eq_ok.2 ⟨_, atSource, ?_⟩⟩⟩
  refine guard_eq_ok.2 ⟨?_, bind_eq_ok.2 ⟨decision, decided, rfl⟩⟩
  rintro (other | other | other | other)
  · exact other numbered
  · exact other sameIndex
  · exact other rfl
  · exact other recordOf.rawRecord

theorem prepared_receipted {events : List AgentActionEvent} {records : List ReplayRecord} {occurrences : List (GovernanceClaim × EventPolicyReceipt)}
    (run : (events.zip records).zipIdx.mapM (prepareOccurrence regexes graph) = .ok occurrences) :
    Receipted regexes graph (occurrences.map Prod.fst) (occurrences.map Prod.snd) := by
  have each := (mapM_eq_ok.1 run).imp fun _ _ => prepareOccurrence_of
  constructor
  · refine List.forall₂_map_left_iff.2 (List.forall₂_map_right_iff.2 (List.forall₂_same.2 fun occurrence member => ?_))
    obtain ⟨entry, -, made⟩ := exists_partner each.flip member
    exact made.decided
  · intro position receipt atPosition
    rw [List.getElem?_map, Option.map_eq_some_iff] at atPosition
    obtain ⟨occurrence, atPosition, rfl⟩ := atPosition
    obtain ⟨inside, rfl⟩ := List.getElem?_eq_some_iff.1 atPosition
    have bound : position < (events.zip records).zipIdx.length := each.length_eq ▸ inside
    have made := (List.forall₂_iff_get.1 each).2 position bound inside
    have index := made.index
    simpa using index

theorem map_eq_map {α β γ : Type} {first : α → γ} {second : β → γ} {values : List α} {others : List β}
    (each : List.Forall₂ (fun value other => first value = second other) values others) : values.map first = others.map second := by
  induction each with
  | nil => rfl
  | cons same _ ih => rw [List.map_cons, List.map_cons, same, ih]

theorem prepared_claims {events : List AgentActionEvent} {records : List ReplayRecord} {occurrences : List (GovernanceClaim × EventPolicyReceipt)}
    (sameLength : events.length = records.length)
    (run : (events.zip records).zipIdx.mapM (prepareOccurrence regexes graph) = .ok occurrences) :
    occurrences.map Prod.fst = occurrenceClaims events.length ∧
      (occurrences.map Prod.snd).map (fun receipt => some receipt.claim.eventId) = events.map (·.eventId.value) := by
  have each := (mapM_eq_ok.1 run).imp fun _ _ => prepareOccurrence_of
  have claims := map_eq_map (each.imp fun _ _ made => made.claim.symm)
  have ids := map_eq_map (each.imp fun _ _ made => made.eventId)
  have positions : (events.zip records).zipIdx.map Prod.snd = List.range events.length := by
    rw [List.zipIdx_map_snd, List.length_zip, sameLength, Nat.min_self, List.range_eq_range']
  have entries : (events.zip records).zipIdx.map (fun entry => entry.1.1) = events := by
    have firsts : ((events.zip records).zipIdx.map Prod.fst).map Prod.fst = events := by
      rw [List.zipIdx_map_fst, List.map_fst_zip sameLength.le]
    rwa [List.map_map] at firsts
  constructor
  · rw [← claims, occurrenceClaims, ← positions, List.map_map]
    rfl
  · conv_rhs => rw [← entries]
    rw [List.map_map, List.map_map]
    exact ids.symm

end

section

variable {host : Host} {toml : EnvelopeReader} {regexes : RegexEngine}

def firstEventId (trace : TrajectoryTrace) : String := (trace.events.head?.bind (·.eventId.value)).getD ""

theorem prepareReplayBoundComposition_eq_ok (reads : toml trajectoryCompositionPolicyText = some peerHalfEnvelope)
    {validated : ValidatedTrajectoryTrace host} {verified : VerifiedTrajectoryReplay} {exactPolicyBytes : List UInt8}
    {prepared : PreparedTrajectoryComposition} :
    prepareReplayBoundComposition toml regexes validated verified exactPolicyBytes = .ok prepared ↔
      trajectoryReplayCandidate validated = some verified.replay ∧ exactPolicyBytes = trajectoryCompositionPolicyBytes ∧
      validated.trace.policy = peerHalfBinding host.sha256 ∧ ∃ occurrences,
        (validated.trace.events.zip verified.replay.records).zipIdx.mapM (prepareOccurrence regexes (loneGraph peerHalfNode)) =
          .ok occurrences ∧
        prepared = ⟨peerHalfPolicy host.sha256, verified.replay.trajectoryDigest.text, verified.replay.finalHead.text,
          occurrences.map Prod.fst, occurrences.map Prod.snd⟩ := by
  constructor
  · intro run
    obtain ⟨⟨⟩, -, run⟩ := bind_eq_ok.1 run
    obtain ⟨built, run⟩ := guard_eq_ok.1 run
    obtain ⟨policy, loaded, run⟩ := bind_eq_ok.1 run
    obtain ⟨-, run⟩ := guard_eq_ok.1 run
    obtain ⟨occurrences, looped, made⟩ := bind_eq_ok.1 run
    obtain ⟨sameBytes, bound, rfl⟩ := (loadTrajectoryCompositionPolicy_eq_ok reads).1 loaded
    exact ⟨not_not.1 built, sameBytes, bound, occurrences, looped, (Except.ok.inj made).symm⟩
  · rintro ⟨built, sameBytes, bound, occurrences, looped, rfl⟩
    have sameLength := (candidate_records built).length_eq
    have loaded := (@loadTrajectoryCompositionPolicy_eq_ok host.sha256 toml regexes _ _ _ reads).2 ⟨sameBytes, bound, rfl⟩
    refine bind_eq_ok.2 ⟨⟨⟩, sameBytes ▸ ensurePolicySize_policy, guard_eq_ok.2 ⟨not_not.2 built, ?_⟩⟩
    exact bind_eq_ok.2 ⟨_, loaded, guard_eq_ok.2 ⟨not_not.2 sameLength, bind_eq_ok.2 ⟨occurrences, looped, rfl⟩⟩⟩

theorem exists_prepared {validated : ValidatedTrajectoryTrace host} {replay : TrajectoryReplayCandidate}
    (built : trajectoryReplayCandidate validated = some replay) : ∃ occurrences,
      (validated.trace.events.zip replay.records).zipIdx.mapM (prepareOccurrence regexes (loneGraph peerHalfNode)) = .ok occurrences := by
  have valid := validateTrace_eq_ok.1 validated.accepted
  have recordsOf := candidate_records built
  refine exists_mapM fun entry member => ?_
  obtain ⟨⟨event, record⟩, index⟩ := entry
  have atEntry := List.mem_zipIdx_iff_getElem?.1 member
  obtain ⟨atEvent, atRecord⟩ := List.getElem?_zip_eq_some.1 atEntry
  obtain ⟨inside, sameEvent⟩ := List.getElem?_eq_some_iff.1 atEvent
  obtain ⟨bound, sameRecord⟩ := List.getElem?_eq_some_iff.1 atRecord
  have few : index < maxEvents := Nat.lt_of_lt_of_le inside validated.facts.eventCount
  have eventValid := valid.events (event, index) (List.mem_zipIdx_iff_getElem?.2 atEvent)
  have recordOf : RecordOf event record := by
    have related := (List.forall₂_iff_get.1 recordsOf).2 index inside bound
    simpa [sameEvent, sameRecord] using related
  exact exists_occurrence few eventValid recordOf (decideSingleton_eq_ok.2 (.inl ⟨rfl, singleton_green few⟩))

theorem prepared_temporal {validated : ValidatedTrajectoryTrace host} {replay : TrajectoryReplayCandidate}
    {occurrences : List (GovernanceClaim × EventPolicyReceipt)} (built : trajectoryReplayCandidate validated = some replay)
    (looped : (validated.trace.events.zip replay.records).zipIdx.mapM (prepareOccurrence regexes (loneGraph peerHalfNode)) = .ok occurrences)
    (trajectoryDigest replayFinalHead : String) :
    classifyTemporal regexes ⟨peerHalfPolicy host.sha256, trajectoryDigest, replayFinalHead, occurrences.map Prod.fst,
        occurrences.map Prod.snd⟩ = .ok (peerHalfVerdict validated.trace.events.length (firstEventId validated.trace)) := by
  have receipted := prepared_receipted looped
  obtain ⟨claims, ids⟩ := prepared_claims (candidate_records built).length_eq looped
  refine (classifyTemporal_eq_ok receipted).2 ?_
  dsimp only
  rw [claims]
  refine peerHalf_verdict validated.facts.eventCount fun positive => ?_
  obtain ⟨occurrence, rest, atStart⟩ : ∃ occurrence rest, occurrences = occurrence :: rest := by
    refine List.exists_cons_of_ne_nil fun empty => ?_
    rw [empty, List.map_nil, List.map_nil] at ids
    rw [List.map_eq_nil_iff.1 ids.symm] at positive
    exact absurd positive (Nat.lt_irrefl 0)
  obtain ⟨event, others, atEvents⟩ := List.exists_cons_of_ne_nil validated.facts.nonempty
  rw [atStart, atEvents, List.map_cons, List.map_cons, List.map_cons, List.cons.injEq] at ids
  refine ⟨occurrence.2, by rw [atStart]; rfl, ?_⟩
  rw [firstEventId, atEvents, List.head?_cons, Option.bind_some, ← ids.1, Option.getD_some]

/-- The classification gives its verdict over every graph. Under the fixed policy it finds up to two events safe, and from three events on a
violation at the third, where the first is denied. -/
theorem classifyTemporal_exact (host : Host) (toml : EnvelopeReader) (regexes : RegexEngine)
    (reads : toml trajectoryCompositionPolicyText = some peerHalfEnvelope) :
    (∀ prepared : PreparedTrajectoryComposition, Receipted regexes prepared.policy.graph prepared.claims prepared.receipts →
      ∀ temporal, classifyTemporal regexes prepared = .ok temporal ↔
        TemporalVerdict regexes prepared.policy.graph prepared.claims prepared.receipts temporal) ∧
    (∀ (graph : GovernanceGraph) (events : List AgentActionEvent) (records : List ReplayRecord)
      (occurrences : List (GovernanceClaim × EventPolicyReceipt)),
      (events.zip records).zipIdx.mapM (prepareOccurrence regexes graph) = .ok occurrences →
        Receipted regexes graph (occurrences.map Prod.fst) (occurrences.map Prod.snd)) ∧
    ∀ (validated : ValidatedTrajectoryTrace host) (verified : VerifiedTrajectoryReplay) (exactPolicyBytes : List UInt8),
      ((∃ result, evaluateReplayBoundComposition toml regexes validated verified exactPolicyBytes = .ok result) ↔
        trajectoryReplayCandidate validated = some verified.replay ∧ exactPolicyBytes = trajectoryCompositionPolicyBytes ∧
          validated.trace.policy = peerHalfBinding host.sha256) ∧
      ∀ result, evaluateReplayBoundComposition toml regexes validated verified exactPolicyBytes = .ok result →
        result.temporal = peerHalfVerdict validated.trace.events.length (firstEventId validated.trace) := by
  refine ⟨fun prepared receipted temporal => classifyTemporal_eq_ok receipted, fun graph events records occurrences => prepared_receipted, ?_⟩
  intro validated verified exactPolicyBytes
  refine ⟨⟨?_, ?_⟩, ?_⟩
  · rintro ⟨result, run⟩
    obtain ⟨prepared, preparation, -⟩ := bind_eq_ok.1 run
    obtain ⟨built, sameBytes, bound, -⟩ := (prepareReplayBoundComposition_eq_ok reads).1 preparation
    exact ⟨built, sameBytes, bound⟩
  · rintro ⟨built, sameBytes, bound⟩
    obtain ⟨occurrences, looped⟩ := @exists_prepared host regexes validated verified.replay built
    have preparation := (@prepareReplayBoundComposition_eq_ok host toml regexes reads validated verified exactPolicyBytes _).2
      ⟨built, sameBytes, bound, occurrences, looped, rfl⟩
    exact ⟨_, bind_eq_ok.2 ⟨_, preparation, bind_eq_ok.2 ⟨_, prepared_temporal built looped _ _, rfl⟩⟩⟩
  · intro result run
    obtain ⟨prepared, preparation, run⟩ := bind_eq_ok.1 run
    obtain ⟨temporal, classified, made⟩ := bind_eq_ok.1 run
    obtain ⟨built, -, -, occurrences, looped, rfl⟩ := (prepareReplayBoundComposition_eq_ok reads).1 preparation
    have expected := prepared_temporal built looped verified.replay.trajectoryDigest.text verified.replay.finalHead.text
    obtain rfl := Except.ok.inj (expected.symm.trans classified)
    exact (congrArg TrajectoryCompositionResult.temporal (Except.ok.inj made)).symm

/-- A reader of the fixed policy only. -/
def peerHalfReader : EnvelopeReader := fun text => if text = trajectoryCompositionPolicyText then some peerHalfEnvelope else none

theorem peerHalfBinding_valid (sha256 : List UInt8 → Digest) : BindingValid (peerHalfBinding sha256) :=
  ⟨by show isAsciiName trajectoryCompositionPolicyId = true; decide, by show isAsciiVersion trajectoryCompositionPolicyVersion = true; decide,
    isDigest_framedSha256 _ _ _⟩

def threeEvents : ValidatedTrajectoryTrace exampleHost where
  trace := plainTrace exampleHost (peerHalfBinding exampleHost.sha256) ["first", "second", "third"]
  rawRecords := plainRecords exampleHost ["first", "second", "third"]
  declarations := plainContext exampleHost (peerHalfBinding exampleHost.sha256) ["first", "second", "third"]
  accepted := plain_accepted (peerHalfBinding_valid _) (by decide) (by decide) (by decide) (by decide)
    (exampleHost_faithful.exact trivial (by decide))

theorem classifyTemporal_exact_three : ∃ verified result,
    evaluateReplayBoundComposition peerHalfReader .error threeEvents verified trajectoryCompositionPolicyBytes = .ok result ∧
      result.temporal.classification = .allSingletonsPermitAndEarliestViolation 2 3 0 "first" .deny := by
  obtain ⟨candidate, built, -⟩ := candidate_built threeEvents
  let verified : VerifiedTrajectoryReplay := ⟨candidate, "issuer", "key", 1, .fromReplayCandidate candidate, ""⟩
  obtain ⟨-, -, evaluated⟩ := classifyTemporal_exact exampleHost peerHalfReader .error (if_pos rfl)
  obtain ⟨accepted, exactly⟩ := evaluated threeEvents verified trajectoryCompositionPolicyBytes
  obtain ⟨result, run⟩ := accepted.2 ⟨built, rfl, rfl⟩
  exact ⟨verified, result, run, congrArg TemporalCompositionResult.classification (exactly result run)⟩

end

section

/-- Permits strong claims, denies the strongest of the others and permits the rest. -/
def topDenyingNode : GovernanceNode :=
  .binary ⟨"late", by decide⟩ "late" [.thresholdGate "strength" 2 .permit, .peerRelative "strength" 1 .deny] .permit .firstMatch

def claimOf (claimantId : String) (strength : Float) : GovernanceClaim := ⟨claimantId, strength, none, none, none, none, ∅⟩

def receiptOf (position : Nat) (eventId : String) (decision : BinaryPolicyDecision) : EventPolicyReceipt :=
  ⟨⟨position, claimantWireId position, position + 1, 1, eventId, .observation, none, "", ""⟩, decision⟩

def fallingClaims : PreparedTrajectoryComposition where
  policy := ⟨[], "", loneGraph topDenyingNode⟩
  trajectoryDigest := ""
  replayFinalHead := ""
  claims := [claimOf "strong" 2, claimOf "weak" 1]
  receipts := [receiptOf 0 "first" .permit, receiptOf 1 "second" .deny]

/-- Every prefix is green, and yet the answer is not that the trace is safe: the second claim is denied alone. -/
theorem classifyTemporal_local_failure :
    Receipted .error fallingClaims.policy.graph fallingClaims.claims fallingClaims.receipts ∧
      (∀ length, 0 < length → length ≤ 2 → Green .error fallingClaims.policy.graph (fallingClaims.claims.take length)) ∧
      classifyTemporal .error fallingClaims = .ok ⟨.localFailure 1 "second" .deny, []⟩ := by
  have first : decideSingleton .error (loneGraph topDenyingNode) (claimOf "strong" 2) = .ok .permit := by decide +kernel
  have second : decideSingleton .error (loneGraph topDenyingNode) (claimOf "weak" 1) = .ok .deny := by decide +kernel
  refine ⟨⟨.cons first (.cons second .nil), ?_⟩, ?_, rfl⟩
  · intro position receipt atPosition
    match position with
    | 0 => exact (congrArg (·.claim.occurrenceIndex) (Option.some.inj atPosition)).symm
    | 1 => exact (congrArg (·.claim.occurrenceIndex) (Option.some.inj atPosition)).symm
    | _ + 2 => cases atPosition
  · intro length positive short
    obtain rfl | rfl : length = 1 ∨ length = 2 := by omega
    · exact observePrefix_eq_none.1 (by decide +kernel)
    · exact observePrefix_eq_none.1 (by decide +kernel)

end

end Legitimacy.Trajectory
