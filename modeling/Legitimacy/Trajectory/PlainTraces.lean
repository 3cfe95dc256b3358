import Legitimacy.Trajectory.TraceExactness
import Mathlib.Algebra.Group.Action.Defs
import Mathlib.Algebra.Order.BigOperators.Group.List

namespace Legitimacy.Trajectory

open ExceptRun Json Serde

section

variable (host : Host) (policy : ArtifactBinding) (eventIds : List String)

def plainRecords : List (List UInt8) := .replicate eventIds.length (emptyRecord host)

def plainTrace : TrajectoryTrace where
  schema := host.schemaBinding
  runId := ⟨some "run", citation host⟩
  adapter := plainBinding host
  policy
  rawCapture := rawCaptureSeal host.sha256 (plainRecords host eventIds)
  events := eventIds.zipIdx.map (plainEvent host)

def plainContext : TrajectoryValidationContext where
  adapter := plainBinding host
  policy
  rawCapture := rawCaptureSeal host.sha256 (plainRecords host eventIds)
  allowedDerivations := []

def runTrace (runId : String) : TrajectoryTrace := { plainTrace host policy eventIds with runId := ⟨some runId, citation host⟩ }

end

section

variable {host : Host} {policy : ArtifactBinding} {eventIds : List String} {runId : String}

theorem citation_fits : EvidenceFits (citation host) := Nat.le_of_eq (utf8ByteSize_framedSha256 _ _ _)

theorem plainEvent_fits {entry : String × Nat} (identifier : isIdentifier entry.1 = true) : EventFits (plainEvent host entry) where
  eventId := ⟨fun value present => Option.some.inj present ▸ (isIdentifier_plain identifier).1, citation_fits⟩
  sequenceIndex := citation_fits
  kind := citation_fits
  sourceItemId := by simp [plainEvent]
  rawRecord := Nat.le_of_eq (utf8ByteSize_framedSha256 _ _ _)
  payloadSize := by simp [plainEvent]
  payload := by simp [plainEvent]

theorem plainTrace_charges : traceCharges (runTrace host policy eventIds runId) = .replicate (1 + 3 * eventIds.length) (.range (0, 0, 2)) := by
  have event : ∀ entry, eventCharges (plainEvent host entry) = .replicate 3 (.range (0, 0, 2)) := by
    intro entry
    simp [eventCharges, plainEvent, evidenceCharges, citation, citedLocator, SourceLocator.range, List.replicate]
  have events : ∀ entries : List (String × Nat), (entries.map (plainEvent host)).flatMap eventCharges =
      .replicate (3 * entries.length) (.range (0, 0, 2)) := by
    intro entries
    induction entries with
    | nil => rfl
    | cons entry rest ih =>
      rw [List.map_cons, List.flatMap_cons, event, ih, List.replicate_append_replicate, List.length_cons]
      congr 1
      omega
  rw [traceCharges, runTrace, plainTrace, events, List.length_zipIdx, ← List.replicate_append_replicate]
  rfl

theorem plainTrace_fit (few : eventIds.length ≤ 1000) : ChargesFit (traceCharges (runTrace host policy eventIds runId)) := by
  rw [plainTrace_charges]
  have cited : citedRanges (.replicate (1 + 3 * eventIds.length) (.range (0, 0, 2))) = .replicate (1 + 3 * eventIds.length) (0, 0, 2) := by
    simp [citedRanges, Charge.cited, List.filterMap_replicate]
  have locators : maxEvidenceLocators = 100000 := rfl
  constructor
  · simp [Charge.fields]
  · simp [Charge.contentBytes]
  · simp [Charge.nodes]
  · rw [cited, List.length_replicate]
    omega
  · rw [cited, List.toFinset_replicate_of_ne_zero (by omega), Finset.sum_singleton]
    decide

theorem plainTrace_size {floatText : Float → String} (identified : isIdentifier runId = true) (valid : BindingValid policy)
    (identifiers : ∀ eventId ∈ eventIds, isIdentifier eventId = true) (few : eventIds.length ≤ 1000) :
    ((traceJson (runTrace host policy eventIds runId)).compactBytes floatText).length ≤ maxTraceCompactJsonBytes := by
  have outer := @size_struct_le floatText [("schema", bindingJson host.schemaBinding), ("run_id", evidencedJson .str ⟨some runId, citation host⟩),
    ("adapter", bindingJson (plainBinding host)), ("policy", bindingJson policy),
    ("raw_capture", sealJson (runTrace host policy eventIds runId).rawCapture),
    ("events", .arr ((eventIds.zipIdx.map (plainEvent host)).map eventJson))]
    ["schema", "run_id", "adapter", "policy", "raw_capture", "events"] rfl 68 (by decide)
  have schema := @bindingJson_size_le floatText _ (@schemaBinding_valid host)
  have plain := @bindingJson_size_le floatText _ (@plainBinding_valid host)
  have bound := @bindingJson_size_le floatText _ valid
  have runField := @evidenced_size host floatText _ .str runId _ (identifier_size_le identified)
  have capture := @sealJson_size_le floatText (runTrace host policy eventIds runId).rawCapture (isDigest_framedSha256 _ _ _)
  have array := @size_arr_le floatText ((eventIds.zipIdx.map (plainEvent host)).map eventJson)
  have events : (((eventIds.zipIdx.map (plainEvent host)).map eventJson).map fun value => textSize (compactChars floatText value)).sum ≤
      eventIds.length * 2000 := by
    rw [List.map_map, List.map_map]
    have each := List.sum_le_card_nsmul (eventIds.zipIdx.map ((fun value => textSize (compactChars floatText value)) ∘ eventJson ∘ plainEvent host))
      2000 (by
        intro size member
        obtain ⟨entry, listed, rfl⟩ := List.mem_map.1 member
        exact event_size (identifiers entry.1 (List.mem_of_getElem? (List.mem_zipIdx_iff_getElem?.1 listed))))
    rwa [List.length_map, List.length_zipIdx, smul_eq_mul] at each
  have limit : maxTraceCompactJsonBytes = 8388608 := rfl
  have parts : traceJson (runTrace host policy eventIds runId) = .obj [("schema", bindingJson host.schemaBinding),
    ("run_id", evidencedJson .str ⟨some runId, citation host⟩), ("adapter", bindingJson (plainBinding host)), ("policy", bindingJson policy),
    ("raw_capture", sealJson (runTrace host policy eventIds runId).rawCapture),
    ("events", .arr ((eventIds.zipIdx.map (plainEvent host)).map eventJson))] := rfl
  simp only [List.map_cons, List.map_nil, List.sum_cons, List.sum_nil] at outer
  rw [List.length_map, List.length_map, List.length_zipIdx] at array
  rw [length_compactBytes, parts]
  omega

theorem mem_plainEvents {event : AgentActionEvent} (member : event ∈ (runTrace host policy eventIds runId).events) :
    ∃ entry : String × Nat, entry.1 ∈ eventIds ∧ event = plainEvent host entry := by
  obtain ⟨entry, listed, rfl⟩ := List.mem_map.1 member
  exact ⟨entry, List.mem_of_getElem? (List.mem_zipIdx_iff_getElem?.1 listed), rfl⟩

theorem plainTrace_parts (identified : isIdentifier runId = true) (valid : BindingValid policy) (identifiers : ∀ eventId ∈ eventIds, isIdentifier eventId = true)
    (few : eventIds.length ≤ 1000) : TraceFits (runTrace host policy eventIds runId) := by
  refine ⟨schemaBinding_valid.fits, ⟨?_, citation_fits⟩, plainBinding_valid.fits, valid.fits, Nat.le_of_eq (utf8ByteSize_framedSha256 _ _ _), ?_, ?_⟩
  · intro value present
    exact Option.some.inj present ▸ (isIdentifier_plain identified).1
  · show (eventIds.zipIdx.map (plainEvent host)).length ≤ maxEvents
    rw [List.length_map, List.length_zipIdx]
    exact Nat.le_trans few (by decide)
  · intro event member
    obtain ⟨entry, listed, rfl⟩ := mem_plainEvents member
    exact plainEvent_fits (identifiers entry.1 listed)

theorem plainTrace_ids : (runTrace host policy eventIds runId).events.map (·.eventId.value) = eventIds.map some := by
  show (eventIds.zipIdx.map (plainEvent host)).map (·.eventId.value) = _
  rw [List.map_map]
  conv_rhs => rw [← @List.zipIdx_map_fst _ 0 eventIds, List.map_map]
  rfl

theorem plainRecords_at {position : Nat} (inside : position < eventIds.length) :
    (plainRecords host eventIds)[position]? = some (emptyRecord host) := List.getElem?_replicate_of_lt inside

theorem citation_valid {context : TrajectoryValidationContext} (nonempty : eventIds ≠ []) :
    EvidenceValid host.sha256 (plainRecords host eventIds) context (citation host) := by
  refine ⟨by show ¬(2 : UInt64) = 0; decide, emptyRecord host, plainRecords_at (List.length_pos_iff.2 nonempty), ?_, ?_⟩
  · show (0 : UInt64).toNat + (2 : UInt64).toNat ≤ (emptyRecord host).length
    rw [emptyRecord_eq]
    decide
  · show sourceLocatorDigest host.sha256 (emptyRecord host) = sourceLocatorDigest host.sha256 (((emptyRecord host).drop 0).take 2)
    rw [emptyRecord_eq]
    rfl

theorem plainEvents_valid {context : TrajectoryValidationContext} (identifiers : ∀ eventId ∈ eventIds, isIdentifier eventId = true)
    (nonempty : eventIds ≠ []) {entry : AgentActionEvent × Nat} (member : entry ∈ (runTrace host policy eventIds runId).events.zipIdx) :
    EventValid host.sha256 (plainRecords host eventIds) context entry.2 entry.1 := by
  obtain ⟨event, position⟩ := entry
  have found : (eventIds.zipIdx.map (plainEvent host))[position]? = some event := List.mem_zipIdx_iff_getElem?.1 member
  rw [List.getElem?_map, List.getElem?_zipIdx, Option.map_map, Option.map_eq_some_iff] at found
  obtain ⟨eventId, atEvent, rfl⟩ := found
  have inside : position < eventIds.length := (List.getElem?_eq_some_iff.1 atEvent).1
  have identifier := identifiers eventId (List.mem_of_getElem? atEvent)
  have cited := @citation_valid host eventIds context nonempty
  exact ⟨⟨cited, eventId, rfl, identifier⟩, ⟨cited, _, rfl, by simp⟩, ⟨cited, .observation, rfl, trivial⟩, by simp [plainEvent],
    by simp [plainEvent], ⟨emptyRecord host, plainRecords_at inside, rfl⟩, by simp [plainEvent]⟩

theorem run_accepted (identified : isIdentifier runId = true) (valid : BindingValid policy) (identifiers : ∀ eventId ∈ eventIds, isIdentifier eventId = true)
    (distinct : eventIds.Nodup) (nonempty : eventIds ≠ []) (few : eventIds.length ≤ 1000)
    (read : host.reader.parse (emptyRecord host) = some (.obj [])) :
    validateTrace host (runTrace host policy eventIds runId) (plainRecords host eventIds) (plainContext host policy eventIds) = .ok ⟨⟩ := by
  have within : WithinLimits .unbounded (.obj []) := ⟨by decide, by decide, by decide, by decide, List.nodup_nil, by decide, by decide, trivial⟩
  have record : ∀ record ∈ plainRecords host eventIds, record = emptyRecord host := fun record member => (List.mem_replicate.1 member).2
  refine validateTrace_eq_ok.2 {
    recordBytes := fun other member => by rw [record other member, emptyRecord_eq]; decide
    captureBytes := ?captureBytes
    parts := plainTrace_parts identified valid identifiers few
    charges := plainTrace_fit few
    compact := plainTrace_size identified valid identifiers few
    schema := rfl
    adapter := ⟨plainBinding_valid, rfl⟩
    policy := ⟨valid, rfl⟩
    declared := rfl
    sealed := rfl
    objects := fun other member => by rw [record other member]; exact scanJsonWithLimits_ok read within
    nonempty := ?nonempty
    oneEach := by simp [runTrace, plainTrace, plainRecords]
    runId := ⟨citation_valid nonempty, runId, rfl, identified⟩
    events := fun entry member => plainEvents_valid identifiers nonempty member
    distinct := by rw [plainTrace_ids]; exact distinct.map (Option.some_injective String) }
  case captureBytes =>
    have total : ((plainRecords host eventIds).map List.length).sum = eventIds.length * 2 := by
      rw [plainRecords, List.map_replicate, List.sum_replicate, smul_eq_mul, emptyRecord_eq]
      rfl
    have limit : maxRawCaptureBytes = 67108864 := rfl
    omega
  case nonempty =>
    intro empty
    exact nonempty (List.zipIdx_eq_nil_iff.1 (List.map_eq_nil_iff.1 empty))

theorem plain_accepted (valid : BindingValid policy) (identifiers : ∀ eventId ∈ eventIds, isIdentifier eventId = true)
    (distinct : eventIds.Nodup) (nonempty : eventIds ≠ []) (few : eventIds.length ≤ 1000)
    (read : host.reader.parse (emptyRecord host) = some (.obj [])) :
    validateTrace host (plainTrace host policy eventIds) (plainRecords host eventIds) (plainContext host policy eventIds) = .ok ⟨⟩ :=
  run_accepted (by decide : isIdentifier "run" = true) valid identifiers distinct nonempty few read

theorem single_accepted {eventId : String} (atRun : isIdentifier runId = true) (atEvent : isIdentifier eventId = true)
    (read : host.reader.parse (emptyRecord host) = some (.obj [])) :
    validateTrace host (singleTrace host runId eventId) [emptyRecord host] (singleContext host) = .ok ⟨⟩ :=
  run_accepted atRun plainBinding_valid (List.forall_mem_singleton.2 atEvent) (List.nodup_singleton eventId) (List.cons_ne_nil _ _)
    (by simp : [eventId].length ≤ 1000) read

end

def singleValidated (runId eventId : String) (atRun : isIdentifier runId = true) (atEvent : isIdentifier eventId = true) :
    ValidatedTrajectoryTrace exampleHost where
  trace := singleTrace exampleHost runId eventId
  rawRecords := [emptyRecord exampleHost]
  declarations := singleContext exampleHost
  accepted := single_accepted atRun atEvent (exampleHost_faithful.exact trivial (by decide))

theorem single_budget {runId eventId : String} (atRun : isIdentifier runId = true) (atEvent : isIdentifier eventId = true) :
    validateResourceBudget (singleTrace exampleHost runId eventId) [emptyRecord exampleHost] (singleContext exampleHost) = .ok ⟨⟩ := by
  obtain ⟨⟨⟩, budget, -⟩ := bind_eq_ok.1 (singleValidated runId eventId atRun atEvent).accepted
  exact budget

theorem validateTrace_exact_single : TraceValid exampleHost (singleTrace exampleHost "run" "event") [emptyRecord exampleHost]
      (singleContext exampleHost) ∧
    ∀ entry ∈ (singleTrace exampleHost "run" "event").events.zipIdx, entry.2 < [emptyRecord exampleHost].length := by
  have identifier : isIdentifier "run" = true ∧ isIdentifier "event" = true := by decide
  obtain ⟨exactly, -, inside⟩ := validateTrace_exact exampleHost (singleTrace exampleHost "run" "event") [emptyRecord exampleHost]
    (singleContext exampleHost)
  have accepted := (singleValidated "run" "event" identifier.1 identifier.2).accepted
  exact ⟨exactly.1 accepted, inside (single_budget identifier.1 identifier.2)⟩

def otherAdapter : ArtifactBinding := ⟨"other", "0", artifactDigest exampleHost.sha256 []⟩

/-- Such a trace is refused where another adapter is declared. -/
theorem validateTrace_other_adapter :
    ShapeValid exampleHost (singleTrace exampleHost "run" "event") [emptyRecord exampleHost]
        { singleContext exampleHost with adapter := otherAdapter } ∧
      validateTrace exampleHost (singleTrace exampleHost "run" "event") [emptyRecord exampleHost]
        { singleContext exampleHost with adapter := otherAdapter } ≠ .ok ⟨⟩ := by
  have identifier : isIdentifier "run" = true ∧ isIdentifier "event" = true := by decide
  have valid := validateTrace_eq_ok.1 (singleValidated "run" "event" identifier.1 identifier.2).accepted
  have resources := validateResourceBudget_eq_ok.1 (@single_budget "run" "event" identifier.1 identifier.2)
  have other : BindingValid otherAdapter :=
    ⟨by show isAsciiName "other" = true; decide, by show isAsciiVersion "0" = true; decide, isDigest_framedSha256 _ _ _⟩
  refine ⟨?_, fun accepted => ?_⟩
  · refine ⟨{ resources with adapter := other.fits }, valid.compact, fun entry member => ?_, valid.distinct, fun locator member => ?_⟩
    · obtain ⟨value, present, same⟩ := (valid.events entry member).sequenceIndex.value
      rw [present, same]
    · have cited : LocatorValid exampleHost.sha256 [emptyRecord exampleHost] (citedLocator exampleHost) := valid.runId.evidence
      have same : (singleTrace exampleHost "run" "event").locators = List.replicate 4 (citedLocator exampleHost) := by
        simp [TrajectoryTrace.locators, AgentActionEvent.evidence, Evidence.locators, singleTrace, singleEvent, citation, List.replicate]
      rw [same] at member
      exact List.eq_of_mem_replicate member ▸ cited
  · have names := congrArg ArtifactBinding.identity (validateTrace_eq_ok.1 accepted).adapter.2
    exact absurd names (by decide : "plain" ≠ "other")

theorem ValidatedTrajectoryTrace.facts {host : Host} (validated : ValidatedTrajectoryTrace host) : TraceAccepted validated.trace := by
  have valid := validateTrace_eq_ok.1 validated.accepted
  refine ⟨valid.schema ▸ schemaBinding_valid, valid.adapter.1, valid.policy.1, ?_, ?_, valid.nonempty, valid.parts.eventCount, ?_⟩
  · rw [valid.sealed]
    exact isDigest_framedSha256 _ _ _
  · rw [valid.sealed, valid.oneEach]
    rfl
  · intro entry member
    have event := valid.events entry member
    obtain ⟨position, present, rfl⟩ := event.sequenceIndex.value
    obtain ⟨record, -, digest⟩ := event.rawRecord
    exact ⟨event.eventId.value, present, digest ▸ isDigest_framedSha256 _ _ _⟩

end Legitimacy.Trajectory
