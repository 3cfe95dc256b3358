import Legitimacy.JsonReader
import Legitimacy.Sha256
import Legitimacy.Trajectory.Names

namespace Legitimacy.Trajectory

open ExceptRun

structure EventAccepted (position : Nat) (event : AgentActionEvent) : Prop where
  eventId : ∃ value, event.eventId.value = some value ∧ isIdentifier value = true
  sequenceIndex : event.sequenceIndex.value = some (.ofNat position)
  rawRecord : isDigest event.rawRecord.digest = true

structure TraceAccepted (trace : TrajectoryTrace) : Prop where
  schema : BindingValid trace.schema
  adapter : BindingValid trace.adapter
  policy : BindingValid trace.policy
  rawCapture : isDigest trace.rawCapture.digest = true
  recordCount : trace.rawCapture.recordCount = .ofNat trace.events.length
  nonempty : trace.events ≠ []
  eventCount : trace.events.length ≤ maxEvents
  events : ∀ entry ∈ trace.events.zipIdx, EventAccepted entry.2 entry.1

theorem serializeBoundedCompactJson_eq_ok {host : Host} {trace : TrajectoryTrace} {bytes : List UInt8} :
    serializeBoundedCompactJson host trace = .ok bytes ↔ bytes = (traceJson trace).compactBytes host.floatText ∧
      bytes.length ≤ maxTraceCompactJsonBytes := by
  unfold serializeBoundedCompactJson invalid
  constructor
  · intro run
    obtain ⟨small, made⟩ := guard_eq_ok.1 run
    obtain rfl := Except.ok.inj made
    exact ⟨rfl, Nat.not_lt.1 small⟩
  · rintro ⟨rfl, small⟩
    exact guard_eq_ok.2 ⟨Nat.not_lt.2 small, rfl⟩

open Json Serde

section

variable (host : Host) (runId eventId : String)

def emptyRecord : List UInt8 := compactBytes host.floatText (.obj [])

def citedLocator : SourceLocator := ⟨0, 0, 2, sourceLocatorDigest host.sha256 (emptyRecord host)⟩

def citation : Evidence := .citesRawRange (citedLocator host)

def plainBinding : ArtifactBinding := ⟨"plain", "0", artifactDigest host.sha256 []⟩

def plainEvent (entry : String × Nat) : AgentActionEvent where
  eventId := ⟨some entry.1, citation host⟩
  sequenceIndex := ⟨some (.ofNat entry.2), citation host⟩
  kind := ⟨some .observation, citation host⟩
  sourceItemId := none
  rawRecord := ⟨.ofNat entry.2, rawRecordDigest host.sha256 (emptyRecord host)⟩
  payload := ∅

def singleEvent : AgentActionEvent where
  eventId := ⟨some eventId, citation host⟩
  sequenceIndex := ⟨some 0, citation host⟩
  kind := ⟨some .observation, citation host⟩
  sourceItemId := none
  rawRecord := ⟨0, rawRecordDigest host.sha256 (emptyRecord host)⟩
  payload := ∅

def singleTrace : TrajectoryTrace where
  schema := host.schemaBinding
  runId := ⟨some runId, citation host⟩
  adapter := plainBinding host
  policy := plainBinding host
  rawCapture := rawCaptureSeal host.sha256 [emptyRecord host]
  events := [singleEvent host eventId]

def singleContext : TrajectoryValidationContext where
  adapter := plainBinding host
  policy := plainBinding host
  rawCapture := rawCaptureSeal host.sha256 [emptyRecord host]
  allowedDerivations := []

end

section

variable {host : Host} {runId eventId : String}

theorem emptyRecord_eq : emptyRecord host = [123, 125] := by
  show (String.ofList ['{', '}']).toList.flatMap String.utf8EncodeChar = _
  rw [String.toList_ofList]
  decide

theorem plainBinding_valid : BindingValid (plainBinding host) :=
  ⟨by show isAsciiName "plain" = true; decide, by show isAsciiVersion "0" = true; decide, isDigest_framedSha256 _ _ _⟩

theorem schemaBinding_valid : BindingValid host.schemaBinding :=
  ⟨by show isAsciiName schemaId = true; decide, by show isAsciiVersion schemaVersion = true; decide, isDigest_framedSha256 _ _ _⟩

theorem BindingValid.fits {binding : ArtifactBinding} (valid : BindingValid binding) : BindingFits binding :=
  ⟨(isAsciiName_plain valid.identity).1, (isAsciiVersion_plain valid.version).1, (isDigest_plain valid.hash).1.le⟩

section

variable {floatText : Float → String}

theorem citation_size : textSize (compactChars floatText (evidenceJson (citation host))) ≤ 300 := by
  have inner := @size_struct_le floatText [("record_index", u64 0), ("byte_offset", u64 0), ("byte_length", u64 2),
    ("digest", .str (citedLocator host).digest)] ["record_index", "byte_offset", "byte_length", "digest"] rfl 58 (by decide)
  have outer := @size_struct_le floatText [("classification", .str "cites-raw-range"), ("locator", locatorJson (citedLocator host))]
    ["classification", "locator"] rfl 31 (by decide)
  have zero := @size_u64_le floatText 0
  have two := @size_u64_le floatText 2
  have digest : textSize (compactChars floatText (.str (citedLocator host).digest)) = 73 := isDigest_size (isDigest_framedSha256 _ _ _)
  have label := @PlainText.size "cites-raw-range" (by decide) floatText
  have labelSize : "cites-raw-range".utf8ByteSize = 15 := rfl
  have locator : locatorJson (citedLocator host) = .obj [("record_index", u64 0), ("byte_offset", u64 0), ("byte_length", u64 2),
    ("digest", .str (citedLocator host).digest)] := rfl
  simp only [List.map_cons, List.map_nil, List.sum_cons, List.sum_nil] at inner outer
  rw [← locator] at inner
  rw [citation, evidenceJson]
  omega

theorem evidenced_size {α : Type} {encode : α → Json} {value : α} {bound : Nat}
    (small : textSize (compactChars floatText (encode value)) ≤ bound) :
    textSize (compactChars floatText (evidencedJson encode ⟨some value, citation host⟩)) ≤ bound + 330 := by
  have outer := @size_struct_le floatText [("value", encode value), ("evidence", evidenceJson (citation host))] ["value", "evidence"] rfl 23
    (by decide)
  have evidence := @citation_size host floatText
  simp only [List.map_cons, List.map_nil, List.sum_cons, List.sum_nil] at outer
  show textSize (compactChars floatText (.obj [("value", encode value), ("evidence", evidenceJson (citation host))])) ≤ _
  omega

theorem event_size {entry : String × Nat} (atEvent : isIdentifier entry.1 = true) :
    textSize (compactChars floatText (eventJson (plainEvent host entry))) ≤ 2000 := by
  have outer := @size_struct_le floatText [("event_id", evidencedJson .str ⟨some entry.1, citation host⟩),
    ("sequence_index", evidencedJson u64 ⟨some (.ofNat entry.2), citation host⟩),
    ("kind", evidencedJson (fun kind => .str kind.label) ⟨some NormalizedEventKind.observation, citation host⟩),
    ("source_item_id", .null), ("raw_record", recordReferenceJson (plainEvent host entry).rawRecord), ("payload", .obj [])]
    ["event_id", "sequence_index", "kind", "source_item_id", "raw_record", "payload"] rfl 83 (by decide)
  have reference := @size_struct_le floatText [("record_index", u64 (.ofNat entry.2)), ("digest", .str (rawRecordDigest host.sha256 (emptyRecord host)))]
    ["record_index", "digest"] rfl 28 (by decide)
  have position := @size_u64_le floatText (.ofNat entry.2)
  have digest : textSize (compactChars floatText (.str (rawRecordDigest host.sha256 (emptyRecord host)))) = 73 := isDigest_size (isDigest_framedSha256 _ _ _)
  have eventField := @evidenced_size host floatText _ .str entry.1 _ (identifier_size_le atEvent)
  have sequenceField := @evidenced_size host floatText _ u64 (.ofNat entry.2) _ position
  have label := @PlainText.size "observation" (by decide) floatText
  have labelSize : "observation".utf8ByteSize = 11 := rfl
  have kindField := @evidenced_size host floatText _ (fun kind => .str kind.label) NormalizedEventKind.observation 13 (by
    show textSize (compactChars floatText (.str "observation")) ≤ 13
    omega)
  have null : textSize (compactChars floatText .null) = 4 := rfl
  have empty : textSize (compactChars floatText (.obj [])) = 2 := rfl
  have parts : eventJson (plainEvent host entry) = .obj [("event_id", evidencedJson .str ⟨some entry.1, citation host⟩),
    ("sequence_index", evidencedJson u64 ⟨some (.ofNat entry.2), citation host⟩),
    ("kind", evidencedJson (fun kind => .str kind.label) ⟨some NormalizedEventKind.observation, citation host⟩),
    ("source_item_id", .null), ("raw_record", recordReferenceJson (plainEvent host entry).rawRecord), ("payload", .obj [])] := rfl
  have record : recordReferenceJson (plainEvent host entry).rawRecord =
    .obj [("record_index", u64 (.ofNat entry.2)), ("digest", .str (rawRecordDigest host.sha256 (emptyRecord host)))] := rfl
  simp only [List.map_cons, List.map_nil, List.sum_cons, List.sum_nil] at outer reference
  rw [← record] at reference
  rw [parts]
  omega

end

end

/-- A host with the reader of this development, which has no float to write and an empty schema file. -/
def exampleHost : Host where
  sha256 input := ⟨Sha256.hash input, Sha256.length_hash input⟩
  reader := ⟨readText, fun _ _ => .invalid⟩
  floatText _ := "0.0"
  schemaBytes := []

theorem exampleHost_faithful : Faithful exampleHost.floatText exampleHost.reader.parse := readText_faithful _

end Legitimacy.Trajectory
