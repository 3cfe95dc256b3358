import Legitimacy.Json
import Legitimacy.Trajectory.Trace
import Mathlib.Data.String.Basic

namespace Legitimacy.Trajectory

open Serde

section

def bindingJson (binding : ArtifactBinding) : Json :=
  .obj [("identity", .str binding.identity), ("version", .str binding.version), ("hash", .str binding.hash)]

def sealJson (capture : RawCaptureSeal) : Json := .obj [("record_count", u64 capture.recordCount), ("digest", .str capture.digest)]

def locatorJson (locator : SourceLocator) : Json :=
  .obj [("record_index", u64 locator.recordIndex), ("byte_offset", u64 locator.byteOffset), ("byte_length", u64 locator.byteLength),
    ("digest", .str locator.digest)]

def evidenceJson : Evidence → Json
  | .citesRawRange locator => .obj [("classification", .str "cites-raw-range"), ("locator", locatorJson locator)]
  | .declaredDerivationBinding rule sourceInputs =>
    .obj [("classification", .str "declared-derivation-binding"), ("rule", bindingJson rule),
      ("source_inputs", .arr (sourceInputs.map locatorJson))]
  | .unavailable reason => .obj [("classification", .str "unavailable"), ("reason", .str reason)]

def evidencedJson {α : Type} (encode : α → Json) (field : Evidenced α) : Json :=
  .obj [("value", option encode field.value), ("evidence", evidenceJson field.evidence)]

mutual

def treeJson : NormalizedTree → Json
  | .null => .obj [("type", .str "null")]
  | .boolean value => .obj [("type", .str "boolean"), ("value", .bool value)]
  | .integer digits => .obj [("type", .str "integer"), ("value", .str digits)]
  | .string text => .obj [("type", .str "string"), ("value", .str text)]
  | .array values => .obj [("type", .str "array"), ("value", .arr (treesJson values))]
  | .object fields => .obj [("type", .str "object"), ("value", .obj (fieldsJson fields))]

def treesJson : List NormalizedTree → List Json
  | [] => []
  | value :: rest => treeJson value :: treesJson rest

def fieldsJson : List (String × NormalizedTree) → List (String × Json)
  | [] => []
  | (key, value) :: rest => (key, treeJson value) :: fieldsJson rest

end

def valueJson (value : NormalizedValue) : Json := treeJson value.tree

def recordReferenceJson (reference : RawRecordReference) : Json :=
  .obj [("record_index", u64 reference.recordIndex), ("digest", .str reference.digest)]

def payloadJson (payload : BTreeMap String (Evidenced NormalizedValue)) : Json :=
  .obj (payload.toList.map fun field => (field.1, evidencedJson valueJson field.2))

def eventJson (event : AgentActionEvent) : Json :=
  .obj [("event_id", evidencedJson .str event.eventId), ("sequence_index", evidencedJson u64 event.sequenceIndex),
    ("kind", evidencedJson (fun kind => .str kind.label) event.kind),
    ("source_item_id", option (evidencedJson .str) event.sourceItemId), ("raw_record", recordReferenceJson event.rawRecord),
    ("payload", payloadJson event.payload)]

def traceJson (trace : TrajectoryTrace) : Json :=
  .obj [("schema", bindingJson trace.schema), ("run_id", evidencedJson .str trace.runId), ("adapter", bindingJson trace.adapter),
    ("policy", bindingJson trace.policy), ("raw_capture", sealJson trace.rawCapture), ("events", .arr (trace.events.map eventJson))]

end

section

def decodeBinding (json : Json) : Option ArtifactBinding := do
  match ← structFields ["identity", "version", "hash"] json with
  | [some identity, some version, some hash] => some ⟨← decodeString identity, ← decodeString version, ← decodeString hash⟩
  | _ => none

def decodeSeal (json : Json) : Option RawCaptureSeal := do
  match ← structFields ["record_count", "digest"] json with
  | [some recordCount, some digest] => some ⟨← decodeU64 recordCount, ← decodeString digest⟩
  | _ => none

def decodeLocator (json : Json) : Option SourceLocator := do
  match ← structFields ["record_index", "byte_offset", "byte_length", "digest"] json with
  | [some recordIndex, some byteOffset, some byteLength, some digest] =>
    some ⟨← decodeU64 recordIndex, ← decodeU64 byteOffset, ← decodeU64 byteLength, ← decodeString digest⟩
  | _ => none

def decodeEvidence (json : Json) : Option Evidence := do
  match ← tagged "classification" json with
  | ("cites-raw-range", rest) =>
    match ← structFields ["locator"] rest with
    | [some locator] => some (.citesRawRange (← decodeLocator locator))
    | _ => none
  | ("declared-derivation-binding", rest) =>
    match ← structFields ["rule", "source_inputs"] rest with
    | [some rule, some sourceInputs] =>
      some (.declaredDerivationBinding (← decodeBinding rule) (← decodeVec decodeLocator sourceInputs))
    | _ => none
  | ("unavailable", rest) =>
    match ← structFields ["reason"] rest with
    | [some reason] => some (.unavailable (← decodeString reason))
    | _ => none
  | _ => none

def decodeEvidenced {α : Type} (decode : Json → Option α) (json : Json) : Option (Evidenced α) := do
  match ← structFields ["value", "evidence"] json with
  | [some value, some evidence] => some ⟨← decodeOption decode value, ← decodeEvidence evidence⟩
  | _ => none

def decodeKind : Json → Option NormalizedEventKind :=
  decodeVariant fun label =>
    match label with
    | "action-request" => some .actionRequest
    | "action-result" => some .actionResult
    | "observation" => some .observation
    | "message" => some .message
    | "lifecycle" => some .lifecycle
    | _ => none

def uniqueFields (fields : List (String × NormalizedTree)) : Option (List (String × NormalizedTree)) :=
  if (fields.map Prod.fst).Nodup then some (fields.insertionSort fun left right => left.1 ≤ right.1) else none

mutual

def decodeTree : Json → Option NormalizedTree
  | .obj [(key, label)] => if key = "type" ∧ decodeString label = some "null" then some .null else none
  | .obj [(key, first), (key', second)] =>
    if key = "type" ∧ key' = "value" then decodeContent (decodeString first) second
    else if key = "value" ∧ key' = "type" then decodeContent (decodeString second) first
    else none
  | .arr [label, content] => decodeContent (decodeString label) content
  | _ => none

def decodeContent (label : Option String) : Json → Option NormalizedTree
  | .null => if label = some "null" then some .null else none
  | .bool value => if label = some "boolean" then some (.boolean value) else none
  | .str value =>
    if label = some "integer" then some (.integer value) else if label = some "string" then some (.string value) else none
  | .arr values => do if label = some "array" then some (.array (← decodeTrees values)) else none
  | .obj fields => do if label = some "object" then some (.object (← uniqueFields (← decodeFields fields))) else none
  | .int _ => none
  | .float _ => none

def decodeTrees : List Json → Option (List NormalizedTree)
  | [] => some []
  | value :: rest => do some ((← decodeTree value) :: (← decodeTrees rest))

def decodeFields : List (String × Json) → Option (List (String × NormalizedTree))
  | [] => some []
  | (key, value) :: rest => do some ((key, ← decodeTree value) :: (← decodeFields rest))

end

end

section

theorem allOrdered_iff : ∀ {values : List NormalizedTree}, NormalizedTree.AllOrdered values ↔ ∀ value ∈ values, value.Ordered
  | [] => by simp [NormalizedTree.AllOrdered]
  | value :: rest => by simp [NormalizedTree.AllOrdered, @allOrdered_iff rest]

theorem fieldsOrdered_iff : ∀ {fields : List (String × NormalizedTree)},
    NormalizedTree.FieldsOrdered fields ↔ ∀ field ∈ fields, field.2.Ordered
  | [] => by simp [NormalizedTree.FieldsOrdered]
  | (key, value) :: rest => by
    rw [NormalizedTree.FieldsOrdered, @fieldsOrdered_iff rest, List.forall_mem_cons]

theorem keyOrder_total : Std.Total fun left right : String × NormalizedTree => left.1 ≤ right.1 :=
  ⟨fun left right => le_total left.1 right.1⟩

theorem keyOrder_trans : IsTrans (String × NormalizedTree) fun left right => left.1 ≤ right.1 := ⟨fun _ _ _ => le_trans⟩

theorem uniqueFields_ordered {fields sorted : List (String × NormalizedTree)} (made : uniqueFields fields = some sorted)
    (inner : ∀ field ∈ fields, field.2.Ordered) : (NormalizedTree.object sorted).Ordered := by
  have total := keyOrder_total
  have trans := keyOrder_trans
  obtain ⟨distinct, same⟩ := Option.ite_none_right_eq_some.1 made
  obtain rfl := Option.some.inj same
  have perm := List.perm_insertionSort (fun left right : String × NormalizedTree => left.1 ≤ right.1) fields
  refine ⟨?_, fieldsOrdered_iff.2 fun field member => inner field (perm.mem_iff.1 member)⟩
  have increasing := List.pairwise_map.2 (List.pairwise_insertionSort (fun left right : String × NormalizedTree => left.1 ≤ right.1) fields)
  have apart := (perm.map Prod.fst).nodup_iff.2 distinct
  exact (increasing.and apart).imp fun ⟨below, different⟩ => lt_of_le_of_ne below different

mutual

theorem decodeTree_ordered : (json : Json) → ∀ {tree : NormalizedTree}, decodeTree json = some tree → tree.Ordered
  | .obj [(key, label)], tree, made => by
    rw [decodeTree] at made
    obtain ⟨-, same⟩ := Option.ite_none_right_eq_some.1 made
    obtain rfl := Option.some.inj same
    trivial
  | .obj [(key, first), (key', second)], tree, made => by
    rw [decodeTree] at made
    split at made
    · exact decodeContent_ordered second made
    · obtain ⟨-, made⟩ := Option.ite_none_right_eq_some.1 made
      exact decodeContent_ordered first made
  | .arr [label, content], tree, made => by
    rw [decodeTree] at made
    exact decodeContent_ordered content made
  | .null, tree, made => by cases made
  | .bool _, tree, made => by cases made
  | .int _, tree, made => by cases made
  | .float _, tree, made => by cases made
  | .str _, tree, made => by cases made
  | .arr [], tree, made => by cases made
  | .arr [_], tree, made => by cases made
  | .arr (_ :: _ :: _ :: _), tree, made => by cases made
  | .obj [], tree, made => by cases made
  | .obj (_ :: _ :: _ :: _), tree, made => by cases made

theorem decodeContent_ordered : (json : Json) → ∀ {label : Option String} {tree : NormalizedTree},
    decodeContent label json = some tree → tree.Ordered
  | .null, label, tree, made => by
    obtain ⟨-, same⟩ := Option.ite_none_right_eq_some.1 made
    obtain rfl := Option.some.inj same
    trivial
  | .bool _, label, tree, made => by
    obtain ⟨-, same⟩ := Option.ite_none_right_eq_some.1 made
    obtain rfl := Option.some.inj same
    trivial
  | .str value, label, tree, made => by
    rw [decodeContent] at made
    split at made
    · obtain rfl := Option.some.inj made
      trivial
    · obtain ⟨-, same⟩ := Option.ite_none_right_eq_some.1 made
      obtain rfl := Option.some.inj same
      trivial
  | .arr values, label, tree, made => by
    rw [decodeContent] at made
    obtain ⟨-, made⟩ := Option.ite_none_right_eq_some.1 made
    obtain ⟨trees, decoded, same⟩ := Option.bind_eq_some_iff.1 made
    obtain rfl := Option.some.inj same
    exact allOrdered_iff.2 (decodeTrees_ordered values decoded)
  | .obj fields, label, tree, made => by
    rw [decodeContent] at made
    obtain ⟨-, made⟩ := Option.ite_none_right_eq_some.1 made
    obtain ⟨entries, decoded, made⟩ := Option.bind_eq_some_iff.1 made
    obtain ⟨sorted, unique, same⟩ := Option.bind_eq_some_iff.1 made
    obtain rfl := Option.some.inj same
    exact uniqueFields_ordered unique (decodeFields_ordered fields decoded)
  | .int _, label, tree, made => by cases made
  | .float _, label, tree, made => by cases made

theorem decodeTrees_ordered : (values : List Json) → ∀ {trees : List NormalizedTree}, decodeTrees values = some trees →
    ∀ tree ∈ trees, tree.Ordered
  | [], trees, made => by
    obtain rfl := Option.some.inj made
    simp
  | value :: rest, trees, made => by
    obtain ⟨tree, decoded, made⟩ := Option.bind_eq_some_iff.1 made
    obtain ⟨others, decodedRest, same⟩ := Option.bind_eq_some_iff.1 made
    obtain rfl := Option.some.inj same
    exact List.forall_mem_cons.2 ⟨decodeTree_ordered value decoded, decodeTrees_ordered rest decodedRest⟩

theorem decodeFields_ordered : (fields : List (String × Json)) → ∀ {entries : List (String × NormalizedTree)},
    decodeFields fields = some entries → ∀ entry ∈ entries, entry.2.Ordered
  | [], entries, made => by
    obtain rfl := Option.some.inj made
    simp
  | (key, value) :: rest, entries, made => by
    obtain ⟨tree, decoded, made⟩ := Option.bind_eq_some_iff.1 made
    obtain ⟨others, decodedRest, same⟩ := Option.bind_eq_some_iff.1 made
    obtain rfl := Option.some.inj same
    exact List.forall_mem_cons.2 ⟨decodeTree_ordered value decoded, decodeFields_ordered rest decodedRest⟩

end

end

section

def decodeValue (json : Json) : Option NormalizedValue :=
  (decodeTree json).pmap (fun tree ordered => ⟨tree, ordered⟩) fun _ made => decodeTree_ordered json made

/-- A map without a key twice, its entries sorted in. -/
def decodeUniqueMap {α : Type} (decode : Json → Option α) : Json → Option (BTreeMap String α)
  | .obj fields => do
    let entries ← fields.mapM fun field => (decode field.2).map (Prod.mk field.1)
    if (fields.map Prod.fst).Nodup then some (Std.ExtTreeMap.ofList entries compare) else none
  | _ => none

def decodeRecordReference (json : Json) : Option RawRecordReference := do
  match ← structFields ["record_index", "digest"] json with
  | [some recordIndex, some digest] => some ⟨← decodeU64 recordIndex, ← decodeString digest⟩
  | _ => none

def decodeEvent (json : Json) : Option AgentActionEvent := do
  match ← structFields ["event_id", "sequence_index", "kind", "source_item_id", "raw_record", "payload"] json with
  | [some eventId, some sequenceIndex, some kind, sourceItemId, some rawRecord, some payload] =>
    some {
      eventId := ← decodeEvidenced decodeString eventId
      sequenceIndex := ← decodeEvidenced decodeU64 sequenceIndex
      kind := ← decodeEvidenced decodeKind kind
      -- an `Option` field may be absent
      sourceItemId := ← decodeOption (decodeEvidenced decodeString) (sourceItemId.getD .null)
      rawRecord := ← decodeRecordReference rawRecord
      payload := ← decodeUniqueMap (decodeEvidenced decodeValue) payload }
  | _ => none

def decodeTrace (json : Json) : Option TrajectoryTrace := do
  match ← structFields ["schema", "run_id", "adapter", "policy", "raw_capture", "events"] json with
  | [some schema, some runId, some adapter, some policy, some rawCapture, some events] =>
    some {
      schema := ← decodeBinding schema
      runId := ← decodeEvidenced decodeString runId
      adapter := ← decodeBinding adapter
      policy := ← decodeBinding policy
      rawCapture := ← decodeSeal rawCapture
      events := ← decodeVec decodeEvent events }
  | _ => none

end

section

theorem decodeBinding_bindingJson (binding : ArtifactBinding) : decodeBinding (bindingJson binding) = some binding := by
  simp [decodeBinding, bindingJson, structFields, List.lookup_cons, decodeString]

theorem decodeSeal_sealJson (capture : RawCaptureSeal) : decodeSeal (sealJson capture) = some capture := by
  simp [decodeSeal, sealJson, structFields, List.lookup_cons, decodeString]

theorem decodeLocator_locatorJson (locator : SourceLocator) : decodeLocator (locatorJson locator) = some locator := by
  simp [decodeLocator, locatorJson, structFields, List.lookup_cons, decodeString]

theorem decodeRecordReference_json (reference : RawRecordReference) :
    decodeRecordReference (recordReferenceJson reference) = some reference := by
  simp [decodeRecordReference, recordReferenceJson, structFields, List.lookup_cons, decodeString]

theorem decodeEvidence_evidenceJson (evidence : Evidence) : decodeEvidence (evidenceJson evidence) = some evidence := by
  cases evidence with
  | citesRawRange locator =>
    simp [decodeEvidence, evidenceJson, tagged, List.partition, List.partition.loop, structFields, decodeLocator_locatorJson]
  | declaredDerivationBinding rule sourceInputs =>
    have inputs : decodeVec decodeLocator (.arr (sourceInputs.map locatorJson)) = some sourceInputs :=
      mapM_map fun locator _ => decodeLocator_locatorJson locator
    simp [decodeEvidence, evidenceJson, tagged, List.partition, List.partition.loop, structFields, List.lookup_cons, decodeBinding_bindingJson,
      inputs]
  | unavailable reason =>
    simp [decodeEvidence, evidenceJson, tagged, List.partition, List.partition.loop, structFields, decodeString]

theorem decodeEvidenced_evidencedJson {α : Type} {decode : Json → Option α} {encode : α → Json}
    (inverse : ∀ value, decode (encode value) = some value) (notNull : ∀ value, encode value ≠ .null) (field : Evidenced α) :
    decodeEvidenced decode (evidencedJson encode field) = some field := by
  have value := decodeOption_option inverse notNull field.value
  have evidence := decodeEvidence_evidenceJson field.evidence
  simp [decodeEvidenced, evidencedJson, structFields, List.lookup_cons, value, evidence]

theorem decodeText_textJson (field : Evidenced String) : decodeEvidenced decodeString (evidencedJson .str field) = some field :=
  @decodeEvidenced_evidencedJson _ decodeString .str (fun _ => rfl) (fun _ => nofun) field

theorem decodeKind_label (kind : NormalizedEventKind) : decodeKind (.str kind.label) = some kind := by
  cases kind <;> simp [decodeKind, decodeVariant, NormalizedEventKind.label]

end

section

theorem uniqueFields_of_ordered {fields : List (String × NormalizedTree)} (increasing : (fields.map Prod.fst).Pairwise (· < ·)) :
    uniqueFields fields = some fields := by
  have sorted : fields.Pairwise fun left right => left.1 ≤ right.1 := (List.pairwise_map.1 increasing).imp le_of_lt
  have distinct : (fields.map Prod.fst).Nodup := increasing.imp ne_of_lt
  rw [uniqueFields, if_pos distinct, sorted.insertionSort_eq]

mutual

theorem decodeTree_treeJson : (tree : NormalizedTree) → tree.Ordered → decodeTree (treeJson tree) = some tree
  | .null, _ => rfl
  | .boolean _, _ => rfl
  | .integer _, _ => rfl
  | .string _, _ => rfl
  | .array values, ordered => by
    have decoded := decodeTrees_treesJson values ordered
    show (decodeTrees (treesJson values)).bind _ = _
    rw [decoded]
    rfl
  | .object fields, ordered => by
    have decoded := decodeFields_fieldsJson fields ordered.2
    show ((decodeFields (fieldsJson fields)).bind fun entries => (uniqueFields entries).bind _) = _
    rw [decoded, Option.bind_some, uniqueFields_of_ordered ordered.1]
    rfl

theorem decodeTrees_treesJson : (values : List NormalizedTree) → NormalizedTree.AllOrdered values →
    decodeTrees (treesJson values) = some values
  | [], _ => rfl
  | value :: rest, ordered => by
    rw [treesJson, decodeTrees, decodeTree_treeJson value ordered.1, decodeTrees_treesJson rest ordered.2]
    rfl

theorem decodeFields_fieldsJson : (fields : List (String × NormalizedTree)) → NormalizedTree.FieldsOrdered fields →
    decodeFields (fieldsJson fields) = some fields
  | [], _ => rfl
  | (key, value) :: rest, ordered => by
    rw [fieldsJson, decodeFields, decodeTree_treeJson value ordered.1, decodeFields_fieldsJson rest ordered.2]
    rfl

end

theorem decodeValue_valueJson (value : NormalizedValue) : decodeValue (valueJson value) = some value := by
  have decoded := decodeTree_treeJson value.tree value.ordered
  rw [decodeValue]
  simp only [valueJson, decoded, Option.pmap_some]

theorem treeJson_ne_null (tree : NormalizedTree) : treeJson tree ≠ .null := by cases tree <;> nofun

theorem decodePayload_payloadJson (payload : BTreeMap String (Evidenced NormalizedValue)) :
    decodeUniqueMap (decodeEvidenced decodeValue) (payloadJson payload) = some payload := by
  have field : ∀ entry : Evidenced NormalizedValue, decodeEvidenced decodeValue (evidencedJson valueJson entry) = some entry :=
    decodeEvidenced_evidencedJson decodeValue_valueJson fun value => treeJson_ne_null value.tree
  have entries : (payload.toList.map fun field => (field.1, evidencedJson valueJson field.2)).mapM
      (fun field : String × Json => (decodeEvidenced decodeValue field.2).map (Prod.mk field.1)) = some payload.toList :=
    mapM_map fun entry _ => by simp only [field, Option.map_some]
  have keys : (payload.toList.map fun field => (field.1, evidencedJson valueJson field.2)).map Prod.fst = payload.toList.map Prod.fst := by
    rw [List.map_map]
    rfl
  simp only [payloadJson, decodeUniqueMap, entries, keys, if_pos (nodup_keys payload), ofList_toList, Option.bind_eq_bind, Option.bind_some]

end

theorem decodeEvent_eventJson (event : AgentActionEvent) : decodeEvent (eventJson event) = some event := by
  have text := @decodeText_textJson
  have index := decodeEvidenced_evidencedJson decodeU64_u64 nofun event.sequenceIndex
  have kind := decodeEvidenced_evidencedJson decodeKind_label nofun event.kind
  have item := decodeOption_option text nofun event.sourceItemId
  simp [decodeEvent, eventJson, structFields, List.lookup_cons, text, index, kind, item, decodeRecordReference_json, decodePayload_payloadJson]

theorem decodeTrace_traceJson (trace : TrajectoryTrace) : decodeTrace (traceJson trace) = some trace := by
  have runId := decodeText_textJson trace.runId
  have events : decodeVec decodeEvent (.arr (trace.events.map eventJson)) = some trace.events :=
    mapM_map fun event _ => decodeEvent_eventJson event
  simp [decodeTrace, traceJson, structFields, List.lookup_cons, runId, events, decodeBinding_bindingJson, decodeSeal_sealJson]

end Legitimacy.Trajectory
