import Legitimacy.Trajectory.PlainTraces

namespace Legitimacy.Trajectory

open Json Serde

/-- A document that is written and read back without loss, nested no deeper than `bound`. -/
structure Readable (bound : Nat) (value : Json) : Prop where
  integral : Integral value
  nesting : value.nesting ≤ bound
  objects : ObjectsFit value

section

variable {bound : Nat}

theorem Readable.mono {value : Json} {larger : Nat} (readable : Readable bound value) (below : bound ≤ larger) : Readable larger value :=
  ⟨readable.integral, readable.nesting.trans below, readable.objects⟩

theorem readable_str (text : String) : Readable bound (.str text) := ⟨trivial, Nat.zero_le _, trivial⟩

theorem readable_bool (value : Bool) : Readable bound (.bool value) := ⟨trivial, Nat.zero_le _, trivial⟩

theorem readable_null : Readable bound .null := ⟨trivial, Nat.zero_le _, trivial⟩

theorem readable_u8 (value : UInt8) : Readable bound (u8 value) := ⟨integral_u8 value, Nat.zero_le _, trivial⟩

theorem readable_u64 (value : UInt64) : Readable bound (u64 value) := ⟨integral_u64 value, Nat.zero_le _, trivial⟩

theorem readable_arr {values : List Json} (all : ∀ value ∈ values, Readable bound value) : Readable (bound + 1) (.arr values) where
  integral := integralValues_iff.2 fun value member => (all value member).integral
  nesting := Nat.succ_le_succ (nestingValues_le.2 fun value member => (all value member).nesting)
  objects := allObjectsFit_iff.2 fun value member => (all value member).objects

theorem readable_obj {fields : List (String × Json)} (distinct : (fields.map Prod.fst).Nodup) (count : fields.length ≤ maxJsonKeysPerObject)
    (size : keysSize (fields.map Prod.fst) ≤ maxJsonKeyBytesPerObject) (all : ∀ field ∈ fields, Readable bound field.2) :
    Readable (bound + 1) (.obj fields) where
  integral := integralFields_iff.2 fun field member => (all field member).integral
  nesting := Nat.succ_le_succ (nestingFields_le.2 fun field member => (all field member).nesting)
  objects := ⟨distinct, count, size, fieldObjectsFit_iff.2 fun field member => (all field member).objects⟩

/-- An object with these keys is within the limits for one object. -/
def KeysFit (keys : List String) : Prop := keys.Nodup ∧ keys.length ≤ maxJsonKeysPerObject ∧ keysSize keys ≤ maxJsonKeyBytesPerObject

instance (keys : List String) : Decidable (KeysFit keys) := inferInstanceAs (Decidable (_ ∧ _ ∧ _))

theorem readable_struct {fields : List (String × Json)} (keys : List String) (same : fields.map Prod.fst = keys) (fit : KeysFit keys)
    (all : ∀ field ∈ fields, Readable bound field.2) : Readable (bound + 1) (.obj fields) := by
  subst same
  exact readable_obj fit.1 (by simpa using fit.2.1) fit.2.2 all

theorem readable_option {α : Type} {encode : α → Json} (value : Option α) (each : ∀ inner ∈ value, Readable bound (encode inner)) :
    Readable bound (option encode value) := by
  cases value with
  | none => exact readable_null
  | some inner => exact each inner rfl

theorem keysSize_le {keys : List String} {limit : Nat} (short : ∀ key ∈ keys, key.utf8ByteSize ≤ limit) :
    keysSize keys ≤ keys.length * limit := by
  induction keys with
  | nil => exact Nat.zero_le _
  | cons key rest ih =>
    have first := short key List.mem_cons_self
    have others := ih fun other member => short other (List.mem_cons_of_mem key member)
    simp only [keysSize, List.map_cons, List.sum_cons, List.length_cons, Nat.add_mul, Nat.one_mul] at *
    omega

end

section

theorem readable_binding (binding : ArtifactBinding) : Readable 1 (bindingJson binding) :=
  readable_struct ["identity", "version", "hash"] rfl (by decide) (by simp [readable_str])

theorem readable_seal (capture : RawCaptureSeal) : Readable 1 (sealJson capture) :=
  readable_struct ["record_count", "digest"] rfl (by decide) (by simp [readable_str, readable_u64])

theorem readable_locator (locator : SourceLocator) : Readable 1 (locatorJson locator) :=
  readable_struct ["record_index", "byte_offset", "byte_length", "digest"] rfl (by decide) (by simp [readable_str, readable_u64])

theorem readable_recordReference (reference : RawRecordReference) : Readable 1 (recordReferenceJson reference) :=
  readable_struct ["record_index", "digest"] rfl (by decide) (by simp [readable_str, readable_u64])

theorem readable_evidence (evidence : Evidence) : Readable 3 (evidenceJson evidence) := by
  cases evidence with
  | citesRawRange locator =>
    have inner := (readable_locator locator).mono (by omega : 1 ≤ 2)
    exact readable_struct ["classification", "locator"] rfl (by decide) (by simp [readable_str, inner])
  | declaredDerivationBinding rule sourceInputs =>
    have first := (readable_binding rule).mono (by omega : 1 ≤ 2)
    have inputs : Readable 2 (.arr (sourceInputs.map locatorJson)) := readable_arr (by simp [readable_locator])
    exact readable_struct ["classification", "rule", "source_inputs"] rfl (by decide) (by simp [readable_str, first, inputs])
  | unavailable reason => exact readable_struct ["classification", "reason"] rfl (by decide) (by simp [readable_str])

theorem readable_evidenced {α : Type} {encode : α → Json} {bound : Nat} (deep : 3 ≤ bound) (field : Evidenced α)
    (each : ∀ value ∈ field.value, Readable bound (encode value)) : Readable (bound + 1) (evidencedJson encode field) := by
  have value := readable_option field.value each
  have evidence := (readable_evidence field.evidence).mono deep
  exact readable_struct ["value", "evidence"] rfl (by decide) (by simp [value, evidence])

end

section

theorem readable_typed {label : String} {content : Json} {bound : Nat} (inner : Readable bound content) :
    Readable (bound + 1) (.obj [("type", .str label), ("value", content)]) :=
  readable_struct ["type", "value"] rfl (by decide) (by simp [readable_str, inner])

theorem fieldsJson_keys : ∀ fields : List (String × NormalizedTree), (fieldsJson fields).map Prod.fst = fields.map Prod.fst
  | [] => rfl
  | (key, value) :: rest => by rw [fieldsJson, List.map_cons, fieldsJson_keys rest, List.map_cons]

theorem fieldsFit_keys : ∀ {fields : List (String × NormalizedTree)} {depth : Nat}, FieldsFit depth fields →
    ∀ key ∈ fields.map Prod.fst, key.utf8ByteSize ≤ 128
    := by
  intro fields depth fits
  induction fields with
  | nil => simp
  | cons field rest ih =>
    rw [List.map_cons]
    exact List.forall_mem_cons.2 ⟨fits.1, ih fits.2.2⟩

theorem keysSize_of_fields {keys : List String} (count : keys.length ≤ maxPayloadFieldsPerObject)
    (short : ∀ key ∈ keys, key.utf8ByteSize ≤ 128) : keysSize keys ≤ maxJsonKeyBytesPerObject := by
  have size := keysSize_le short
  simp only [maxPayloadFieldsPerObject, maxJsonKeyBytesPerObject] at *
  omega

mutual

theorem readable_tree : (tree : NormalizedTree) → ∀ {depth : Nat}, tree.Ordered → TreeFits depth tree →
    Readable (2 * (maxNormalizedDepth - depth) + 2) (treeJson tree)
  | .null, depth, _, _ => readable_struct ["type"] rfl (by decide) (by simp [readable_str])
  | .boolean value, depth, _, _ => readable_typed (readable_bool value)
  | .integer digits, depth, _, _ => readable_typed (readable_str digits)
  | .string text, depth, _, _ => readable_typed (readable_str text)
  | .array values, depth, ordered, fits => readable_typed (readable_arr (readable_trees values ordered fits.2.2))
  | .object fields, depth, ordered, fits => by
    have keys := fieldsJson_keys fields
    have count : (fields.map Prod.fst).length ≤ maxPayloadFieldsPerObject := by
      rw [List.length_map]
      exact fits.2.1
    have length : (fieldsJson fields).length = fields.length := by rw [← List.length_map Prod.fst, keys, List.length_map]
    refine readable_typed (readable_obj ?_ ?_ ?_ (readable_fields fields ordered.2 fits.2.2))
    · rw [keys]
      exact ordered.1.imp ne_of_lt
    · rw [length]
      exact fits.2.1.trans (by decide)
    · rw [keys]
      exact keysSize_of_fields count (fieldsFit_keys fits.2.2)

theorem readable_trees : (values : List NormalizedTree) → ∀ {depth : Nat}, NormalizedTree.AllOrdered values → TreesFit (depth + 1) values →
    ∀ value ∈ treesJson values, Readable (2 * (maxNormalizedDepth - depth)) value
  | [], depth, _, _ => fun value member => by cases member
  | value :: rest, depth, ordered, fits => by
    have depthFits := treeFits_depth fits.1
    have first := (readable_tree value ordered.1 fits.1).mono (by omega : _ ≤ 2 * (maxNormalizedDepth - depth))
    rw [treesJson]
    exact List.forall_mem_cons.2 ⟨first, readable_trees rest ordered.2 fits.2⟩

theorem readable_fields : (fields : List (String × NormalizedTree)) → ∀ {depth : Nat}, NormalizedTree.FieldsOrdered fields →
    FieldsFit (depth + 1) fields → ∀ field ∈ fieldsJson fields, Readable (2 * (maxNormalizedDepth - depth)) field.2
  | [], depth, _, _ => fun field member => by cases member
  | (key, value) :: rest, depth, ordered, fits => by
    have depthFits := treeFits_depth fits.2.1
    have first := (readable_tree value ordered.1 fits.2.1).mono (by omega : _ ≤ 2 * (maxNormalizedDepth - depth))
    rw [fieldsJson]
    exact List.forall_mem_cons.2 ⟨first, readable_fields rest ordered.2 fits.2.2⟩

end

end

theorem readable_payload {event : AgentActionEvent} (fits : EventFits event) : Readable 66 (payloadJson event.payload) := by
  have keys : (event.payload.toList.map fun field => (field.1, evidencedJson valueJson field.2)).map Prod.fst =
      event.payload.toList.map Prod.fst := by
    rw [List.map_map]
    rfl
  have count : event.payload.toList.length ≤ maxPayloadFieldsPerObject := by
    rw [Std.ExtTreeMap.length_toList]
    exact fits.payloadSize
  refine readable_obj ?_ ?_ ?_ ?_
  · rw [keys]
    exact nodup_keys event.payload
  · rw [List.length_map]
    exact count.trans (by decide)
  · rw [keys]
    refine keysSize_of_fields (by rwa [List.length_map]) fun key member => ?_
    obtain ⟨field, inPayload, rfl⟩ := List.mem_map.1 member
    exact (fits.payload field inPayload).name
  · intro field member
    obtain ⟨entry, inPayload, rfl⟩ := List.mem_map.1 member
    have inner := (fits.payload entry inPayload).value
    exact readable_evidenced (by omega) entry.2 fun value found => readable_tree value.tree value.ordered (inner value found)

theorem readable_event {event : AgentActionEvent} (fits : EventFits event) : Readable 67 (eventJson event) := by
  have eventId := (readable_evidenced (by omega) event.eventId fun value _ => readable_str value).mono (by omega : 4 ≤ 66)
  have index := (readable_evidenced (by omega) event.sequenceIndex fun value _ => readable_u64 value).mono (by omega : 4 ≤ 66)
  have kind := (@readable_evidenced _ (fun kind : NormalizedEventKind => .str kind.label) _ (by omega) event.kind
    fun value _ => readable_str _).mono (by omega : 4 ≤ 66)
  have item : Readable 66 (option (evidencedJson .str) event.sourceItemId) := readable_option event.sourceItemId fun field _ =>
    (readable_evidenced (by omega) field fun value _ => readable_str value).mono (by omega : 4 ≤ 66)
  have reference := (readable_recordReference event.rawRecord).mono (by omega : 1 ≤ 66)
  have payload := readable_payload fits
  exact readable_struct ["event_id", "sequence_index", "kind", "source_item_id", "raw_record", "payload"] rfl (by decide) (by simp [eventId, index, kind, item, reference, payload])

theorem readable_trace {trace : TrajectoryTrace} (fits : TraceFits trace) : Readable 69 (traceJson trace) := by
  have schema := (readable_binding trace.schema).mono (by omega : 1 ≤ 68)
  have adapter := (readable_binding trace.adapter).mono (by omega : 1 ≤ 68)
  have policy := (readable_binding trace.policy).mono (by omega : 1 ≤ 68)
  have capture := (readable_seal trace.rawCapture).mono (by omega : 1 ≤ 68)
  have runId := (readable_evidenced (by omega) trace.runId fun value _ => readable_str value).mono (by omega : 4 ≤ 68)
  have events : Readable 68 (.arr (trace.events.map eventJson)) := by
    refine readable_arr fun value member => ?_
    obtain ⟨event, inTrace, rfl⟩ := List.mem_map.1 member
    exact readable_event (fits.events event inTrace)
  exact readable_struct ["schema", "run_id", "adapter", "policy", "raw_capture", "events"] rfl (by decide) (by simp [schema, runId, adapter, policy, capture, events])

open ExceptRun

def ValidatedTrajectoryTrace.toCompactJson {host : Host} (validated : ValidatedTrajectoryTrace host) : Except LegitimacyError (List UInt8) :=
  serializeBoundedCompactJson host validated.trace

/-- The decoder of untrusted JSON. -/
def fromJsonSlice (host : Host) (input : List UInt8) : Except LegitimacyError TrajectoryTrace := do
  if maxTraceJsonInputBytes < input.length then
    invalid s!"trajectory trace JSON input exceeds v0 byte limit of {maxTraceJsonInputBytes}"
  else
    let _ ← (rejectDuplicateJsonKeys host.reader input).mapError fun _ => .json "trajectory trace"
    ((host.reader.parse input).bind decodeTrace).elim (.error (.json "trajectory trace")) .ok

section

variable {floatText : Float → String}

mutual

/-- Every node, key and string byte takes at least one byte of the text. -/
theorem counts_le_size : (value : Json) → Integral value →
    nodeCount value + keyCount value + stringBytes value ≤ textSize (compactChars floatText value)
  | .null, integral => one_le_compactChars integral
  | .bool _, integral => one_le_compactChars integral
  | .int _, integral => one_le_compactChars integral
  | .float _, integral => integral.elim
  | .str value, _ => by
    have size := quoted_size_ge value
    simp only [nodeCount, keyCount, stringBytes, compactChars]
    omega
  | .arr [], _ => by
    show 1 ≤ textSize ['[', ']']
    decide
  | .arr (value :: rest), integral => by
    have first := counts_le_size value integral.1
    have others := moreValues_counts rest integral.2
    simp only [nodeCount, nodeCounts, keyCount, keyCounts, stringBytes, stringsBytes, compactChars, textSize_cons, textSize_append,
      textSize_nil] at *
    have bracket : '['.utf8Size = 1 := rfl
    omega
  | .obj [], _ => by
    show 1 ≤ textSize (compactChars floatText (.obj []))
    exact one_le_compactChars trivial
  | .obj ((key, value) :: rest), integral => by
    have name := quoted_size_ge key
    have first := counts_le_size value integral.1
    have others := moreFields_counts rest integral.2
    simp only [nodeCount, fieldNodes, keyCount, fieldKeys, stringBytes, fieldsBytes, compactChars, textSize_cons, textSize_append,
      textSize_nil] at *
    have brace : Char.utf8Size (Char.ofNat 123) = 1 := rfl
    omega

theorem moreValues_counts : (values : List Json) → IntegralValues values →
    nodeCounts values + keyCounts values + stringsBytes values ≤ textSize (moreValues floatText values)
  | [], _ => Nat.le_refl _
  | value :: rest, integral => by
    have first := counts_le_size value integral.1
    have others := moreValues_counts rest integral.2
    simp only [nodeCounts, keyCounts, stringsBytes, moreValues, textSize_cons, textSize_append] at *
    omega

theorem moreFields_counts : (fields : List (String × Json)) → IntegralFields fields →
    fieldNodes fields + fieldKeys fields + fieldsBytes fields ≤ textSize (moreFields floatText fields)
  | [], _ => Nat.le_refl _
  | (key, value) :: rest, integral => by
    have name := quoted_size_ge key
    have first := counts_le_size value integral.1
    have others := moreFields_counts rest integral.2
    simp only [fieldNodes, fieldKeys, fieldsBytes, moreFields, textSize_cons, textSize_append] at *
    omega

end

end

theorem ValidatedTrajectoryTrace.fits {host : Host} (validated : ValidatedTrajectoryTrace host) : TraceFits validated.trace := by
  exact (validateTrace_eq_ok.1 validated.accepted).parts

theorem ValidatedTrajectoryTrace.compactJson_ok {host : Host} (validated : ValidatedTrajectoryTrace host) :
    validated.toCompactJson = .ok ((traceJson validated.trace).compactBytes host.floatText) ∧
      ((traceJson validated.trace).compactBytes host.floatText).length ≤ maxTraceCompactJsonBytes := by
  obtain ⟨⟨⟩, -, rest⟩ := bind_eq_ok.1 validated.accepted
  obtain ⟨bytes, size, -⟩ := bind_eq_ok.1 rest
  obtain ⟨written, small⟩ := serializeBoundedCompactJson_eq_ok.1 size
  rw [written] at size small
  exact ⟨size, small⟩

theorem rejectDuplicateJsonKeys_ok {host : Host} {value : Json} {bound : Nat} (faithful : Faithful host.floatText host.reader.parse)
    (readable : Readable bound value) (shallow : bound ≤ 127) (small : (value.compactBytes host.floatText).length < 2 ^ 64) :
    rejectDuplicateJsonKeys host.reader (value.compactBytes host.floatText) = .ok (rootKind value) := by
  have read := faithful.exact readable.integral (readable.nesting.trans shallow)
  have counts := @counts_le_size host.floatText value readable.integral
  have depth := readable.nesting
  rw [length_compactBytes] at small
  refine scanJsonWithLimits_ok read ⟨?_, ?_, ?_, ?_, readable.objects⟩
  · show value.nesting + 1 ≤ 2 ^ 64 - 1
    omega
  · show nodeCount value ≤ 2 ^ 64 - 1
    omega
  · show keyCount value ≤ 2 ^ 64 - 1
    omega
  · show stringBytes value ≤ 2 ^ 64 - 1
    omega

theorem fromJsonSlice_compactBytes {host : Host} (faithful : Faithful host.floatText host.reader.parse)
    (validated : ValidatedTrajectoryTrace host) :
    fromJsonSlice host ((traceJson validated.trace).compactBytes host.floatText) = .ok validated.trace := by
  have small := validated.compactJson_ok.2
  have readable := readable_trace validated.fits
  have scanned := rejectDuplicateJsonKeys_ok faithful readable (by omega) (Nat.lt_of_le_of_lt small (by decide))
  have read := faithful.exact readable.integral (readable.nesting.trans (by omega))
  have admitted : ¬maxTraceJsonInputBytes < ((traceJson validated.trace).compactBytes host.floatText).length := Nat.not_lt.2 small
  rw [fromJsonSlice, if_neg admitted, scanned, read, Option.bind_some, decodeTrace_traceJson]
  rfl

/-- The export of a validated trace is imported as the same trace. -/
theorem fromJsonSlice_toCompactJson {host : Host} (faithful : Faithful host.floatText host.reader.parse)
    (validated : ValidatedTrajectoryTrace host) :
    ∃ bytes, validated.toCompactJson = .ok bytes ∧ fromJsonSlice host bytes = .ok validated.trace :=
  ⟨_, validated.compactJson_ok.1, fromJsonSlice_compactBytes faithful validated⟩

theorem fromJsonSlice_toCompactJson_single : ∃ bytes, (singleValidated "run" "event" (by decide) (by decide)).toCompactJson = .ok bytes ∧
    fromJsonSlice exampleHost bytes = .ok (singleTrace exampleHost "run" "event") :=
  fromJsonSlice_toCompactJson exampleHost_faithful (singleValidated "run" "event" (by decide) (by decide))

/-- The contract bytes of two validated traces are equal for equal traces only. -/
theorem ValidatedTrajectoryTrace.canonicalBytes_eq_iff {host : Host} (first second : ValidatedTrajectoryTrace host) :
    canonicalBytes first.trace = canonicalBytes second.trace ↔ first.trace = second.trace :=
  ⟨canonicalBytes_injective first.fits.short second.fits.short, congrArg canonicalBytes⟩

end Legitimacy.Trajectory
