import Legitimacy.CodexExec.FailedTurn
import Legitimacy.Trajectory.ReplayRoundTrip

namespace Legitimacy.CodexExec

open Trajectory ExceptRun Serde Json

section

theorem decodeManifestEntry_json (entry : PayloadManifestEntry) : decodeManifestEntry (manifestEntryJson entry) = some entry := by
  have role : decodeComponentRole (.str entry.role.label) = some entry.role := by
    cases entry.role <;> simp [decodeComponentRole, decodeVariant, ComponentRole.label]
  have format : decodeComponentFormat (.str entry.format.label) = some entry.format := by
    cases entry.format <;> simp [decodeComponentFormat, decodeVariant, ComponentFormat.label]
  simp [decodeManifestEntry, manifestEntryJson, structFields, List.lookup_cons, decodeString, role, format]

theorem decodeTransformation_json (receipt : TransformationReceipt) : decodeTransformation (transformationJson receipt) = some receipt := by
  have fixture := decodeOption_option decodeSeal_sealJson (fun _ => nofun) receipt.sanitizedFixtureSeal
  have manifest : decodeVec decodeManifestEntry (.arr (receipt.payloadManifest.map manifestEntryJson)) = some receipt.payloadManifest :=
    mapM_map fun entry _ => decodeManifestEntry_json entry
  simp [decodeTransformation, transformationJson, structFields, List.lookup_cons, decodeString, decodeSeal_sealJson, decodeBinding_bindingJson,
    fixture, manifest]

theorem decodePrivateBundle_json (bundle : PrivateAdapterBundle) : decodePrivateBundle (privateBundleJson bundle) = some bundle := by
  have manifest : decodeVec decodeManifestEntry (.arr (bundle.payloadManifest.map manifestEntryJson)) = some bundle.payloadManifest :=
    mapM_map fun entry _ => decodeManifestEntry_json entry
  simp [decodePrivateBundle, privateBundleJson, structFields, List.lookup_cons, decodeString, decodeBinding_bindingJson, decodeTransformation_json,
    manifest]

end

section

theorem readable_manifestEntry (entry : PayloadManifestEntry) : Readable 1 (manifestEntryJson entry) :=
  readable_struct ["role", "format", "ordinal", "byte_length", "digest"] rfl (by decide) (by simp [readable_str, readable_u64, readable_u8])

theorem readable_manifest (entries : List PayloadManifestEntry) : Readable 2 (.arr (entries.map manifestEntryJson)) :=
  readable_arr (by simp [readable_manifestEntry])

theorem readable_transformation (receipt : TransformationReceipt) : Readable 3 (transformationJson receipt) := by
  have binding (binding : ArtifactBinding) : Readable 2 (bindingJson binding) := (readable_binding binding).mono (by omega)
  have capture (capture : RawCaptureSeal) : Readable 2 (sealJson capture) := (readable_seal capture).mono (by omega)
  have fixture : Readable 2 (option sealJson receipt.sanitizedFixtureSeal) := readable_option _ fun inner _ => capture inner
  have manifest := readable_manifest receipt.payloadManifest
  exact readable_struct ["receipt_format", "receipt_version", "input_authority_commitment", "authorized_capture_seal", "adapter", "schema",
    "downstream_governance_policy", "transformation_policy", "normalized_trace_digest", "sanitized_fixture_seal", "payload_manifest"] rfl
    (by decide) (by simp [readable_str, binding, capture, fixture, manifest])

theorem readable_privateBundle (bundle : PrivateAdapterBundle) : Readable 4 (privateBundleJson bundle) := by
  have binding (binding : ArtifactBinding) : Readable 3 (bindingJson binding) := (readable_binding binding).mono (by omega)
  have manifest := (readable_manifest bundle.payloadManifest).mono (by omega : 2 ≤ 3)
  have transformation := readable_transformation bundle.transformationReceipt
  exact readable_struct ["bundle_format", "bundle_version", "evidence_class", "authority_commitment", "schema", "adapter",
    "downstream_governance_policy", "official_trace_json", "canonical_trace_lower_hex", "trajectory_digest", "payload_manifest",
    "transformation_receipt"] rfl (by decide) (by simp [readable_str, binding, manifest, transformation])

theorem manifest_counts (entries : List PayloadManifestEntry) :
    nodeCounts (entries.map manifestEntryJson) = entries.length * 6 ∧ keyCounts (entries.map manifestEntryJson) = entries.length * 5 := by
  induction entries with
  | nil => exact ⟨rfl, rfl⟩
  | cons entry rest ih =>
    have nodes : nodeCount (manifestEntryJson entry) = 6 := rfl
    have keys : keyCount (manifestEntryJson entry) = 5 := rfl
    rw [List.map_cons, nodeCounts, keyCounts, nodes, keys, ih.1, ih.2, List.length_cons]
    omega

theorem transformation_counts (receipt : TransformationReceipt) :
    nodeCount (transformationJson receipt) ≤ 40 + receipt.payloadManifest.length * 6 ∧
      keyCount (transformationJson receipt) ≤ 40 + receipt.payloadManifest.length * 5 := by
  obtain ⟨nodes, keys⟩ := manifest_counts receipt.payloadManifest
  have fixture : nodeCount (option sealJson receipt.sanitizedFixtureSeal) ≤ 3 ∧ keyCount (option sealJson receipt.sanitizedFixtureSeal) ≤ 2 := by
    cases receipt.sanitizedFixtureSeal with
    | none => decide
    | some inner => exact ⟨Nat.le_refl 3, Nat.le_refl 2⟩
  simp only [transformationJson, nodeCount, fieldNodes, keyCount, fieldKeys, bindingJson, sealJson, u64, nodes, keys]
  omega

theorem privateBundle_counts (bundle : PrivateAdapterBundle) :
    nodeCount (privateBundleJson bundle) ≤
        80 + bundle.payloadManifest.length * 6 + bundle.transformationReceipt.payloadManifest.length * 6 ∧
      keyCount (privateBundleJson bundle) ≤
        80 + bundle.payloadManifest.length * 5 + bundle.transformationReceipt.payloadManifest.length * 5 := by
  obtain ⟨nodes, keys⟩ := manifest_counts bundle.payloadManifest
  obtain ⟨others, otherKeys⟩ := transformation_counts bundle.transformationReceipt
  simp only [privateBundleJson, nodeCount, fieldNodes, keyCount, fieldKeys, bindingJson, nodes, keys]
  omega

end

section

variable {host : AdapterHost} {jsonl : List UInt8} {authority : InputAuthorityReceipt} {context : TrustedAdaptationContext}
  {adapted : AdaptedCodexExec} {bundle : PrivateAdapterBundle} {line : List UInt8}

theorem components_run {result : ValidatedTrajectoryTrace host.toHost} (validates : adapted.validate host = .ok result) :
    ∃ components : OutputComponents, components.officialTraceJson = (traceJson adapted.trace).compact host.floatText ∧
      components.payloadManifest.length = 2 ∧
      adapted.components host = if maxAdapterBundleBytes < ((traceJson adapted.trace).compactBytes host.floatText).length +
        (canonicalBytes adapted.trace).length * 2 then .error (.new .inputTooLarge) else .ok components := by
  have written := result.compactJson_ok.1
  obtain ⟨trace, -, -⟩ := AdaptedCodexExec.validate_eq_ok.1 validates
  rw [trace] at written
  have decoded := Utf8.fromUTF8_bytes ((traceJson adapted.trace).compact host.floatText)
  refine ⟨⟨(traceJson adapted.trace).compact host.floatText, canonicalBytes adapted.trace, Trajectory.trajectoryDigest host.sha256 adapted.trace,
    [.new host.sha256 .officialTraceJson .trajectoryCompactJson 0 ((traceJson adapted.trace).compactBytes host.floatText),
      .new host.sha256 .canonicalTrace .trajectoryCanonicalBytes 1 (canonicalBytes adapted.trace)]⟩, rfl, rfl, ?_⟩
  rw [AdaptedCodexExec.components, validates]
  simp only [bind, Except.bind, written, Except.mapError, compactBytes, decoded, Option.elim_some, trace]
  rfl

theorem toPrivateBundle_eq_ok (run : adapted.toPrivateBundle host = .ok bundle) :
    bundle.officialTraceJson = (traceJson adapted.trace).compact host.floatText ∧ bundle.payloadManifest.length = 2 ∧
      bundle.transformationReceipt.payloadManifest.length = 2 := by
  obtain ⟨components, made, run⟩ := bind_eq_ok.1 run
  obtain ⟨result, validates, -⟩ := bind_eq_ok.1 made
  obtain ⟨known, text, length, same⟩ := components_run validates
  rw [same, guard_eq_ok] at made
  obtain rfl := Except.ok.inj made.2
  obtain rfl := Except.ok.inj run
  exact ⟨text, length, length⟩

theorem toJsonLine_eq_ok : bundle.toJsonLine host = .ok line ↔
    line = (privateBundleJson bundle).compactBytes host.floatText ++ [LineFile.lineFeed] ∧ line.length ≤ maxAdapterBundleBytes := by
  have limit : maxAdapterBundleBytes = 16777216 := rfl
  rw [PrivateAdapterBundle.toJsonLine, serializeLine, guard_eq_ok]
  constructor
  · rintro ⟨small, run⟩
    obtain rfl := Except.ok.inj run
    refine ⟨rfl, ?_⟩
    rw [List.length_append, List.length_singleton]
    omega
  · rintro ⟨rfl, small⟩
    rw [List.length_append, List.length_singleton] at small
    exact ⟨by omega, rfl⟩

theorem serializeLine_refused {value : Json} {failure : AdapterError} (run : serializeLine host value = .error failure) :
    failure = .new .inputTooLarge := by
  rw [serializeLine] at run
  by_cases long : maxAdapterBundleBytes - 1 < (value.compactBytes host.floatText).length
  · rw [if_pos long] at run
    exact (Except.error.inj run).symm
  · rw [if_neg long] at run
    cases run

theorem export_refused {result : ValidatedTrajectoryTrace host.toHost} (validates : adapted.validate host = .ok result)
    {failure : AdapterError} (run : (adapted.toPrivateBundle host >>= fun bundle => bundle.toJsonLine host) = .error failure) :
    failure = .new .inputTooLarge := by
  obtain ⟨components, -, -, made⟩ := components_run validates
  rw [AdaptedCodexExec.toPrivateBundle, made] at run
  by_cases large : maxAdapterBundleBytes < ((traceJson adapted.trace).compactBytes host.floatText).length +
      (canonicalBytes adapted.trace).length * 2
  · rw [if_pos large] at run
    exact (Except.error.inj run).symm
  · rw [if_neg large] at run
    simp only [bind, Except.bind, PrivateAdapterBundle.toJsonLine] at run
    exact serializeLine_refused run

end

section

theorem mapRecords_policy {host : AdapterHost} {records : List ParsedRecord} {rawRecords : List (List UInt8)} {rawCapture : RawCaptureSeal}
    {policy : ArtifactBinding} {mapped : Mapped} (run : mapRecordsWithBindings host records rawRecords rawCapture policy = .ok mapped) :
    mapped.validationDeclarations.policy = policy := by
  obtain ⟨-, run⟩ := guard_eq_ok.1 run
  split at run
  · obtain ⟨first, -, run⟩ := bind_eq_ok.1 run
    obtain ⟨events, -, run⟩ := bind_eq_ok.1 run
    obtain rfl := Except.ok.inj run
    rfl
  · cases run
  · cases run

variable {host : AdapterHost} {jsonl line : List UInt8} {authority : InputAuthorityReceipt} {context : TrustedAdaptationContext}
  {adapted : AdaptedCodexExec} {bundle : PrivateAdapterBundle}

theorem privateBundle_within (small : textSize (compactChars host.floatText (privateBundleJson bundle)) ≤ maxAdapterBundleBytes)
    (entries : bundle.payloadManifest.length = 2) (receiptEntries : bundle.transformationReceipt.payloadManifest.length = 2) :
    WithinLimits bundleLimits (privateBundleJson bundle) := by
  have readable := readable_privateBundle bundle
  obtain ⟨nodes, keys⟩ := privateBundle_counts bundle
  have strings := @counts_le_size host.floatText _ readable.integral
  refine ⟨?_, ?_, ?_, ?_, readable.objects⟩
  · exact Nat.le_trans (Nat.succ_le_succ readable.nesting) (by decide)
  · show nodeCount (privateBundleJson bundle) ≤ 200000
    omega
  · show keyCount (privateBundleJson bundle) ≤ 100000
    omega
  · show stringBytes (privateBundleJson bundle) ≤ maxAdapterBundleBytes
    omega

theorem fromJsonSlice_toJsonLine (faithful : Faithful host.floatText host.reader.parse) (built : adapted.toPrivateBundle host = .ok bundle)
    (written : bundle.toJsonLine host = .ok line) :
    InspectedPrivateAdapterBundle.fromJsonSlice host line = .ok ⟨line, bundle.officialTraceJson⟩ := by
  obtain ⟨-, entries, receiptEntries⟩ := toPrivateBundle_eq_ok built
  obtain ⟨same, small⟩ := toJsonLine_eq_ok.1 written
  have readable := readable_privateBundle bundle
  have read := faithful.exact readable.integral (readable.nesting.trans (by decide))
  have printed := @compactBytes_printed host.floatText _ readable.integral
  have newline : LineFile.lineFeed ∉ (privateBundleJson bundle).compactBytes host.floatText := fun member => absurd (printed _ member) (by decide)
  have noReturn : carriageReturn ∉ (privateBundleJson bundle).compactBytes host.floatText := fun member => absurd (printed _ member) (by decide)
  have whole : line.length = textSize (compactChars host.floatText (privateBundleJson bundle)) + 1 := by
    rw [same, List.length_append, List.length_singleton, length_compactBytes]
  have within := @privateBundle_within host _ (by omega) entries receiptEntries
  have body : line.dropLast = (privateBundleJson bundle).compactBytes host.floatText := by rw [same, List.dropLast_concat]
  have last : line.getLast? = some LineFile.lineFeed := by rw [same, List.getLast?_concat]
  have nonempty : line ≠ [] := by simp [same]
  have inside : carriageReturn ∉ line := by
    rw [same, List.mem_append, List.mem_singleton]
    exact fun member => member.elim noReturn (by decide)
  have preflight : preflightBundle host line = .ok ((privateBundleJson bundle).compactBytes host.floatText) := by
    rw [preflightBundle, body, scanJsonWithLimits_ok read within]
    refine guard_eq_ok.2 ⟨?_, rfl⟩
    rintro (long | empty | unended | fed | returned)
    · omega
    · exact nonempty empty
    · exact unended last
    · exact newline fed
    · exact inside returned
  rw [InspectedPrivateAdapterBundle.fromJsonSlice, preflight]
  refine bind_eq_ok.2 ⟨_, rfl, bind_eq_ok.2 ⟨bundle, ?_, rfl⟩⟩
  rw [read, Option.bind_some, decodePrivateBundle_json]
  rfl

theorem revalidate_toJsonLine (faithful : Faithful host.floatText host.reader.parse)
    (adapts : adapt host jsonl authority context = .ok adapted) (built : adapted.toPrivateBundle host = .ok bundle)
    (written : bundle.toJsonLine host = .ok line) :
    InspectedPrivateAdapterBundle.revalidate host ⟨line, bundle.officialTraceJson⟩ jsonl authority context = .ok ⟨adapted, bundle⟩ := by
  have valid := (adapt_eq_ok.1 adapts).valid
  have validates : validated host adapted.trace adapted.capture.recordSlices adapted.validationDeclarations =
      .ok ⟨adapted.trace, adapted.capture.recordSlices, adapted.validationDeclarations, valid⟩ := validated_eq_ok.2 ⟨rfl, rfl, rfl⟩
  have imported := fromJsonSlice_compactBytes faithful
    ⟨adapted.trace, adapted.capture.recordSlices, adapted.validationDeclarations, valid⟩
  have supplied : Trajectory.fromJsonSlice host.toHost (Utf8.bytes bundle.officialTraceJson) = .ok adapted.trace := by
    rw [(toPrivateBundle_eq_ok built).1]
    exact imported
  refine bind_eq_ok.2 ⟨adapted.trace, mapError_eq_ok.2 supplied, bind_eq_ok.2 ⟨adapted, adapts, ?_⟩⟩
  refine bind_eq_ok.2 ⟨_, mapError_eq_ok.2 validates, bind_eq_ok.2 ⟨bundle, built, bind_eq_ok.2 ⟨line, written, ?_⟩⟩⟩
  exact guard_eq_ok.2 ⟨not_not.2 rfl, rfl⟩

end

end Legitimacy.CodexExec
