import Legitimacy.Codec
import Legitimacy.CodexExec.ReceiptValidation
import Legitimacy.JsonLine
import Legitimacy.Trajectory.Interchange

namespace Legitimacy.CodexExec

open Trajectory ExceptRun Serde Json

section

def emitterJson (emitter : EmitterIdentity) : Json :=
  .obj [("package_version", .str emitter.packageVersion), ("source_tag", .str emitter.sourceTag),
    ("source_tag_object_sha", .str emitter.sourceTagObjectSha), ("source_commit_sha", .str emitter.sourceCommitSha)]

def inodeJson (inode : InodeIdentity) : Json := .obj [("dev", u64 inode.dev), ("ino", u64 inode.ino)]

def argvJson (argv : ArgvBytes) : Json :=
  .obj [("argument_count", u64 argv.argumentCount), ("arguments_lower_hex", .arr (argv.argumentsLowerHex.map .str)),
    ("total_bytes", u64 argv.totalBytes)]

def inputSealJson : ByteInputSeal → Json
  | .absent => .obj [("presence", .str "absent")]
  | .present byteLength sha256 => .obj [("presence", .str "present"), ("byte_length", u64 byteLength), ("sha256", .str sha256)]

def terminationJson : ProcessTermination → Json
  | .exited code => .obj [("termination", .str "exited"), ("code", u8 code)]
  | .signaled signal coreDumped =>
    .obj [("termination", .str "signaled"), ("signal", u8 signal), ("core_dumped", .bool coreDumped)]

def streamJson (stream : ByteStreamSeal) : Json := .obj [("byte_length", u64 stream.byteLength), ("sha256", .str stream.sha256)]

def executedArtifactJson (artifact : ExecutedArtifact) : Json :=
  .obj [("identity", bindingJson artifact.identity), ("file_sha256", .str artifact.fileSha256), ("inode", inodeJson artifact.inode)]

def captureEntryJson (entry : CaptureManifestEntry) : Json :=
  .obj [("ordinal", u64 entry.ordinal), ("role", .str entry.role), ("format", .str entry.format),
    ("relative_path_lower_hex", .str entry.relativePathLowerHex), ("byte_length", u64 entry.byteLength), ("sha256", .str entry.sha256),
    ("inode", inodeJson entry.inode)]

def releaseJson (release : ReleaseArtifact) : Json := .obj [("name", .str release.name), ("sha256", .str release.sha256)]

def syntheticFields : List String :=
  ["receipt_format", "receipt_version", "evidence_class", "emitter", "full_jsonl_length", "full_jsonl_digest", "raw_record_count",
    "raw_capture_seal", "fixture_spec_manifest", "asserted_nonce_source", "blinding_nonce_lower_hex"]

def syntheticValues (receipt : SyntheticFixtureReceipt) : List Json :=
  [.str receipt.receiptFormat, .str receipt.receiptVersion, .str receipt.evidenceClass, emitterJson receipt.emitter,
    u64 receipt.fullJsonlLength, .str receipt.fullJsonlDigest, u64 receipt.rawRecordCount, sealJson receipt.rawCaptureSeal,
    bindingJson receipt.fixtureSpecManifest, .str receipt.assertedNonceSource.label, .str receipt.blindingNonceLowerHex]

def processFields : List String :=
  ["receipt_format", "receipt_version", "evidence_class", "emitter", "executable_sha256", "executable_inode",
    "executable_execution_binding", "artifact_open_discipline", "workspace_execution_discipline", "argv", "resolved_mode",
    "capture_profile", "stdin", "termination", "stdout", "stderr", "raw_record_count", "raw_capture_seal", "capture_tool",
    "capture_profile_artifact", "workspace_manifest", "workspace_tree_digest", "release_asset", "sigstore_bundle",
    "sigstore_verification", "asserted_nonce_source", "blinding_nonce_lower_hex"]

def processValues (receipt : ProcessCaptureReceipt) : List Json :=
  [.str receipt.receiptFormat, .str receipt.receiptVersion, .str receipt.evidenceClass, emitterJson receipt.emitter,
    .str receipt.executableSha256, inodeJson receipt.executableInode, .str receipt.executableExecutionBinding,
    .str receipt.artifactOpenDiscipline, .str receipt.workspaceExecutionDiscipline, argvJson receipt.argv, .str receipt.resolvedMode.label,
    .str receipt.captureProfile.label, inputSealJson receipt.stdin, terminationJson receipt.termination, streamJson receipt.stdout,
    streamJson receipt.stderr, u64 receipt.rawRecordCount, sealJson receipt.rawCaptureSeal, executedArtifactJson receipt.captureTool,
    bindingJson receipt.captureProfileArtifact, .arr (receipt.workspaceManifest.map captureEntryJson), .str receipt.workspaceTreeDigest,
    releaseJson receipt.releaseAsset, releaseJson receipt.sigstoreBundle, .str receipt.sigstoreVerification,
    .str receipt.assertedNonceSource.label, .str receipt.blindingNonceLowerHex]

def derivedFields : List String :=
  ["receipt_format", "receipt_version", "evidence_class", "asserted_origin_evidence_class", "asserted_parent_receipt",
    "parent_receipt_commitment", "parent_full_jsonl_length", "parent_full_jsonl_digest", "parent_raw_capture_seal", "sanitizer_policy",
    "sanitizer_artifact", "derived_full_jsonl_length", "derived_full_jsonl_digest", "derived_raw_capture_seal", "asserted_nonce_source",
    "blinding_nonce_lower_hex"]

def derivedValues (receipt : SanitizedDerivedCaptureReceipt) : List Json :=
  [.str receipt.receiptFormat, .str receipt.receiptVersion, .str receipt.evidenceClass, .str receipt.assertedOriginEvidenceClass,
    .str receipt.assertedParentReceipt.label, .str receipt.parentReceiptCommitment, u64 receipt.parentFullJsonlLength,
    .str receipt.parentFullJsonlDigest, sealJson receipt.parentRawCaptureSeal, bindingJson receipt.sanitizerPolicy,
    bindingJson receipt.sanitizerArtifact, u64 receipt.derivedFullJsonlLength, .str receipt.derivedFullJsonlDigest,
    sealJson receipt.derivedRawCaptureSeal, .str receipt.assertedNonceSource.label, .str receipt.blindingNonceLowerHex]

def authorityJson : InputAuthorityReceipt → Json
  | .syntheticFixture receipt => .obj (("authority", .str "synthetic-fixture") :: syntheticFields.zip (syntheticValues receipt))
  | .processCapture receipt => .obj (("authority", .str "process-capture") :: processFields.zip (processValues receipt))
  | .sanitizedDerivedCapture receipt =>
    .obj (("authority", .str "sanitized-derived-capture") :: derivedFields.zip (derivedValues receipt))

def contextJson (context : TrustedAdaptationContext) : Json :=
  .obj [("context_format", .str trustedContextFormat), ("context_version", .str trustedContextVersion),
    ("expected_authority_commitment", .str context.expectedAuthorityCommitment),
    ("downstream_governance_policy", bindingJson context.downstreamGovernancePolicy)]

end

section

/-- A unit variant in the buffered content of a tagged enum: beside the forms that `decodeVariant` reads, its name over an empty object. -/
def decodeBufferedVariant {α : Type} (variant : String → Option α) : Json → Option α
  | .obj [(label, .obj [])] => variant label
  | json => decodeVariant variant json

/-- In buffered content the tag may be given as the index of its variant. -/
def bufferedTag (tag : String) (labels : List String) : Json → Option (String × Json)
  | .obj fields =>
    match fields.partition fun field => field.1 == tag with
    | ([(_, .int (.ofNat index))], rest) => labels[index]?.map fun label => (label, .obj rest)
    | _ => tagged tag (.obj fields)
  | .arr (.int (.ofNat index) :: rest) => labels[index]?.map fun label => (label, .arr rest)
  | json => tagged tag json

def decodeEmitter (json : Json) : Option EmitterIdentity := do
  match ← structFields ["package_version", "source_tag", "source_tag_object_sha", "source_commit_sha"] json with
  | [some packageVersion, some sourceTag, some sourceTagObjectSha, some sourceCommitSha] =>
    some ⟨← decodeString packageVersion, ← decodeString sourceTag, ← decodeString sourceTagObjectSha, ← decodeString sourceCommitSha⟩
  | _ => none

def decodeNonce : Json → Option AssertedNonceSource :=
  decodeBufferedVariant fun label =>
    match label with
    | "capture-random" => some .captureRandom
    | "fixed-synthetic-test" => some .fixedSyntheticTest
    | _ => none

def decodeInode (json : Json) : Option InodeIdentity := do
  match ← structFields ["dev", "ino"] json with
  | [some dev, some ino] => some ⟨← decodeU64 dev, ← decodeU64 ino⟩
  | _ => none

def decodeArgv (json : Json) : Option ArgvBytes := do
  match ← structFields ["argument_count", "arguments_lower_hex", "total_bytes"] json with
  | [some argumentCount, some argumentsLowerHex, some totalBytes] =>
    some ⟨← decodeU64 argumentCount, ← decodeVec decodeString argumentsLowerHex, ← decodeU64 totalBytes⟩
  | _ => none

def decodeMode : Json → Option FreshExecMode :=
  decodeBufferedVariant fun label =>
    match label with
    | "fresh-exec-structured-stdin" => some .freshExecStructuredStdin
    | _ => none

def decodeProfile : Json → Option CaptureProfile :=
  decodeBufferedVariant fun label =>
    match label with
    | "unix-read-only-stdin-json-v0" => some .unixReadOnlyStdinJson
    | _ => none

/-- A unit variant ignores what stands beside its tag. -/
def decodeInputSeal (json : Json) : Option ByteInputSeal := do
  match ← bufferedTag "presence" ["absent", "present"] json with
  | ("absent", _) => some .absent
  | ("present", rest) =>
    match ← structFields ["byte_length", "sha256"] rest with
    | [some byteLength, some sha256] => some (.present (← decodeU64 byteLength) (← decodeString sha256))
    | _ => none
  | _ => none

def decodeTermination (json : Json) : Option ProcessTermination := do
  match ← bufferedTag "termination" ["exited", "signaled"] json with
  | ("exited", rest) =>
    match ← structFields ["code"] rest with
    | [some code] => some (.exited (← decodeU8 code))
    | _ => none
  | ("signaled", rest) =>
    match ← structFields ["signal", "core_dumped"] rest with
    | [some signal, some coreDumped] => some (.signaled (← decodeU8 signal) (← decodeBool coreDumped))
    | _ => none
  | _ => none

def decodeStream (json : Json) : Option ByteStreamSeal := do
  match ← structFields ["byte_length", "sha256"] json with
  | [some byteLength, some sha256] => some ⟨← decodeU64 byteLength, ← decodeString sha256⟩
  | _ => none

def decodeExecutedArtifact (json : Json) : Option ExecutedArtifact := do
  match ← structFields ["identity", "file_sha256", "inode"] json with
  | [some identity, some fileSha256, some inode] => some ⟨← decodeBinding identity, ← decodeString fileSha256, ← decodeInode inode⟩
  | _ => none

def decodeCaptureEntry (json : Json) : Option CaptureManifestEntry := do
  match ← structFields ["ordinal", "role", "format", "relative_path_lower_hex", "byte_length", "sha256", "inode"] json with
  | [some ordinal, some role, some format, some relativePathLowerHex, some byteLength, some sha256, some inode] =>
    some ⟨← decodeU64 ordinal, ← decodeString role, ← decodeString format, ← decodeString relativePathLowerHex, ← decodeU64 byteLength,
      ← decodeString sha256, ← decodeInode inode⟩
  | _ => none

def decodeRelease (json : Json) : Option ReleaseArtifact := do
  match ← structFields ["name", "sha256"] json with
  | [some name, some sha256] => some ⟨← decodeString name, ← decodeString sha256⟩
  | _ => none

def decodeAssertedParent : Json → Option AssertedParentReceipt :=
  decodeBufferedVariant fun label =>
    match label with
    | "asserted-parent-receipt-synthetic-fixture-capture-random" => some .syntheticFixtureCaptureRandom
    | "asserted-parent-receipt-synthetic-fixture-fixed-synthetic-test" => some .syntheticFixtureFixedSyntheticTest
    | "asserted-parent-receipt-process-capture-capture-random" => some .processCaptureCaptureRandom
    | _ => none

def decodeSynthetic (json : Json) : Option SyntheticFixtureReceipt := do
  match ← structFields syntheticFields json with
  | [some receiptFormat, some receiptVersion, some evidenceClass, some emitter, some fullJsonlLength, some fullJsonlDigest,
      some rawRecordCount, some rawCaptureSeal, some fixtureSpecManifest, some assertedNonceSource, some blindingNonceLowerHex] =>
    some {
      receiptFormat := ← decodeString receiptFormat
      receiptVersion := ← decodeString receiptVersion
      evidenceClass := ← decodeString evidenceClass
      emitter := ← decodeEmitter emitter
      fullJsonlLength := ← decodeU64 fullJsonlLength
      fullJsonlDigest := ← decodeString fullJsonlDigest
      rawRecordCount := ← decodeU64 rawRecordCount
      rawCaptureSeal := ← decodeSeal rawCaptureSeal
      fixtureSpecManifest := ← decodeBinding fixtureSpecManifest
      assertedNonceSource := ← decodeNonce assertedNonceSource
      blindingNonceLowerHex := ← decodeString blindingNonceLowerHex }
  | _ => none

def decodeProcess (json : Json) : Option ProcessCaptureReceipt := do
  match ← structFields processFields json with
  | [some receiptFormat, some receiptVersion, some evidenceClass, some emitter, some executableSha256, some executableInode,
      some executableExecutionBinding, some artifactOpenDiscipline, some workspaceExecutionDiscipline, some argv, some resolvedMode,
      some captureProfile, some stdin, some termination, some stdout, some stderr, some rawRecordCount, some rawCaptureSeal,
      some captureTool, some captureProfileArtifact, some workspaceManifest, some workspaceTreeDigest, some releaseAsset,
      some sigstoreBundle, some sigstoreVerification, some assertedNonceSource, some blindingNonceLowerHex] =>
    some {
      receiptFormat := ← decodeString receiptFormat
      receiptVersion := ← decodeString receiptVersion
      evidenceClass := ← decodeString evidenceClass
      emitter := ← decodeEmitter emitter
      executableSha256 := ← decodeString executableSha256
      executableInode := ← decodeInode executableInode
      executableExecutionBinding := ← decodeString executableExecutionBinding
      artifactOpenDiscipline := ← decodeString artifactOpenDiscipline
      workspaceExecutionDiscipline := ← decodeString workspaceExecutionDiscipline
      argv := ← decodeArgv argv
      resolvedMode := ← decodeMode resolvedMode
      captureProfile := ← decodeProfile captureProfile
      stdin := ← decodeInputSeal stdin
      termination := ← decodeTermination termination
      stdout := ← decodeStream stdout
      stderr := ← decodeStream stderr
      rawRecordCount := ← decodeU64 rawRecordCount
      rawCaptureSeal := ← decodeSeal rawCaptureSeal
      captureTool := ← decodeExecutedArtifact captureTool
      captureProfileArtifact := ← decodeBinding captureProfileArtifact
      workspaceManifest := ← decodeVec decodeCaptureEntry workspaceManifest
      workspaceTreeDigest := ← decodeString workspaceTreeDigest
      releaseAsset := ← decodeRelease releaseAsset
      sigstoreBundle := ← decodeRelease sigstoreBundle
      sigstoreVerification := ← decodeString sigstoreVerification
      assertedNonceSource := ← decodeNonce assertedNonceSource
      blindingNonceLowerHex := ← decodeString blindingNonceLowerHex }
  | _ => none

def decodeDerived (json : Json) : Option SanitizedDerivedCaptureReceipt := do
  match ← structFields derivedFields json with
  | [some receiptFormat, some receiptVersion, some evidenceClass, some assertedOriginEvidenceClass, some assertedParentReceipt,
      some parentReceiptCommitment, some parentFullJsonlLength, some parentFullJsonlDigest, some parentRawCaptureSeal,
      some sanitizerPolicy, some sanitizerArtifact, some derivedFullJsonlLength, some derivedFullJsonlDigest, some derivedRawCaptureSeal,
      some assertedNonceSource, some blindingNonceLowerHex] =>
    some {
      receiptFormat := ← decodeString receiptFormat
      receiptVersion := ← decodeString receiptVersion
      evidenceClass := ← decodeString evidenceClass
      assertedOriginEvidenceClass := ← decodeString assertedOriginEvidenceClass
      assertedParentReceipt := ← decodeAssertedParent assertedParentReceipt
      parentReceiptCommitment := ← decodeString parentReceiptCommitment
      parentFullJsonlLength := ← decodeU64 parentFullJsonlLength
      parentFullJsonlDigest := ← decodeString parentFullJsonlDigest
      parentRawCaptureSeal := ← decodeSeal parentRawCaptureSeal
      sanitizerPolicy := ← decodeBinding sanitizerPolicy
      sanitizerArtifact := ← decodeBinding sanitizerArtifact
      derivedFullJsonlLength := ← decodeU64 derivedFullJsonlLength
      derivedFullJsonlDigest := ← decodeString derivedFullJsonlDigest
      derivedRawCaptureSeal := ← decodeSeal derivedRawCaptureSeal
      assertedNonceSource := ← decodeNonce assertedNonceSource
      blindingNonceLowerHex := ← decodeString blindingNonceLowerHex }
  | _ => none

def decodeAuthorityWire (json : Json) : Option InputAuthorityReceipt := do
  match ← tagged "authority" json with
  | ("synthetic-fixture", rest) => some (.syntheticFixture (← decodeSynthetic rest))
  | ("process-capture", rest) => some (.processCapture (← decodeProcess rest))
  | ("sanitized-derived-capture", rest) => some (.sanitizedDerivedCapture (← decodeDerived rest))
  | _ => none

structure TrustedContextWire where
  contextFormat : String
  contextVersion : String
  expectedAuthorityCommitment : String
  downstreamGovernancePolicy : ArtifactBinding

def decodeContextWire (json : Json) : Option TrustedContextWire := do
  match ← structFields ["context_format", "context_version", "expected_authority_commitment", "downstream_governance_policy"] json with
  | [some contextFormat, some contextVersion, some expectedAuthorityCommitment, some downstreamGovernancePolicy] =>
    some ⟨← decodeString contextFormat, ← decodeString contextVersion, ← decodeString expectedAuthorityCommitment,
      ← decodeBinding downstreamGovernancePolicy⟩
  | _ => none

variable (host : AdapterHost)

def receiptScanLimits : JsonScanLimits := ⟨16, 32768, 16384, 1024 * 1024⟩

def preflight (input : List UInt8) (cap : Nat) : Except AdapterError Unit :=
  if cap < input.length then .error (.new .inputTooLarge)
  else
    match scanJsonWithLimits host.reader receiptScanLimits input with
    | .ok .object => .ok ⟨⟩
    | .ok .nonObject => .error receiptShape
    | .error failure => .error (.new (if failure = .budget then .jsonBudget else .jsonSyntax))

def decodeAuthority (input : List UInt8) : Except AdapterError InputAuthorityReceipt := do
  preflight host input maxAuthorityReceiptBytes
  let receipt ← ((host.reader.parse input).bind decodeAuthorityWire).elim (.error receiptShape) .ok
  receipt.validate host
  .ok receipt

def decodeTrustedContext (input : List UInt8) : Except AdapterError TrustedAdaptationContext := do
  preflight host input maxTrustedContextBytes
  let wire ← ((host.reader.parse input).bind decodeContextWire).elim (.error receiptShape) .ok
  if wire.contextFormat ≠ trustedContextFormat ∨ wire.contextVersion ≠ trustedContextVersion then .error receiptShape
  else TrustedAdaptationContext.new wire.expectedAuthorityCommitment wire.downstreamGovernancePolicy

end

section

theorem decodeEmitter_json (emitter : EmitterIdentity) : decodeEmitter (emitterJson emitter) = some emitter := by
  simp [decodeEmitter, emitterJson, structFields, List.lookup_cons, decodeString]

theorem decodeInode_json (inode : InodeIdentity) : decodeInode (inodeJson inode) = some inode := by
  simp [decodeInode, inodeJson, structFields, List.lookup_cons]

theorem decodeArgv_json (argv : ArgvBytes) : decodeArgv (argvJson argv) = some argv := by
  have arguments : decodeVec decodeString (.arr (argv.argumentsLowerHex.map .str)) = some argv.argumentsLowerHex := mapM_map fun _ _ => rfl
  simp [decodeArgv, argvJson, structFields, List.lookup_cons, arguments]

theorem bufferedTag_cons {tag label : String} {labels : List String} {fields : List (String × Json)} (other : tag ∉ fields.map Prod.fst) :
    bufferedTag tag labels (.obj ((tag, .str label) :: fields)) = some (label, .obj fields) := by
  rw [bufferedTag, partition_cons other]
  exact tagged_cons other

theorem decodeInputSeal_json (stdin : ByteInputSeal) : decodeInputSeal (inputSealJson stdin) = some stdin := by
  cases stdin with
  | absent => rfl
  | present byteLength sha256 =>
    rw [inputSealJson, decodeInputSeal, bufferedTag_cons (by simp)]
    simp [structFields, List.lookup_cons, decodeString]

theorem decodeTermination_json (termination : ProcessTermination) : decodeTermination (terminationJson termination) = some termination := by
  cases termination with
  | exited code =>
    rw [terminationJson, decodeTermination, bufferedTag_cons (by simp)]
    simp [structFields]
  | signaled signal coreDumped =>
    rw [terminationJson, decodeTermination, bufferedTag_cons (by simp)]
    simp [structFields, List.lookup_cons, decodeBool]

theorem decodeStream_json (stream : ByteStreamSeal) : decodeStream (streamJson stream) = some stream := by
  simp [decodeStream, streamJson, structFields, List.lookup_cons, decodeString]

theorem decodeExecutedArtifact_json (artifact : ExecutedArtifact) : decodeExecutedArtifact (executedArtifactJson artifact) = some artifact := by
  simp [decodeExecutedArtifact, executedArtifactJson, structFields, List.lookup_cons, decodeString, decodeBinding_bindingJson, decodeInode_json]

theorem decodeCaptureEntry_json (entry : CaptureManifestEntry) : decodeCaptureEntry (captureEntryJson entry) = some entry := by
  simp [decodeCaptureEntry, captureEntryJson, structFields, List.lookup_cons, decodeString, decodeInode_json]

theorem decodeRelease_json (release : ReleaseArtifact) : decodeRelease (releaseJson release) = some release := by
  simp [decodeRelease, releaseJson, structFields, List.lookup_cons, decodeString]

theorem decodeNonce_label (source : AssertedNonceSource) : decodeNonce (.str source.label) = some source := by
  cases source <;> simp [decodeNonce, decodeBufferedVariant, decodeVariant, AssertedNonceSource.label]

theorem decodeAssertedParent_label (parent : AssertedParentReceipt) : decodeAssertedParent (.str parent.label) = some parent := by
  cases parent <;> simp [decodeAssertedParent, decodeBufferedVariant, decodeVariant, AssertedParentReceipt.label]

theorem decodeSynthetic_fields (receipt : SyntheticFixtureReceipt) :
    decodeSynthetic (.obj (syntheticFields.zip (syntheticValues receipt))) = some receipt := by
  rw [decodeSynthetic, structFields_zip rfl (by decide)]
  simp [syntheticValues, decodeString, decodeEmitter_json, decodeSeal_sealJson, decodeBinding_bindingJson, decodeNonce_label]

theorem decodeProcess_fields (receipt : ProcessCaptureReceipt) :
    decodeProcess (.obj (processFields.zip (processValues receipt))) = some receipt := by
  have mode : decodeMode (.str receipt.resolvedMode.label) = some receipt.resolvedMode := rfl
  have profile : decodeProfile (.str receipt.captureProfile.label) = some receipt.captureProfile := rfl
  have workspace : decodeVec decodeCaptureEntry (.arr (receipt.workspaceManifest.map captureEntryJson)) = some receipt.workspaceManifest :=
    mapM_map fun entry _ => decodeCaptureEntry_json entry
  rw [decodeProcess, structFields_zip rfl (by decide), Option.bind_eq_bind, Option.bind_some, processValues]
  simp only [List.map_cons, List.map_nil]
  rw [decodeEmitter_json, decodeInode_json, decodeArgv_json, mode, profile, decodeInputSeal_json, decodeTermination_json,
    decodeSeal_sealJson, decodeExecutedArtifact_json, decodeBinding_bindingJson, workspace, decodeNonce_label]
  simp only [decodeStream_json, decodeRelease_json, decodeU64_u64]
  rfl

theorem decodeDerived_fields (receipt : SanitizedDerivedCaptureReceipt) :
    decodeDerived (.obj (derivedFields.zip (derivedValues receipt))) = some receipt := by
  rw [decodeDerived, structFields_zip rfl (by decide), Option.bind_eq_bind, Option.bind_some, derivedValues]
  simp only [List.map_cons, List.map_nil]
  simp only [decodeAssertedParent_label, decodeSeal_sealJson, decodeBinding_bindingJson, decodeNonce_label, decodeU64_u64]
  rfl

theorem decodeAuthorityWire_json (authority : InputAuthorityReceipt) : decodeAuthorityWire (authorityJson authority) = some authority := by
  cases authority with
  | syntheticFixture receipt =>
    rw [authorityJson, decodeAuthorityWire, tagged_zip rfl (by decide)]
    simp [decodeSynthetic_fields]
  | processCapture receipt =>
    rw [authorityJson, decodeAuthorityWire, tagged_zip rfl (by decide)]
    simp [decodeProcess_fields]
  | sanitizedDerivedCapture receipt =>
    rw [authorityJson, decodeAuthorityWire, tagged_zip rfl (by decide)]
    simp [decodeDerived_fields]

theorem decodeContextWire_json (context : TrustedAdaptationContext) : decodeContextWire (contextJson context) =
    some ⟨trustedContextFormat, trustedContextVersion, context.expectedAuthorityCommitment, context.downstreamGovernancePolicy⟩ := by
  simp [decodeContextWire, contextJson, structFields, List.lookup_cons, decodeString, decodeBinding_bindingJson]

end

section

variable {host : AdapterHost} {floatText : Float → String}

theorem preflight_ok (faithful : Faithful host.floatText host.reader.parse) {fields : List (String × Json)} (readable : Readable 15 (.obj fields))
    {cap : Nat} (short : textSize (compactChars host.floatText (.obj fields)) ≤ 16384) (allowed : 16384 ≤ cap) :
    preflight host ((Json.obj fields).compactBytes host.floatText) cap = .ok ⟨⟩ := by
  have counts := @counts_le_size host.floatText _ readable.integral
  have read := faithful.exact readable.integral (readable.nesting.trans (by decide))
  have within : WithinLimits receiptScanLimits (.obj fields) := by
    refine ⟨Nat.succ_le_succ readable.nesting, ?_, ?_, ?_, readable.objects⟩
    · show _ ≤ 32768
      omega
    · show _ ≤ 16384
      omega
    · show _ ≤ 1048576
      omega
  rw [preflight, if_neg (by rw [length_compactBytes]; omega), scanJsonWithLimits_ok read within]
  rfl

theorem readable_inode (inode : InodeIdentity) : Readable 1 (inodeJson inode) :=
  readable_struct ["dev", "ino"] rfl (by decide) (by simp [readable_u64])

theorem readable_emitter (emitter : EmitterIdentity) : Readable 1 (emitterJson emitter) :=
  readable_struct ["package_version", "source_tag", "source_tag_object_sha", "source_commit_sha"] rfl (by decide) (by simp [readable_str])

theorem readable_argv (argv : ArgvBytes) : Readable 2 (argvJson argv) := by
  have arguments : Readable 1 (.arr (argv.argumentsLowerHex.map .str)) := readable_arr (by simp [readable_str])
  exact readable_struct ["argument_count", "arguments_lower_hex", "total_bytes"] rfl (by decide) (by simp [readable_u64, arguments])

theorem readable_inputSeal : ∀ stdin : ByteInputSeal, Readable 1 (inputSealJson stdin)
  | .absent => readable_struct ["presence"] rfl (by decide) (by simp [readable_str])
  | .present _ _ => readable_struct ["presence", "byte_length", "sha256"] rfl (by decide) (by simp [readable_str, readable_u64])

theorem readable_termination : ∀ termination : ProcessTermination, Readable 1 (terminationJson termination)
  | .exited _ => readable_struct ["termination", "code"] rfl (by decide) (by simp [readable_str, readable_u8])
  | .signaled _ _ =>
    readable_struct ["termination", "signal", "core_dumped"] rfl (by decide) (by simp [readable_str, readable_u8, readable_bool])

theorem readable_stream (stream : ByteStreamSeal) : Readable 1 (streamJson stream) :=
  readable_struct ["byte_length", "sha256"] rfl (by decide) (by simp [readable_str, readable_u64])

theorem readable_executedArtifact (artifact : ExecutedArtifact) : Readable 2 (executedArtifactJson artifact) :=
  readable_struct ["identity", "file_sha256", "inode"] rfl (by decide) (by simp [readable_str, readable_binding, readable_inode])

theorem readable_captureEntry (entry : CaptureManifestEntry) : Readable 2 (captureEntryJson entry) :=
  readable_struct ["ordinal", "role", "format", "relative_path_lower_hex", "byte_length", "sha256", "inode"] rfl (by decide)
    (by simp [readable_str, readable_u64, (readable_inode entry.inode)])

theorem readable_release (release : ReleaseArtifact) : Readable 1 (releaseJson release) :=
  readable_struct ["name", "sha256"] rfl (by decide) (by simp [readable_str])

theorem readable_authority (authority : InputAuthorityReceipt) : Readable 4 (authorityJson authority) := by
  have capture (capture : RawCaptureSeal) : Readable 3 (sealJson capture) := (readable_seal capture).mono (by omega)
  have binding (binding : ArtifactBinding) : Readable 3 (bindingJson binding) := (readable_binding binding).mono (by omega)
  have emitter (emitter : EmitterIdentity) : Readable 3 (emitterJson emitter) := (readable_emitter emitter).mono (by omega)
  cases authority with
  | syntheticFixture receipt =>
    exact readable_struct ("authority" :: syntheticFields) rfl (by decide)
      (by simp [syntheticFields, syntheticValues, readable_str, readable_u64, capture, binding, emitter])
  | sanitizedDerivedCapture receipt =>
    exact readable_struct ("authority" :: derivedFields) rfl (by decide)
      (by simp [derivedFields, derivedValues, readable_str, readable_u64, capture, binding])
  | processCapture receipt =>
    have inode := (readable_inode receipt.executableInode).mono (by omega : 1 ≤ 3)
    have argv := (readable_argv receipt.argv).mono (by omega : 2 ≤ 3)
    have stdin := (readable_inputSeal receipt.stdin).mono (by omega : 1 ≤ 3)
    have termination := (readable_termination receipt.termination).mono (by omega : 1 ≤ 3)
    have stream (stream : ByteStreamSeal) : Readable 3 (streamJson stream) := (readable_stream stream).mono (by omega)
    have tool := (readable_executedArtifact receipt.captureTool).mono (by omega : 2 ≤ 3)
    have workspace : Readable 3 (.arr (receipt.workspaceManifest.map captureEntryJson)) := readable_arr (by simp [readable_captureEntry])
    have release (release : ReleaseArtifact) : Readable 3 (releaseJson release) := (readable_release release).mono (by omega)
    exact readable_struct ("authority" :: processFields) rfl (by decide)
      (by simp [processFields, processValues, readable_str, readable_u64, capture, binding, emitter, inode, argv, stdin, termination, stream, tool,
        workspace, release])

variable (context : TrustedAdaptationContext)

theorem readable_context : Readable 2 (contextJson context) :=
  readable_struct ["context_format", "context_version", "expected_authority_commitment", "downstream_governance_policy"] rfl (by decide)
    (by simp [readable_str, readable_binding])

theorem nonce_plain {value : String} {source : AssertedNonceSource} (valid : validateNonce value source = .ok ⟨⟩) :
    value.utf8ByteSize = 64 ∧ PlainText value := by
  obtain ⟨shape, -⟩ := guard_eq_ok.1 valid
  obtain ⟨size, shape⟩ := not_or.1 shape
  obtain ⟨digits, -⟩ := not_or.1 shape
  simp only [Bool.not_eq_true', Bool.not_eq_false, List.all_eq_true] at digits
  exact ⟨not_not.1 size, plainText_of_visible fun byte member => isVisible_of_isHexByte (digits byte member)⟩

theorem parentLabel_size : ∀ parent : AssertedParentReceipt, textSize (quoted parent.label) ≤ 400
  | .syntheticFixtureCaptureRandom => by decide
  | .syntheticFixtureFixedSyntheticTest => by decide
  | .processCaptureCaptureRandom => by decide

theorem sourceLabel_size : ∀ source : AssertedNonceSource, textSize (quoted source.label) ≤ 400
  | .captureRandom => by decide
  | .fixedSyntheticTest => by decide

variable {receipt : SanitizedDerivedCaptureReceipt}

theorem derivedValues_size (valid : receipt.Valid host) :
    ∀ value ∈ derivedValues receipt, textSize (compactChars floatText value) ≤ 400 := by
  have literal (text : String) (short : textSize (quoted text) ≤ 400) : textSize (compactChars floatText (.str text)) ≤ 400 := short
  have digest (digest : String) (listed : isDigest digest = true) : textSize (compactChars floatText (.str digest)) ≤ 400 := by
    rw [isDigest_size listed]
    decide
  have number (value : UInt64) : textSize (compactChars floatText (u64 value)) ≤ 400 := (size_u64_le value).trans (by decide)
  have capture (capture : RawCaptureSeal) (listed : isDigest capture.digest = true) : textSize (compactChars floatText (sealJson capture)) ≤ 400 :=
    (sealJson_size_le listed).trans (by decide)
  obtain ⟨parent, jsonl, parentCapture, derivedJsonl, derivedCapture⟩ := by
    simpa only [List.forall_mem_cons, List.not_mem_nil, false_implies, implies_true, and_true] using valid.digests
  have origin : textSize (quoted receipt.assertedOriginEvidenceClass) ≤ 400 := by
    rcases assertedOrigin_classes valid.origin with same | same <;> rw [same] <;> decide
  obtain ⟨size, plain⟩ := nonce_plain valid.nonce
  have policy : BindingValid receipt.sanitizerPolicy := valid.policy ▸ host.sanitizerPolicyBinding_valid
  have artifact : BindingValid receipt.sanitizerArtifact := valid.artifact ▸ host.sanitizerBinding_valid
  simp only [derivedValues, List.forall_mem_cons, List.not_mem_nil, false_implies, implies_true, and_true]
  refine ⟨literal _ ?_, literal _ ?_, literal _ ?_, literal _ origin, literal _ (parentLabel_size _), digest _ parent, number _, digest _ jsonl,
    capture _ parentCapture, bindingJson_size_le policy, bindingJson_size_le artifact, number _, digest _ derivedJsonl,
    capture _ derivedCapture, literal _ (sourceLabel_size _), ?_⟩
  · rw [valid.format]
    decide
  · rw [valid.version]
    decide
  · rw [valid.evidence]
    decide
  · rw [plain.size, size]
    decide

theorem derivedJson_size_le (valid : receipt.Valid host) :
    textSize (compactChars floatText (authorityJson (.sanitizedDerivedCapture receipt))) ≤ 8192 := by
  have bound := @size_struct_le floatText (("authority", .str "sanitized-derived-capture") :: derivedFields.zip (derivedValues receipt))
    ("authority" :: derivedFields) rfl 424 (by decide)
  have label : textSize (compactChars floatText (.str "sanitized-derived-capture")) = 27 := by
    show textSize (quoted _) = 27
    decide
  have fields : ((derivedFields.zip (derivedValues receipt)).map fun field => textSize (compactChars floatText field.2)).sum ≤ 16 * 400 := by
    refine List.sum_le_card_nsmul _ _ fun size member => ?_
    obtain ⟨field, listed, rfl⟩ := List.mem_map.1 member
    exact derivedValues_size valid field.2 (List.of_mem_zip listed).2
  rw [List.map_cons, List.sum_cons, label] at bound
  show textSize (compactChars floatText (.obj (_ :: _))) ≤ 8192
  omega

theorem contextJson_size_le : textSize (compactChars floatText (contextJson context)) ≤ 8192 := by
  have bound := @size_struct_le floatText [("context_format", .str trustedContextFormat), ("context_version", .str trustedContextVersion),
    ("expected_authority_commitment", .str context.expectedAuthorityCommitment),
    ("downstream_governance_policy", bindingJson context.downstreamGovernancePolicy)]
    ["context_format", "context_version", "expected_authority_commitment", "downstream_governance_policy"] rfl 104 (by decide)
  have format : textSize (compactChars floatText (.str trustedContextFormat)) ≤ 100 := by
    show textSize (quoted _) ≤ 100
    decide
  have version : textSize (compactChars floatText (.str trustedContextVersion)) ≤ 100 := by
    show textSize (quoted _) ≤ 100
    decide
  have commitment := @isDigest_size floatText _ (validateSha256_eq_ok.1 context.commitment)
  have policy := @bindingJson_size_le floatText _ (context_policy context)
  simp only [List.map_cons, List.map_nil, List.sum_cons, List.sum_nil, commitment] at bound
  rw [contextJson]
  omega

theorem decodeAuthority_json (faithful : Faithful host.floatText host.reader.parse)
    (valid : receipt.Valid host) :
    decodeAuthority host ((authorityJson (.sanitizedDerivedCapture receipt)).compactBytes host.floatText) =
      .ok (.sanitizedDerivedCapture receipt) := by
  have readable := readable_authority (.sanitizedDerivedCapture receipt)
  have scanned := preflight_ok faithful (readable.mono (by omega)) ((derivedJson_size_le valid).trans (by omega))
    (by decide : 16384 ≤ maxAuthorityReceiptBytes)
  have read := faithful.exact readable.integral (readable.nesting.trans (by omega))
  have decoded : (host.reader.parse ((authorityJson (.sanitizedDerivedCapture receipt)).compactBytes host.floatText)).bind decodeAuthorityWire =
      some (.sanitizedDerivedCapture receipt) := by
    rw [read, Option.bind_some, decodeAuthorityWire_json]
  refine bind_eq_ok.2 ⟨⟨⟩, scanned, bind_eq_ok.2 ⟨_, elim_eq_ok.2 decoded, ?_⟩⟩
  exact bind_eq_ok.2 ⟨⟨⟩, validateDerived_eq_ok.2 valid, rfl⟩

theorem established_ok {check : Except AdapterError Unit} (passed : check = .ok ⟨⟩) : established check = .ok ⟨passed⟩ := by
  subst passed
  rfl

theorem new_context :
    TrustedAdaptationContext.new context.expectedAuthorityCommitment context.downstreamGovernancePolicy = .ok context := by
  rw [TrustedAdaptationContext.new, established_ok context.commitment, established_ok context.policy, established_ok context.unreserved]
  rfl

theorem decodeTrustedContext_json (faithful : Faithful host.floatText host.reader.parse) (context : TrustedAdaptationContext) :
    decodeTrustedContext host ((contextJson context).compactBytes host.floatText) = .ok context := by
  have readable := readable_context context
  have scanned := preflight_ok faithful (readable.mono (by omega)) ((contextJson_size_le context).trans (by omega))
    (by decide : 16384 ≤ maxTrustedContextBytes)
  have read := faithful.exact readable.integral (readable.nesting.trans (by omega))
  have decoded : (host.reader.parse ((contextJson context).compactBytes host.floatText)).bind decodeContextWire =
      some ⟨trustedContextFormat, trustedContextVersion, context.expectedAuthorityCommitment, context.downstreamGovernancePolicy⟩ := by
    rw [read, Option.bind_some, decodeContextWire_json]
  refine bind_eq_ok.2 ⟨⟨⟩, scanned, bind_eq_ok.2 ⟨_, elim_eq_ok.2 decoded, ?_⟩⟩
  rw [if_neg (not_or.2 ⟨not_not.2 rfl, not_not.2 rfl⟩), new_context]

theorem authorityText_injective (faithful : Faithful host.floatText host.reader.parse) {first second : InputAuthorityReceipt}
    (same : (authorityJson first).compactBytes host.floatText = (authorityJson second).compactBytes host.floatText) : first = second := by
  have read (authority : InputAuthorityReceipt) := faithful.exact (readable_authority authority).integral
    ((readable_authority authority).nesting.trans (by decide))
  have trees := read first
  rw [same, read second] at trees
  have decoded := decodeAuthorityWire_json first
  rw [← Option.some.inj trees, decodeAuthorityWire_json] at decoded
  exact (Option.some.inj decoded).symm

theorem contextText_injective (faithful : Faithful host.floatText host.reader.parse) {first second : TrustedAdaptationContext}
    (same : (contextJson first).compactBytes host.floatText = (contextJson second).compactBytes host.floatText) : first = second := by
  have read := decodeTrustedContext_json faithful first
  rw [same, decodeTrustedContext_json faithful second] at read
  exact (Except.ok.inj read).symm

end

end Legitimacy.CodexExec
