import Legitimacy.CodexExec.Mapping
import Legitimacy.CodexExec.ReceiptValidation
import Legitimacy.JsonLine
import Legitimacy.Trajectory.Interchange
import Legitimacy.Trajectory.Replay

namespace Legitimacy.CodexExec

open Trajectory ExceptRun

structure AdaptedCodexExec where
  capture : FramedCapture
  trace : TrajectoryTrace
  validationDeclarations : TrajectoryValidationContext
  authorityCommitment : String
  evidenceClass : String

section

variable (host : AdapterHost)

/-- The contract of a trace against its records, with the proof of acceptance. -/
def validated (trace : TrajectoryTrace) (records : List (List UInt8)) (declarations : TrajectoryValidationContext) :
    Except LegitimacyError (ValidatedTrajectoryTrace host.toHost) :=
  match accepted : validateTrace host.toHost trace records declarations with
  | .ok ⟨⟩ => .ok ⟨trace, records, declarations, accepted⟩
  | .error failure => .error failure

def AdaptedCodexExec.validate (adapted : AdaptedCodexExec) : Except AdapterError (ValidatedTrajectoryTrace host.toHost) :=
  (validated host adapted.trace adapted.capture.recordSlices adapted.validationDeclarations).mapError fun _ => .new .validation

def adaptFramed (capture : FramedCapture) (authority : InputAuthorityReceipt) (trustedContext : TrustedAdaptationContext) :
    Except AdapterError AdaptedCodexExec := do
  authority.authorize host capture trustedContext
  let rawRecords := capture.recordSlices
  let parsedRecords ← rawRecords.zipIdx.mapM (parseRecord host.reader.parse)
  let _ ← validateStream parsedRecords authority.processTermination
  let mapped ← mapRecordsWithBindings host parsedRecords rawRecords authority.rawSeal trustedContext.downstreamGovernancePolicy
  let adapted : AdaptedCodexExec :=
    ⟨capture, mapped.trace, mapped.validationDeclarations, authority.commitment host.sha256, authority.evidenceClass⟩
  let _ ← adapted.validate host
  .ok adapted

def adapt (jsonl : List UInt8) (authority : InputAuthorityReceipt) (trustedContext : TrustedAdaptationContext) :
    Except AdapterError AdaptedCodexExec := do
  let capture ← parseOwned host.reader jsonl
  adaptFramed host capture authority trustedContext

end

section

variable {host : AdapterHost}

theorem validated_eq_ok {trace : TrajectoryTrace} {records : List (List UInt8)} {declarations : TrajectoryValidationContext}
    {result : ValidatedTrajectoryTrace host.toHost} : validated host trace records declarations = .ok result ↔
      result.trace = trace ∧ result.rawRecords = records ∧ result.declarations = declarations := by
  unfold validated
  constructor
  · intro run
    split at run
    · obtain rfl := Except.ok.inj run
      exact ⟨rfl, rfl, rfl⟩
    · cases run
  · rintro ⟨rfl, rfl, rfl⟩
    split
    · rfl
    · rename_i failure refused
      rw [result.accepted] at refused
      cases refused

theorem AdaptedCodexExec.validate_eq_ok {adapted : AdaptedCodexExec} {result : ValidatedTrajectoryTrace host.toHost} :
    adapted.validate host = .ok result ↔ result.trace = adapted.trace ∧ result.rawRecords = adapted.capture.recordSlices ∧
      result.declarations = adapted.validationDeclarations := by
  rw [AdaptedCodexExec.validate, mapError_eq_ok, validated_eq_ok]

/-- What an adaptation has gone through: the framing, the receipt and the context, the records, their stream, the mapping and the
validation of the trace. -/
structure Adapts (host : AdapterHost) (jsonl : List UInt8) (authority : InputAuthorityReceipt) (context : TrustedAdaptationContext)
    (adapted : AdaptedCodexExec) : Prop where
  framed : parseOwned host.reader jsonl = .ok adapted.capture
  authorized : authority.authorize host adapted.capture context = .ok ⟨⟩
  mapped : ∃ parsedRecords terminal, adapted.capture.recordSlices.zipIdx.mapM (parseRecord host.reader.parse) = .ok parsedRecords ∧
    validateStream parsedRecords authority.processTermination = .ok terminal ∧
    mapRecordsWithBindings host parsedRecords adapted.capture.recordSlices authority.rawSeal context.downstreamGovernancePolicy =
      .ok ⟨adapted.trace, adapted.validationDeclarations⟩
  commitment : adapted.authorityCommitment = authority.commitment host.sha256
  evidenceClass : adapted.evidenceClass = authority.evidenceClass
  valid : validateTrace host.toHost adapted.trace adapted.capture.recordSlices adapted.validationDeclarations = .ok ⟨⟩

theorem adapt_eq_ok {jsonl : List UInt8} {authority : InputAuthorityReceipt} {context : TrustedAdaptationContext}
    {adapted : AdaptedCodexExec} : adapt host jsonl authority context = .ok adapted ↔ Adapts host jsonl authority context adapted := by
  constructor
  · intro run
    obtain ⟨capture, framed, run⟩ := bind_eq_ok.1 run
    obtain ⟨⟨⟩, authorized, run⟩ := bind_eq_ok.1 run
    obtain ⟨parsedRecords, parsed, run⟩ := bind_eq_ok.1 run
    obtain ⟨terminal, stream, run⟩ := bind_eq_ok.1 run
    obtain ⟨mapped, atMapping, run⟩ := bind_eq_ok.1 run
    obtain ⟨result, validates, run⟩ := bind_eq_ok.1 run
    obtain rfl := Except.ok.inj run
    obtain ⟨trace, records, declarations⟩ := AdaptedCodexExec.validate_eq_ok.1 validates
    have valid := result.accepted
    rw [trace, records, declarations] at valid
    exact ⟨framed, authorized, ⟨parsedRecords, terminal, parsed, stream, atMapping⟩, rfl, rfl, valid⟩
  · intro steps
    obtain ⟨parsedRecords, terminal, parsed, stream, atMapping⟩ := steps.mapped
    obtain ⟨capture, trace, declarations, commitment, evidenceClass⟩ := adapted
    obtain rfl : commitment = _ := steps.commitment
    obtain rfl : evidenceClass = _ := steps.evidenceClass
    have validates : AdaptedCodexExec.validate host ⟨capture, trace, declarations, authority.commitment host.sha256,
        authority.evidenceClass⟩ = .ok ⟨trace, capture.recordSlices, declarations, steps.valid⟩ :=
      AdaptedCodexExec.validate_eq_ok.2 ⟨rfl, rfl, rfl⟩
    refine bind_eq_ok.2 ⟨capture, steps.framed, bind_eq_ok.2 ⟨⟨⟩, steps.authorized, bind_eq_ok.2 ⟨parsedRecords, parsed, ?_⟩⟩⟩
    exact bind_eq_ok.2 ⟨terminal, stream, bind_eq_ok.2 ⟨_, atMapping, bind_eq_ok.2 ⟨_, validates, rfl⟩⟩⟩

end

open Serde Json

def maxAdapterBundleBytes : Nat := 16 * 1024 * 1024

def bundleLimits : JsonScanLimits := ⟨48, 200000, 100000, maxAdapterBundleBytes⟩

def privatePolicy : List UInt8 := Utf8.bytes "legitimacy.codex-exec-v0.private-identity-transformation.v0"

inductive ComponentRole
  | officialTraceJson | canonicalTrace
  deriving DecidableEq

def ComponentRole.label : ComponentRole → String
  | .officialTraceJson => "official-trace-json"
  | .canonicalTrace => "canonical-trace"

inductive ComponentFormat
  | trajectoryCompactJson | trajectoryCanonicalBytes
  deriving DecidableEq

def ComponentFormat.label : ComponentFormat → String
  | .trajectoryCompactJson => "trajectory-v0-compact-json"
  | .trajectoryCanonicalBytes => "trajectory-v0-canonical-bytes"

structure PayloadManifestEntry where
  role : ComponentRole
  format : ComponentFormat
  ordinal : UInt8
  byteLength : UInt64
  digest : String
  deriving DecidableEq

def PayloadManifestEntry.new (sha256 : List UInt8 → Digest) (role : ComponentRole) (format : ComponentFormat) (ordinal : UInt8)
    (bytes : List UInt8) : PayloadManifestEntry where
  role
  format
  ordinal
  byteLength := .ofNat bytes.length
  digest := framedSha256 sha256 ("legitimacy.codex-exec-v0.payload-component." ++ role.label ++ ".v0") [bytes]

structure TransformationReceipt where
  receiptFormat : String
  receiptVersion : String
  inputAuthorityCommitment : String
  authorizedCaptureSeal : RawCaptureSeal
  adapter : ArtifactBinding
  schema : ArtifactBinding
  downstreamGovernancePolicy : ArtifactBinding
  transformationPolicy : ArtifactBinding
  normalizedTraceDigest : String
  sanitizedFixtureSeal : Option RawCaptureSeal
  payloadManifest : List PayloadManifestEntry
  deriving DecidableEq

structure PrivateAdapterBundle where
  bundleFormat : String
  bundleVersion : String
  evidenceClass : String
  authorityCommitment : String
  schema : ArtifactBinding
  adapter : ArtifactBinding
  downstreamGovernancePolicy : ArtifactBinding
  officialTraceJson : String
  canonicalTraceLowerHex : String
  trajectoryDigest : String
  payloadManifest : List PayloadManifestEntry
  transformationReceipt : TransformationReceipt
  deriving DecidableEq

structure OutputComponents where
  officialTraceJson : String
  canonicalTrace : List UInt8
  trajectoryDigest : String
  payloadManifest : List PayloadManifestEntry

section

variable (host : AdapterHost)

namespace AdaptedCodexExec

/-- A size that overflows is beyond the limit as well. -/
def components (adapted : AdaptedCodexExec) : Except AdapterError OutputComponents := do
  let validated ← adapted.validate host
  let officialTraceJson ← validated.toCompactJson.mapError fun _ => .new .validation
  let canonicalTrace := canonicalBytes validated.trace
  if maxAdapterBundleBytes < officialTraceJson.length + canonicalTrace.length * 2 then .error (.new .inputTooLarge)
  else
    let payloadManifest := [.new host.sha256 .officialTraceJson .trajectoryCompactJson 0 officialTraceJson,
      .new host.sha256 .canonicalTrace .trajectoryCanonicalBytes 1 canonicalTrace]
    let text ← (String.fromUTF8? officialTraceJson.toByteArray).elim (.error (.new .validation)) .ok
    .ok ⟨text, canonicalTrace, Trajectory.trajectoryDigest host.sha256 validated.trace, payloadManifest⟩

def privateTransformationReceipt (adapted : AdaptedCodexExec) (components : OutputComponents) : TransformationReceipt where
  receiptFormat := "legitimacy.codex-exec-v0.transformation-receipt"
  receiptVersion := "0"
  inputAuthorityCommitment := adapted.authorityCommitment
  authorizedCaptureSeal := adapted.trace.rawCapture
  adapter := host.adapterBinding
  schema := host.schemaBinding
  downstreamGovernancePolicy := adapted.validationDeclarations.policy
  transformationPolicy :=
    if adapted.evidenceClass = "sanitized-derived-capture" then host.sanitizerPolicyBinding
    else ⟨"legitimacy.codex-exec-v0.private-identity-policy", "0", artifactDigest host.sha256 privatePolicy⟩
  normalizedTraceDigest := components.trajectoryDigest
  sanitizedFixtureSeal := if adapted.evidenceClass = "sanitized-derived-capture" then some adapted.trace.rawCapture else none
  payloadManifest := components.payloadManifest

def toPrivateBundle (adapted : AdaptedCodexExec) : Except AdapterError PrivateAdapterBundle := do
  let components ← adapted.components host
  let transformationReceipt := adapted.privateTransformationReceipt host components
  .ok {
    bundleFormat := "legitimacy.codex-exec-v0.private-adapter-bundle"
    bundleVersion := "0"
    evidenceClass := adapted.evidenceClass
    authorityCommitment := adapted.authorityCommitment
    schema := host.schemaBinding
    adapter := host.adapterBinding
    downstreamGovernancePolicy := adapted.validationDeclarations.policy
    officialTraceJson := components.officialTraceJson
    canonicalTraceLowerHex := Hex.encode components.canonicalTrace
    trajectoryDigest := components.trajectoryDigest
    payloadManifest := components.payloadManifest
    transformationReceipt }

end AdaptedCodexExec

def manifestEntryJson (entry : PayloadManifestEntry) : Json :=
  .obj [("role", .str entry.role.label), ("format", .str entry.format.label), ("ordinal", u8 entry.ordinal),
    ("byte_length", u64 entry.byteLength), ("digest", .str entry.digest)]

def transformationJson (receipt : TransformationReceipt) : Json :=
  .obj [("receipt_format", .str receipt.receiptFormat), ("receipt_version", .str receipt.receiptVersion),
    ("input_authority_commitment", .str receipt.inputAuthorityCommitment), ("authorized_capture_seal", sealJson receipt.authorizedCaptureSeal),
    ("adapter", bindingJson receipt.adapter), ("schema", bindingJson receipt.schema),
    ("downstream_governance_policy", bindingJson receipt.downstreamGovernancePolicy),
    ("transformation_policy", bindingJson receipt.transformationPolicy), ("normalized_trace_digest", .str receipt.normalizedTraceDigest),
    ("sanitized_fixture_seal", option sealJson receipt.sanitizedFixtureSeal),
    ("payload_manifest", .arr (receipt.payloadManifest.map manifestEntryJson))]

def privateBundleJson (bundle : PrivateAdapterBundle) : Json :=
  .obj [("bundle_format", .str bundle.bundleFormat), ("bundle_version", .str bundle.bundleVersion),
    ("evidence_class", .str bundle.evidenceClass), ("authority_commitment", .str bundle.authorityCommitment),
    ("schema", bindingJson bundle.schema), ("adapter", bindingJson bundle.adapter),
    ("downstream_governance_policy", bindingJson bundle.downstreamGovernancePolicy), ("official_trace_json", .str bundle.officialTraceJson),
    ("canonical_trace_lower_hex", .str bundle.canonicalTraceLowerHex), ("trajectory_digest", .str bundle.trajectoryDigest),
    ("payload_manifest", .arr (bundle.payloadManifest.map manifestEntryJson)),
    ("transformation_receipt", transformationJson bundle.transformationReceipt)]

/-- The writer refuses the first piece that passes its cap, so that it fails exactly where the whole text passes it. -/
def serializeLine (value : Json) : Except AdapterError (List UInt8) :=
  let bytes := value.compactBytes host.floatText
  if maxAdapterBundleBytes - 1 < bytes.length then .error (.new .inputTooLarge) else .ok (bytes ++ [LineFile.lineFeed])

def PrivateAdapterBundle.toJsonLine (bundle : PrivateAdapterBundle) : Except AdapterError (List UInt8) :=
  serializeLine host (privateBundleJson bundle)

end

section

def decodeComponentRole : Json → Option ComponentRole :=
  decodeVariant fun label =>
    match label with
    | "official-trace-json" => some .officialTraceJson
    | "canonical-trace" => some .canonicalTrace
    | _ => none

def decodeComponentFormat : Json → Option ComponentFormat :=
  decodeVariant fun label =>
    match label with
    | "trajectory-v0-compact-json" => some .trajectoryCompactJson
    | "trajectory-v0-canonical-bytes" => some .trajectoryCanonicalBytes
    | _ => none

def decodeManifestEntry (json : Json) : Option PayloadManifestEntry := do
  match ← structFields ["role", "format", "ordinal", "byte_length", "digest"] json with
  | [some role, some format, some ordinal, some byteLength, some digest] =>
    some ⟨← decodeComponentRole role, ← decodeComponentFormat format, ← decodeU8 ordinal, ← decodeU64 byteLength, ← decodeString digest⟩
  | _ => none

def decodeTransformation (json : Json) : Option TransformationReceipt := do
  match ← structFields ["receipt_format", "receipt_version", "input_authority_commitment", "authorized_capture_seal", "adapter", "schema",
      "downstream_governance_policy", "transformation_policy", "normalized_trace_digest", "sanitized_fixture_seal", "payload_manifest"]
      json with
  | [some receiptFormat, some receiptVersion, some inputAuthorityCommitment, some authorizedCaptureSeal, some adapter, some schema,
      some downstreamGovernancePolicy, some transformationPolicy, some normalizedTraceDigest, sanitizedFixtureSeal, some payloadManifest] =>
    some {
      receiptFormat := ← decodeString receiptFormat
      receiptVersion := ← decodeString receiptVersion
      inputAuthorityCommitment := ← decodeString inputAuthorityCommitment
      authorizedCaptureSeal := ← decodeSeal authorizedCaptureSeal
      adapter := ← decodeBinding adapter
      schema := ← decodeBinding schema
      downstreamGovernancePolicy := ← decodeBinding downstreamGovernancePolicy
      transformationPolicy := ← decodeBinding transformationPolicy
      normalizedTraceDigest := ← decodeString normalizedTraceDigest
      -- an `Option` field may be absent
      sanitizedFixtureSeal := ← decodeOption decodeSeal (sanitizedFixtureSeal.getD .null)
      payloadManifest := ← decodeVec decodeManifestEntry payloadManifest }
  | _ => none

def decodePrivateBundle (json : Json) : Option PrivateAdapterBundle := do
  match ← structFields ["bundle_format", "bundle_version", "evidence_class", "authority_commitment", "schema", "adapter",
      "downstream_governance_policy", "official_trace_json", "canonical_trace_lower_hex", "trajectory_digest", "payload_manifest",
      "transformation_receipt"] json with
  | [some bundleFormat, some bundleVersion, some evidenceClass, some authorityCommitment, some schema, some adapter,
      some downstreamGovernancePolicy, some officialTraceJson, some canonicalTraceLowerHex, some trajectoryDigest, some payloadManifest,
      some transformationReceipt] =>
    some {
      bundleFormat := ← decodeString bundleFormat
      bundleVersion := ← decodeString bundleVersion
      evidenceClass := ← decodeString evidenceClass
      authorityCommitment := ← decodeString authorityCommitment
      schema := ← decodeBinding schema
      adapter := ← decodeBinding adapter
      downstreamGovernancePolicy := ← decodeBinding downstreamGovernancePolicy
      officialTraceJson := ← decodeString officialTraceJson
      canonicalTraceLowerHex := ← decodeString canonicalTraceLowerHex
      trajectoryDigest := ← decodeString trajectoryDigest
      payloadManifest := ← decodeVec decodeManifestEntry payloadManifest
      transformationReceipt := ← decodeTransformation transformationReceipt }
  | _ => none

end

section

variable (host : AdapterHost)

structure InspectedPrivateAdapterBundle where
  bytes : List UInt8
  officialTraceJson : String

structure RevalidatedPrivateAdapterBundle where
  adapted : AdaptedCodexExec
  bundle : PrivateAdapterBundle

def preflightBundle (input : List UInt8) : Except AdapterError (List UInt8) :=
  if maxAdapterBundleBytes < input.length ∨ input = [] ∨ input.getLast? ≠ some LineFile.lineFeed ∨ LineFile.lineFeed ∈ input.dropLast ∨
      carriageReturn ∈ input then .error framingError
  else
    match scanJsonWithLimits host.reader bundleLimits input.dropLast with
    | .ok .object => .ok input.dropLast
    | .ok .nonObject => .error (.new .jsonShape)
    | .error failure => .error (.new (if failure = .budget then .jsonBudget else .jsonSyntax))

def InspectedPrivateAdapterBundle.fromJsonSlice (input : List UInt8) : Except AdapterError InspectedPrivateAdapterBundle := do
  let body ← preflightBundle host input
  let wire ← ((host.reader.parse body).bind decodePrivateBundle).elim (.error (.new .jsonShape)) .ok
  .ok ⟨input, wire.officialTraceJson⟩

def InspectedPrivateAdapterBundle.revalidate (inspected : InspectedPrivateAdapterBundle) (jsonl : List UInt8)
    (authority : InputAuthorityReceipt) (context : TrustedAdaptationContext) : Except AdapterError RevalidatedPrivateAdapterBundle := do
  let suppliedTrace ← (Trajectory.fromJsonSlice host.toHost (Utf8.bytes inspected.officialTraceJson)).mapError fun _ => .new .bundleMismatch
  let adapted ← adapt host jsonl authority context
  let _ ← (validated host suppliedTrace adapted.capture.recordSlices adapted.validationDeclarations).mapError fun _ => .new .bundleMismatch
  let bundle ← adapted.toPrivateBundle host
  let line ← bundle.toJsonLine host
  if line ≠ inspected.bytes then .error (.new .bundleMismatch) else .ok ⟨adapted, bundle⟩

end

end Legitimacy.CodexExec
